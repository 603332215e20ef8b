import DockerEngine.Native.CmdStream
import Mathlib.Algebra.GroupWithZero.Nat

/-!
# What `CmdStream` hands on, and when it hangs

The goroutine leaves the stderr of the command alone until its stdout has ended, which is when
the command exits. So all of the stderr has to fit into its pipe.

- `Inv`: where the bytes of stdout are, and how the stream may be closed
- `Fetches`: the same for stderr, as long as no read of the goroutine fails
- `no_deadlock_iff`: the commands that cannot hang
- `ended_eq`: what the consumer is told at the end
- `complete_of_eof`: end of file stands for a complete output, even when reads fail
-/

namespace Docker.CmdStream

open Go

variable {sizes : Sizes} {cmd : Cmd} {s s' : State sizes} {op : Op}

@[simp] theorem written_nil (fd : Fd) : written fd [] = [] := rfl

@[simp] theorem written_cons (fd : Fd) (write : Fd × List UInt8) (writes : List (Fd × List UInt8)) :
    written fd (write :: writes)
      = (if write.1 = fd then write.2 else []) ++ written fd writes := rfl

/-- The goroutine is in `io.Copy`. -/
def Routine.copies : Routine → Bool
  | copying | passing _ => true
  | _ => false

/-- The write to the stream that is in progress. -/
def Routine.data : Routine → List UInt8
  | passing data => data
  | _ => []

/-- What the goroutine has read from stderr. -/
def Routine.errText : Routine → List UInt8
  | readingAll errText | waiting errText => errText
  | _ => []

namespace State

/-- The command is in a write to a pipe that is full. -/
def Blocked (s : State sizes) : Fd → Prop
  | .stdout => (∃ b writes, b ≠ [] ∧ s.writes = (.stdout, b) :: writes) ∧ s.stdout.Full
  | .stderr => (∃ b writes, b ≠ [] ∧ s.writes = (.stderr, b) :: writes) ∧ s.stderr.Full

/-- The goroutine is in a read of a pipe that is empty, and that the command has open. -/
def WaitsFor (s : State sizes) : Fd → Prop
  | .stdout => s.routine = .copying ∧ s.stdout.content = [] ∧ s.exited = false
  | .stderr =>
    (∃ errText, s.routine = .readingAll errText) ∧ s.stderr.content = [] ∧ s.exited = false

/-- The command is blocked on one of the pipes, and the goroutine waits for the other. -/
def Deadlock (s : State sizes) : Prop :=
  ∃ fd fd', fd ≠ fd' ∧ s.Blocked fd ∧ s.WaitsFor fd'

/-- No read of the goroutine fails. -/
def ReadsSucceed (_ : State sizes) (op : Op) : Prop := ∀ text, op ≠ .readFails text

instance (s : State sizes) (op : Op) : Decidable (s.ReadsSucceed op) :=
  match op with
  | .readFails text => isFalse fun h => h text rfl
  | .start | .write _ | .exit | .routine _ | .read _ => isTrue (by simp [ReadsSucceed])

/-- The steps of `CmdStream`. -/
inductive Moves (cmd : Cmd) (s : State sizes) : Op → State sizes → Prop where
  | start (hstarted : s.started = false) : Moves cmd s .start { s with started := true }
  | wrote {k : Nat} {fd : Fd} {writes : List (Fd × List UInt8)}
      (hwrites : s.writes = (fd, []) :: writes) : Moves cmd s (.write k) { s with writes }
  | out {k : Nat} {b : List UInt8} {writes : List (Fd × List UInt8)}
      {stdout : OsPipe sizes.stdout} (hwrites : s.writes = (.stdout, b) :: writes)
      (hput : stdout.content = s.stdout.content ++ b.take k) :
      Moves cmd s (.write k) { s with stdout, writes := (.stdout, b.drop k) :: writes }
  | err {k : Nat} {b : List UInt8} {writes : List (Fd × List UInt8)}
      {stderr : OsPipe sizes.stderr} (hwrites : s.writes = (.stderr, b) :: writes)
      (hput : stderr.content = s.stderr.content ++ b.take k) :
      Moves cmd s (.write k) { s with stderr, writes := (.stderr, b.drop k) :: writes }
  | exit (hwrites : s.writes = []) : Moves cmd s .exit { s with exited := true }
  | copied {k : Nat} (hroutine : s.routine = .copying) (hempty : s.stdout.content = [])
      (hexited : s.exited) : Moves cmd s (.routine k) { s with routine := .readingAll [] }
  | copy {k : Nat} {data : List UInt8} {stdout : OsPipe sizes.stdout}
      (hroutine : s.routine = .copying) (hdata : data ≠ [])
      (hget : data ++ stdout.content = s.stdout.content) :
      Moves cmd s (.routine k) { s with stdout, routine := .passing data }
  | fetched {k : Nat} {errText : List UInt8} (hroutine : s.routine = .readingAll errText)
      (hempty : s.stderr.content = []) (hexited : s.exited) :
      Moves cmd s (.routine k) { s with routine := .waiting errText }
  | fetch {k : Nat} {errText b : List UInt8} {stderr : OsPipe sizes.stderr}
      (hroutine : s.routine = .readingAll errText)
      (hget : b ++ stderr.content = s.stderr.content) :
      Moves cmd s (.routine k) { s with stderr, routine := .readingAll (errText ++ b) }
  | waited {k : Nat} {errText : GoString} (hroutine : s.routine = .waiting errText)
      (hexited : s.exited) :
      Moves cmd s (.routine k)
        { s.close (cmd.status.map fun text => text ++ str ": " ++ errText) with
          routine := .done }
  | copyFails {text : GoString} (hroutine : s.routine = .copying) :
      Moves cmd s (.readFails text) { s.close (some text) with routine := .readingAll [] }
  | fetchFails {errText : List UInt8} {text : GoString}
      (hroutine : s.routine = .readingAll errText) :
      Moves cmd s (.readFails text)
        { s with
          routine := .waiting (str "(...couldn't fetch stderr: " ++ text ++ str ")") }
  | take {n : Nat} {data : List UInt8} (hroutine : s.routine = .passing data)
      (hended : s.ended = none) :
      Moves cmd s (.read n)
        { s with
          yielded := s.yielded ++ data.take n
          routine := if data.drop n = [] then .copying else .passing (data.drop n) }
  | told {n : Nat} {err : Option GoString} (hclosed : s.closed = some err) :
      Moves cmd s (.read n) { s with ended := some err }

theorem step_cases (h : s.step cmd op = some s') : s.Moves cmd op s' := by
  cases op with
  | start =>
    simp only [step] at h
    split at h
    · simp at h
    · next hstarted => cases h; exact .start (by simpa using hstarted)
  | write k =>
    simp only [step, writeStep] at h
    split at h
    · split at h
      · simp at h
      · next hwrites => cases h; exact .wrote hwrites
      · next hwrites =>
        obtain ⟨stdout, hput, rfl⟩ := Option.map_eq_some_iff.mp h
        exact .out hwrites (OsPipe.put_eq_some hput).2
      · next hwrites =>
        obtain ⟨stderr, hput, rfl⟩ := Option.map_eq_some_iff.mp h
        exact .err hwrites (OsPipe.put_eq_some hput).2
    · simp at h
  | exit =>
    simp only [step, exitStep] at h
    split at h
    · next hexit => cases h; exact .exit hexit.2.1
    · simp at h
  | routine k =>
    simp only [step, routineStep] at h
    split at h
    · next hroutine =>
      split at h
      · next hempty =>
        split at h
        · next hexited => cases h; exact .copied hroutine hempty hexited
        · simp at h
      · split at h
        · obtain ⟨⟨data, stdout⟩, hget, rfl⟩ := Option.map_eq_some_iff.mp h
          obtain ⟨hdata, hcontent⟩ := OsPipe.get_eq_some hget
          exact .copy hroutine hdata hcontent
        · simp at h
    · simp at h
    · next hroutine =>
      split at h
      · next hempty =>
        split at h
        · next hexited => cases h; exact .fetched hroutine hempty hexited
        · simp at h
      · obtain ⟨⟨b, stderr⟩, hget, rfl⟩ := Option.map_eq_some_iff.mp h
        exact .fetch hroutine (OsPipe.get_eq_some hget).2
    · next hroutine =>
      split at h
      · next hexited => cases h; exact .waited hroutine hexited
      · simp at h
    · simp at h
  | readFails text =>
    simp only [step, readFailsStep] at h
    split at h
    · next hroutine => cases h; exact .copyFails hroutine
    · next hroutine => cases h; exact .fetchFails hroutine
    · simp at h
  | read n =>
    simp only [step, readStep] at h
    split at h
    · next hread =>
      split at h
      · next hroutine => cases h; exact .take hroutine hread.2
      · obtain ⟨err, hclosed, rfl⟩ := Option.map_eq_some_iff.mp h
        exact .told hclosed
    · simp at h

/-! ## The stream, also when reads fail -/

/-- No byte of stdout is lost, and only a complete copy is followed by a close without error. -/
structure Inv (cmd : Cmd) (s : State sizes) : Prop where
  out : s.yielded ++ s.routine.data ++ s.stdout.content ++ written .stdout s.writes
    = written .stdout cmd.writes
  exited : s.exited → s.writes = []
  passing : ∀ data, s.routine = .passing data → data ≠ []
  copies : s.routine.copies → s.closed = none
  copied : s.routine.copies = false →
    (∃ text, s.closed = some (some text)) ∨ s.exited ∧ s.stdout.content = []
  complete : s.closed = some none →
    cmd.status = none ∧ s.routine = .done ∧ s.exited ∧ s.stdout.content = []
  ended : ∀ err, s.ended = some err → s.closed = some err

theorem Inv.new (cmd : Cmd) : (new cmd : State sizes).Inv cmd where
  out := by simp [State.new, Routine.data]
  exited h := by simp [State.new] at h
  passing data h := by simp [State.new] at h
  copies _ := rfl
  copied h := by simp [State.new, Routine.copies] at h
  complete h := by simp [State.new] at h
  ended err h := by simp [State.new] at h

/-- A command that has exited writes no more. -/
theorem Inv.not_exited (h : s.Inv cmd) (hwrites : s.writes ≠ []) : s.exited = false := by
  cases hexited : s.exited with
  | false => rfl
  | true => exact absurd (h.exited hexited) hwrites

/-- While the goroutine is in `io.Copy`, the stream is open and the consumer is not told its
    end. -/
theorem Inv.ended_eq_none (h : s.Inv cmd) (hcopies : s.routine.copies) : s.ended = none := by
  rcases hended : s.ended with _ | err
  · rfl
  · have hclosed := h.ended err hended
    simp [h.copies hcopies] at hclosed

/-- After `io.Copy` the goroutine has no bytes of stdout. -/
theorem Routine.data_eq_nil {routine : Routine} (h : routine.copies = false) :
    routine.data = [] := by
  cases routine with
  | passing => simp [Routine.copies] at h
  | copying | readingAll | waiting | done => rfl

/-- Until it closes the stream, the goroutine is then only concerned with stderr. -/
theorem Inv.fetching (h : s.Inv cmd) (hcopies : s.routine.copies = false)
    (hdone : s.routine ≠ .done) {stderr : OsPipe sizes.stderr} {routine : Routine}
    (hcopies' : routine.copies = false) : Inv cmd { s with stderr, routine } where
  out := by
    have hout := h.out
    rw [Routine.data_eq_nil hcopies] at hout
    rw [Routine.data_eq_nil hcopies']
    exact hout
  exited := h.exited
  passing data heq := by
    change routine = .passing data at heq
    simp [heq, Routine.copies] at hcopies'
  copies heq := by simp [hcopies'] at heq
  copied _ := h.copied hcopies
  complete hnone := absurd (h.complete hnone).2.1 hdone
  ended := h.ended

theorem Inv.step (h : s.Inv cmd) (hstep : s.step cmd op = some s') : s'.Inv cmd := by
  have hout := h.out
  cases step_cases hstep with
  | start => exact ⟨h.out, h.exited, h.passing, h.copies, h.copied, h.complete, h.ended⟩
  -- the writes of the command, which has not exited then
  | wrote hwrites =>
    have hexited := h.not_exited (by simp [hwrites])
    refine ⟨?_, by simp [hexited], h.passing, h.copies, h.copied, h.complete, h.ended⟩
    simpa [hwrites] using hout
  | @out k b writes stdout hwrites hput =>
    have hexited := h.not_exited (by simp [hwrites])
    refine ⟨?_, by simp [hexited], h.passing, h.copies, fun hcopies => ?_, fun hnone => ?_,
      h.ended⟩
    · -- the part that was moved goes from the write to the pipe
      rw [← hout, hwrites]
      simp only [hput, written_cons, if_true, List.append_assoc]
      rw [← List.append_assoc (b.take k), List.take_append_drop]
    · rcases h.copied hcopies with hclosed | ⟨hexited', -⟩
      · exact .inl hclosed
      · simp [hexited] at hexited'
    · have hcomplete := h.complete hnone
      simp [hexited] at hcomplete
  | err hwrites =>
    have hexited := h.not_exited (by simp [hwrites])
    refine ⟨?_, by simp [hexited], h.passing, h.copies, h.copied, h.complete, h.ended⟩
    simpa [hwrites] using hout
  | exit hwrites =>
    refine ⟨h.out, fun _ => hwrites, h.passing, h.copies, fun hcopies => ?_, fun hnone => ?_,
      h.ended⟩
    · rcases h.copied hcopies with hclosed | ⟨-, hempty⟩
      · exact .inl hclosed
      · exact .inr ⟨rfl, hempty⟩
    · obtain ⟨hstatus, hdone, -, hempty⟩ := h.complete hnone
      exact ⟨hstatus, hdone, rfl, hempty⟩
  -- `io.Copy`, from the pipe of stdout into the stream, and its end
  | copied hroutine hempty hexited =>
    have hopen := h.copies (by simp [hroutine, Routine.copies])
    refine ⟨?_, h.exited, by simp, by simp [Routine.copies], fun _ => .inr ⟨hexited, hempty⟩,
      by simp [hopen], h.ended⟩
    simpa [hroutine, Routine.data] using hout
  | copy hroutine hdata hget =>
    have hopen := h.copies (by simp [hroutine, Routine.copies])
    refine ⟨?_, h.exited, fun data heq => ?_, fun _ => hopen, by simp [Routine.copies],
      by simp [hopen], h.ended⟩
    · rw [← hout, ← hget, hroutine]
      simp [Routine.data]
    · cases heq
      exact hdata
  | fetched hroutine | fetch hroutine | fetchFails hroutine =>
    exact h.fetching (by simp [hroutine, Routine.copies]) (by simp [hroutine])
      (by simp [Routine.copies])
  -- `cmd.Wait` is followed by a close, which only counts when the stream is open
  | @waited k errText hroutine hexited =>
    have hcopied := h.copied (by simp [hroutine, Routine.copies])
    rw [hroutine] at hout
    rcases hclosed : s.closed with _ | _ | text
    · -- this is the first close
      have hempty : s.stdout.content = [] := by simpa [hclosed, hexited] using hcopied
      refine ⟨hout, h.exited, by simp, by simp [Routine.copies], fun _ => .inr ⟨hexited, hempty⟩,
        fun hnone => ?_, fun err herr => ?_⟩
      · have hstatus : cmd.status = none := by
          cases hstatus : cmd.status <;> simp [close, hclosed, hstatus] at hnone ⊢
        exact ⟨hstatus, rfl, hexited, hempty⟩
      · have hclosed' := h.ended err herr
        simp [hclosed] at hclosed'
    · have hcomplete := h.complete hclosed
      simp [hroutine] at hcomplete
    · -- the copy had failed
      refine ⟨hout, h.exited, by simp, by simp [Routine.copies],
        fun _ => .inl ⟨text, by simp [close, hclosed]⟩, fun hnone => ?_, fun err herr => ?_⟩
      · simp [close, hclosed] at hnone
      · have hclosed' := h.ended err herr
        simpa [close, hclosed] using hclosed'
  | @copyFails text hroutine =>
    have hcopies : s.routine.copies := by simp [hroutine, Routine.copies]
    have hopen := h.copies hcopies
    have hended := h.ended_eq_none hcopies
    rw [hroutine] at hout
    refine ⟨hout, h.exited, by simp, by simp [Routine.copies],
      fun _ => .inl ⟨text, by simp [close, hopen]⟩, fun hnone => ?_, by simp [close, hended]⟩
    simp [close, hopen] at hnone
  -- the consumer takes a part of what the goroutine passes
  | @take n data hroutine hended =>
    have hopen := h.copies (by simp [hroutine, Routine.copies])
    rw [hroutine] at hout
    have hout' : s.yielded ++ (data.take n ++ data.drop n) ++ s.stdout.content
        ++ written .stdout s.writes = written .stdout cmd.writes := by
      rw [List.take_append_drop]
      exact hout
    rw [← List.append_assoc s.yielded] at hout'
    refine ⟨?_, h.exited, fun data' heq => ?_, fun _ => hopen, fun hcopies => ?_,
      by simp [hopen], h.ended⟩
    · split
      · next hnil =>
        rw [hnil] at hout'
        exact hout'
      · exact hout'
    · split at heq
      · simp at heq
      · next hdata =>
        cases heq
        exact hdata
    · split at hcopies <;> simp [Routine.copies] at hcopies
  | told hclosed =>
    refine ⟨h.out, h.exited, h.passing, h.copies, h.copied, h.complete, fun err herr => ?_⟩
    cases herr
    exact hclosed

/-! ## The end of the stream, as long as no read fails -/

/-- The bytes of stderr come to the error that the stream is closed with. -/
structure Fetches (cmd : Cmd) (s : State sizes) : Prop where
  inv : s.Inv cmd
  err : s.routine ≠ .done →
    s.routine.errText ++ s.stderr.content ++ written .stderr s.writes
      = written .stderr cmd.writes
  copied : s.routine.copies = false → s.exited ∧ s.stdout.content = []
  fetched : ∀ errText, s.routine = .waiting errText → s.stderr.content = []
  opened : s.routine ≠ .done → s.closed = none
  done : s.routine = .done →
    s.closed = some (cmd.status.map fun text => text ++ str ": " ++ written .stderr cmd.writes)

theorem Fetches.new (cmd : Cmd) : (new cmd : State sizes).Fetches cmd where
  inv := .new cmd
  err _ := by simp [State.new, Routine.errText]
  copied h := by simp [State.new, Routine.copies] at h
  fetched errText h := by simp [State.new] at h
  opened _ := rfl
  done h := by simp [State.new] at h

theorem Fetches.step (h : s.Fetches cmd) (hok : s.ReadsSucceed op)
    (hstep : s.step cmd op = some s') : s'.Fetches cmd := by
  have hinv := h.inv.step hstep
  have herr := h.err
  cases step_cases hstep with
  | start => exact ⟨hinv, h.err, h.copied, h.fetched, h.opened, h.done⟩
  | wrote hwrites =>
    refine ⟨hinv, fun hdone => ?_, h.copied, h.fetched, h.opened, h.done⟩
    simpa [hwrites] using herr hdone
  | out hwrites =>
    have hexited := h.inv.not_exited (by simp [hwrites])
    refine ⟨hinv, fun hdone => ?_, fun hcopies => ?_, h.fetched, h.opened, h.done⟩
    · simpa [hwrites] using herr hdone
    · have hcopied := h.copied hcopies
      simp [hexited] at hcopied
  | err hwrites hput =>
    have hexited := h.inv.not_exited (by simp [hwrites])
    refine ⟨hinv, fun hdone => ?_, h.copied, fun errText hwaiting => ?_, h.opened, h.done⟩
    · rw [← herr hdone, hwrites]
      simp only [hput, written_cons, if_true, List.append_assoc]
      rw [← List.append_assoc (List.take _ _), List.take_append_drop]
    · have hcopied := h.copied (by rw [hwaiting]; rfl)
      simp [hexited] at hcopied
  | exit =>
    exact ⟨hinv, h.err, fun hcopies => ⟨rfl, (h.copied hcopies).2⟩, h.fetched, h.opened, h.done⟩
  | copied hroutine hempty hexited =>
    refine ⟨hinv, fun _ => ?_, fun _ => ⟨hexited, hempty⟩, by simp, fun _ => ?_, by simp⟩
    · simpa [hroutine, Routine.errText] using herr
    · exact h.opened (by simp [hroutine])
  | copy hroutine =>
    refine ⟨hinv, fun _ => ?_, by simp [Routine.copies], by simp, fun _ => ?_, by simp⟩
    · simpa [hroutine, Routine.errText] using herr
    · exact h.opened (by simp [hroutine])
  | fetched hroutine hempty =>
    have hcopied := h.copied (by simp [hroutine, Routine.copies])
    refine ⟨hinv, fun _ => ?_, fun _ => hcopied, fun _ _ => hempty, fun _ => ?_, by simp⟩
    · simpa [hroutine, Routine.errText] using herr
    · exact h.opened (by simp [hroutine])
  | fetch hroutine hget =>
    have hcopied := h.copied (by simp [hroutine, Routine.copies])
    refine ⟨hinv, fun _ => ?_, fun _ => hcopied, by simp, fun _ => ?_, by simp⟩
    · simpa [hroutine, Routine.errText, ← hget] using herr
    · exact h.opened (by simp [hroutine])
  | @waited k errText hroutine hexited =>
    -- the command has exited and its stderr is empty: `errText` is all of it
    have hcopied := h.copied (by simp [hroutine, Routine.copies])
    have hopen := h.opened (by simp [hroutine])
    have hall : errText = written .stderr cmd.writes := by
      have herr' := herr (by simp [hroutine])
      rw [hroutine, h.fetched errText hroutine, h.inv.exited hexited] at herr'
      simpa [Routine.errText] using herr'
    refine ⟨hinv, by simp, fun _ => hcopied, by simp, by simp, fun _ => ?_⟩
    simp [close, hopen, hall]
  | copyFails | fetchFails => exact absurd rfl (hok _)
  | @take n data hroutine =>
    have hopen := h.opened (by simp [hroutine])
    have herr' := herr (by simp [hroutine])
    rw [hroutine] at herr'
    refine ⟨hinv, fun _ => ?_, fun hcopies => ?_, fun errText hwaiting => ?_, fun _ => hopen,
      fun hdone => ?_⟩
    · split <;> exact herr'
    · split at hcopies <;> simp [Routine.copies] at hcopies
    · split at hwaiting <;> simp at hwaiting
    · split at hdone <;> simp at hdone
  | told => exact ⟨hinv, h.err, h.copied, h.fetched, h.opened, h.done⟩

theorem inv_of_reachable (h : (system sizes cmd).Reachable s) : s.Inv cmd :=
  h.invariant (by rintro _ rfl; exact .new cmd) fun _ _ _ hinv _ hstep => hinv.step hstep

theorem fetches_of_reachable (h : (system sizes cmd).ReachableVia ReadsSucceed s) :
    s.Fetches cmd :=
  h.invariant (by rintro _ rfl; exact .new cmd) fun _ _ _ hfetches hok hstep =>
    hfetches.step hok hstep

/-- What the consumer is told at the end: it has all of stdout, and the end is an error with all
    of stderr unless the command has succeeded. -/
theorem ended_eq {err : Option GoString}
    (h : (system sizes cmd).ReachableVia ReadsSucceed s) (hended : s.ended = some err) :
    s.yielded = written .stdout cmd.writes ∧ (err = none ↔ cmd.status = none) ∧
      ∀ text, cmd.status = some text →
        err = some (text ++ str ": " ++ written .stderr cmd.writes) := by
  have hfetches := fetches_of_reachable h
  have hclosed := hfetches.inv.ended err hended
  have hdone : s.routine = .done := by
    by_contra hdone
    simp [hfetches.opened hdone] at hclosed
  have herr := hfetches.done hdone
  rw [hclosed, Option.some.injEq] at herr
  obtain ⟨hexited, hempty⟩ := hfetches.copied (by simp [hdone, Routine.copies])
  refine ⟨?_, by simp [herr], fun text htext => by simp [herr, htext]⟩
  have hout := hfetches.inv.out
  rw [hdone, hempty, hfetches.inv.exited hexited] at hout
  simpa [Routine.data] using hout

/-- A command that writes to both and fails. -/
def fails : Cmd :=
  ⟨[(.stdout, str "hello"), (.stderr, str "oops")], some (str "exit status 1")⟩

/-- The goroutine and the consumer take the output in two parts. -/
def failsRun : List Op :=
  [.start, .write 5, .write 0, .routine 3, .write 4, .write 0, .read 2, .exit, .read 2, .routine 2,
    .read 2, .routine 0, .routine 4, .routine 0, .routine 0, .read 1]

/-- Where the run ends. -/
def failed : State ⟨65536, 65536, by decide, by decide⟩ :=
  let err := some (some (str "exit status 1: oops"))
  ⟨true, [], true, .empty, .empty, .done, err, str "hello", err⟩

theorem ended_eq_fails :
    str "hello" = written .stdout fails.writes ∧
      (some (str "exit status 1: oops") = none ↔ fails.status = none) ∧
      ∀ text, fails.status = some text →
        some (str "exit status 1: oops")
          = some (text ++ str ": " ++ written .stderr fails.writes) :=
  ended_eq (s := failed) (System.ReachableVia.runVia (.init rfl) failsRun (by decide)) rfl

/-- End of file stands for a complete output of a command that succeeded, whatever reads of the
    goroutine have failed. -/
theorem complete_of_eof (h : (system sizes cmd).Reachable s) (hended : s.ended = some none) :
    s.yielded = written .stdout cmd.writes ∧ cmd.status = none := by
  have hinv := inv_of_reachable h
  obtain ⟨hstatus, hdone, hexited, hempty⟩ := hinv.complete (hinv.ended none hended)
  refine ⟨?_, hstatus⟩
  have hout := hinv.out
  rw [hdone, hempty, hinv.exited hexited] at hout
  simpa [Routine.data] using hout

/-! ## The stream hangs when stderr does not fit into its pipe -/

/-- While the goroutine is in `io.Copy`, everything that was written to stderr is in the pipe. -/
theorem Fetches.stderr_length (h : s.Fetches cmd) (hcopies : s.routine.copies) :
    s.stderr.content.length + (written .stderr s.writes).length
      = (written .stderr cmd.writes).length := by
  have hdone : s.routine ≠ .done := fun hdone => by simp [hdone, Routine.copies] at hcopies
  have herr := h.err hdone
  have htext : s.routine.errText = [] := by
    cases hroutine : s.routine <;> simp [hroutine, Routine.copies, Routine.errText] at hcopies ⊢
  rw [htext, List.nil_append] at herr
  rw [← herr, List.length_append]

/-- The command hangs in a write to stderr. -/
theorem Fetches.of_deadlock (h : s.Fetches cmd) (hdead : s.Deadlock) :
    sizes.stderr < (written .stderr cmd.writes).length := by
  obtain ⟨fd, fd', hne, hblocked, hwaits⟩ := hdead
  cases fd' with
  | stdout =>
    cases fd with
    | stdout => exact absurd rfl hne
    | stderr =>
      obtain ⟨⟨b, writes, hb, hwrites⟩, hfull⟩ := hblocked
      have hlength := h.stderr_length (by simp [hwaits.1, Routine.copies])
      have hpos := List.length_pos_iff.mpr hb
      simp only [hwrites, written_cons, if_true, List.length_append] at hlength
      unfold OsPipe.Full at hfull
      omega
  | stderr =>
    -- the goroutine comes to stderr only when the command has exited
    obtain ⟨⟨errText, hroutine⟩, -, hexited⟩ := hwaits
    have hcopied := h.copied (by simp [hroutine, Routine.copies])
    simp [hexited] at hcopied

/-- What is left to do up to the end of the stream; each byte of stdout is written, copied and
    read. -/
def left (s : State sizes) : Nat :=
  (if s.started then 0 else 1) + s.writes.length
    + 3 * (s.writes.map fun write => write.2.length).sum
    + (if s.exited then 0 else 1)
    + 2 * s.stdout.content.length + s.routine.data.length + s.stderr.content.length
    + (match s.routine with
      | .copying | .passing _ => 4
      | .readingAll _ => 3
      | .waiting _ => 2
      | .done => 0)
    + if s.ended = none then 1 else 0

/-- A command that runs goes on, unless it is in a write to a full pipe. -/
theorem command_progress (hstarted : s.started) (hexited : s.exited = false) :
    (∃ fd, s.Blocked fd) ∨
      ∃ op s', s.step cmd op = some s' ∧ s.ReadsSucceed op ∧ s'.left < s.left := by
  cases hwrites : s.writes with
  | nil =>
    have hstep : s.step cmd .exit = some { s with exited := true } := by
      simp [step, exitStep, hstarted, hwrites, hexited]
    exact .inr ⟨_, _, hstep, by simp [ReadsSucceed], by simp [left, hexited]⟩
  | cons write writes =>
    obtain ⟨fd, b⟩ := write
    -- a write returns when it has moved all its bytes
    by_cases hb : b = []
    · have hstep : s.step cmd (.write 1) = some { s with writes } := by
        subst hb
        cases fd <;> simp [step, writeStep, hstarted, hwrites]
      exact .inr ⟨_, _, hstep, by simp [ReadsSucceed], by simp [left, hwrites, hb]⟩
    · have hpos := List.length_pos_iff.mpr hb
      obtain ⟨c, rest, hcons⟩ := List.exists_cons_of_ne_nil hb
      -- otherwise it moves one more, if there is room in its pipe
      cases fd with
      | stdout =>
        by_cases hfull : s.stdout.Full
        · exact .inl ⟨.stdout, ⟨b, writes, hb, hwrites⟩, hfull⟩
        · obtain ⟨stdout, hput⟩ := OsPipe.exists_put hb hfull
          have hstep : s.step cmd (.write 1)
              = some { s with stdout, writes := (.stdout, b.drop 1) :: writes } := by
            subst hcons
            simp [step, writeStep, hstarted, hwrites, hput]
          refine .inr ⟨_, _, hstep, by simp [ReadsSucceed], ?_⟩
          simp [left, hwrites, (OsPipe.put_eq_some hput).2]
          omega
      | stderr =>
        by_cases hfull : s.stderr.Full
        · exact .inl ⟨.stderr, ⟨b, writes, hb, hwrites⟩, hfull⟩
        · obtain ⟨stderr, hput⟩ := OsPipe.exists_put hb hfull
          have hstep : s.step cmd (.write 1)
              = some { s with stderr, writes := (.stderr, b.drop 1) :: writes } := by
            subst hcons
            simp [step, writeStep, hstarted, hwrites, hput]
          refine .inr ⟨_, _, hstep, by simp [ReadsSucceed], ?_⟩
          simp [left, hwrites, (OsPipe.put_eq_some hput).2]
          omega

/-- Unless it hangs, something can happen until the consumer is told the end. -/
theorem progress (h : s.Fetches cmd) :
    (s.ended ≠ none ∨ s.Deadlock) ∨
      ∃ op s', s.step cmd op = some s' ∧ s.ReadsSucceed op ∧ s'.left < s.left := by
  by_cases hended : s.ended = none
  swap
  · exact .inl (.inl hended)
  cases hstarted : s.started with
  | false =>
    have hstep : s.step cmd .start = some { s with started := true } := by simp [step, hstarted]
    exact .inr ⟨_, _, hstep, by simp [ReadsSucceed], by simp [left, hstarted]⟩
  | true =>
    cases hroutine : s.routine with
    | copying =>
      by_cases hempty : s.stdout.content = []
      · cases hexited : s.exited with
        | true =>
          have hstep : s.step cmd (.routine 0) = some { s with routine := .readingAll [] } := by
            simp [step, routineStep, hroutine, hempty, hexited]
          exact .inr ⟨_, _, hstep, by simp [ReadsSucceed],
            by simp [left, hroutine, Routine.data]⟩
        | false =>
          rcases @command_progress _ cmd _ hstarted hexited with ⟨fd, hblocked⟩ | hprogress
          · refine .inl (.inr ?_)
            cases fd with
            | stdout =>
              -- the pipe of stdout is empty
              have hfull := hblocked.2
              have hpos := sizes.stdout_pos
              simp only [OsPipe.Full, hempty, List.length_nil] at hfull
              omega
            | stderr => exact ⟨.stderr, .stdout, by simp, hblocked, hroutine, hempty, hexited⟩
          · exact .inr hprogress
      · obtain ⟨data, stdout, hget⟩ := OsPipe.exists_get hempty
        have hstep : s.step cmd (.routine 1)
            = some { s with stdout, routine := .passing data } := by
          simp [step, routineStep, hroutine, hempty, hget]
        obtain ⟨hdata, hcontent⟩ := OsPipe.get_eq_some hget
        have hlength := congrArg List.length hcontent
        have hpos := List.length_pos_iff.mpr hdata
        rw [List.length_append] at hlength
        refine .inr ⟨_, _, hstep, by simp [ReadsSucceed], ?_⟩
        simp only [left, hroutine, Routine.data, List.length_nil]
        omega
    | passing data =>
      have hpos := List.length_pos_iff.mpr (h.inv.passing data hroutine)
      have hstep : s.step cmd (.read data.length)
          = some { s with yielded := s.yielded ++ data, routine := .copying } := by
        simp [step, readStep, hroutine, hstarted, hended]
      refine .inr ⟨_, _, hstep, by simp [ReadsSucceed], ?_⟩
      simp only [left, hroutine, Routine.data, List.length_nil]
      omega
    | readingAll errText =>
      obtain ⟨hexited, -⟩ := h.copied (by simp [hroutine, Routine.copies])
      by_cases hempty : s.stderr.content = []
      · have hstep : s.step cmd (.routine 0) = some { s with routine := .waiting errText } := by
          simp [step, routineStep, hroutine, hempty, hexited]
        exact .inr ⟨_, _, hstep, by simp [ReadsSucceed], by simp [left, hroutine, Routine.data]⟩
      · obtain ⟨b, stderr, hget⟩ := OsPipe.exists_get hempty
        have hstep : s.step cmd (.routine 1)
            = some { s with stderr, routine := .readingAll (errText ++ b) } := by
          simp [step, routineStep, hroutine, hempty, hget]
        obtain ⟨hb, hcontent⟩ := OsPipe.get_eq_some hget
        have hlength := congrArg List.length hcontent
        have hpos := List.length_pos_iff.mpr hb
        rw [List.length_append] at hlength
        refine .inr ⟨_, _, hstep, by simp [ReadsSucceed], ?_⟩
        simp only [left, hroutine, Routine.data]
        omega
    | waiting errText =>
      obtain ⟨hexited, -⟩ := h.copied (by simp [hroutine, Routine.copies])
      have hstep : s.step cmd (.routine 0) = some { s.close
          (cmd.status.map fun text => text ++ str ": " ++ errText) with routine := .done } := by
        simp [step, routineStep, hroutine, hexited]
      exact .inr ⟨_, _, hstep, by simp [ReadsSucceed],
        by simp [left, hroutine, close, Routine.data]⟩
    | done =>
      have hstep : s.step cmd (.read 1) = some { s with ended := s.closed } := by
        simp [step, readStep, hroutine, hstarted, hended, h.done hroutine]
      exact .inr ⟨_, _, hstep, by simp [ReadsSucceed], by simp [left, hended, h.done hroutine]⟩

/-- A command that has exited has found room for its stderr. -/
theorem fits_step (h : s.Fetches cmd)
    (hfits : s.exited → (written .stderr cmd.writes).length ≤ sizes.stderr)
    (hstep : s.step cmd op = some s') :
    s'.exited → (written .stderr cmd.writes).length ≤ sizes.stderr := by
  cases step_cases hstep with
  | exit hwrites =>
    intro _
    cases hcopies : s.routine.copies with
    | false => exact hfits (h.copied hcopies).1
    | true =>
      have hlength := h.stderr_length hcopies
      have hsize := s.stderr.fits
      simp only [hwrites, written_nil, List.length_nil] at hlength
      omega
  | start | wrote | out | err | copied | copy | fetched | fetch | waited | copyFails
  | fetchFails | take | told => exact hfits

theorem fits_of_reachable (h : (system sizes cmd).ReachableVia ReadsSucceed s) :
    s.exited → (written .stderr cmd.writes).length ≤ sizes.stderr := by
  induction h with
  | init hs =>
    subst hs
    simp [State.new]
  | step hs hok hstep ih => exact fits_step (fetches_of_reachable hs) ih hstep

/-- Every run goes on to the end of the stream, or hangs. -/
theorem ends_or_hangs (h : (system sizes cmd).ReachableVia ReadsSucceed s) :
    ∃ s', (system sizes cmd).ReachableVia ReadsSucceed s' ∧ (s'.ended ≠ none ∨ s'.Deadlock) := by
  obtain ⟨_, s', -, hreach, hend⟩ := System.run_to (system sizes cmd) left
    (P := (system sizes cmd).ReachableVia ReadsSucceed)
    (Q := fun s => s.ended ≠ none ∨ s.Deadlock)
    (fun s hs => by
      rcases progress (fetches_of_reachable hs) with hend | ⟨op, s', hstep, hok, hlt⟩
      · exact .inl hend
      · exact .inr ⟨op, s', hstep, hs.step hok hstep, hlt⟩)
    h
  exact ⟨s', hreach, hend⟩

theorem exists_deadlock (hlong : sizes.stderr < (written .stderr cmd.writes).length) :
    ∃ s, (system sizes cmd).ReachableVia ReadsSucceed s ∧ s.Deadlock := by
  obtain ⟨s, hreach, hended | hdead⟩ := ends_or_hangs
    (.init rfl : (system sizes cmd).ReachableVia ReadsSucceed (.new cmd))
  · -- had the stream ended, the command would have exited
    obtain ⟨err, herr⟩ := Option.ne_none_iff_exists'.mp hended
    have hfetches := fetches_of_reachable hreach
    have hclosed := hfetches.inv.ended err herr
    have hcopies : s.routine.copies = false := by
      cases hcopies : s.routine.copies with
      | false => rfl
      | true => simp [hfetches.inv.copies hcopies] at hclosed
    have hfits := fits_of_reachable hreach (hfetches.copied hcopies).1
    omega
  · exact ⟨s, hreach, hdead⟩

/-- `CmdStream` does not hang exactly when the stderr of the command fits into its pipe. -/
theorem no_deadlock_iff (sizes : Sizes) (cmd : Cmd) :
    (∀ s, (system sizes cmd).ReachableVia ReadsSucceed s → ¬s.Deadlock) ↔
      (written .stderr cmd.writes).length ≤ sizes.stderr := by
  constructor
  · intro hnever
    by_contra hlong
    obtain ⟨s, hreach, hdead⟩ := exists_deadlock (Nat.lt_of_not_le hlong)
    exact hnever s hreach hdead
  · intro hfits s hreach hdead
    have hlong := (fetches_of_reachable hreach).of_deadlock hdead
    omega

/-- Pipes of 64 KiB. -/
def linux : Sizes := ⟨65536, 65536, by decide, by decide⟩

/-- One byte of stderr more than the pipe holds. -/
theorem deadlock :
    ∃ s, (system linux ⟨[(.stderr, List.replicate 65537 33)], none⟩).ReachableVia ReadsSucceed s ∧
      s.Deadlock := by
  apply exists_deadlock
  have hone (b : List UInt8) : written .stderr [(.stderr, b)] = b := List.append_nil b
  rw [hone, List.length_replicate]
  show 65536 < 65537
  omega

end State

end Docker.CmdStream
