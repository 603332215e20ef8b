import DockerEngine.Native.Attach
import DockerEngine.Spec.LastSignal
import DockerEngine.Spec.Stdin

/-!
# When `attach` returns

`CmdAttach` waits for its input as well as for its outputs. The goroutine that feeds the process is
gone soon after the process, and the pipe it has read is never closed by the container. A client
that sends something after that leaves its goroutine in a `Write` that nobody takes, and then the
end of its input is not noticed any more. An output waits for ever if its `bufReader` sleeps through
the last signal.

- `attach_returns_iff`: whether a call can still return
-/

namespace Docker.Attach

open Go Stdin

variable {s s' : Attached} {p j k n : Nat} {i i' : Input} {pipe pipe' : Pipe} {c : Call}

/-- Nobody reads the pipe, and nobody will: the container has another one, and no goroutine that
    feeds a process reads from it. -/
def Attached.Abandoned (s : Attached) (p : Nat) : Prop :=
  s.container.stdin ≠ p ∧ ∀ r ∈ s.container.runs, r.copier.source ≠ some p

/-- All that the client has sent was taken. -/
def Input.AtEase (i : Input) (pipe : Pipe) : Prop :=
  i.unread = [] ∧ (i.pump = .reading ∨ i.pump = .writing ∧ pipe.data = [])

/-- The pipe is closed, or all was taken of what the goroutine was sent, or of what a goroutine was
    sent that will close the pipe. -/
def Attached.CanEnd (s : Attached) (j : Nat) (i : Input) : Prop :=
  ∃ pipe, s.container.pipes[i.pipe]? = some pipe ∧
    (pipe.writerClosed = true ∨
      ∃ j' i', s.inputs[j']? = some i' ∧ i'.pipe = i.pipe ∧ (j' = j ∨ i'.closes = true) ∧
        i'.AtEase pipe)

/-- The `bufReader` of an output is the same, or has made a step. -/
def Output.Becomes (o o' : Output) : Prop :=
  o'.reader = o.reader ∨ ∃ source op, o.reader.step source op = some o'.reader

/-- Outputs before and behind a step: none is lost, and what is new has just begun. -/
structure Follows (os os' : List Output) : Prop where
  from_old : ∀ o' ∈ os', o'.reader = .new ∨ ∃ o ∈ os, o.Becomes o'
  kept : ∀ o ∈ os, ∃ o' ∈ os', o.Becomes o'

/-- No output waits for a signal that has been given. -/
def Call.Awake (c : Call) : Prop := ∀ o ∈ c.outputs, ¬o.reader.Overslept

/-! ## What a step of a goroutine can do -/

/-- The steps of `io.Copy(c_stdin, stdin)`. -/
inductive Pumps (i : Input) (pipe : Pipe) (unlocked : Bool) : Input × Pipe → Prop
  | read {n : Nat} (hpump : i.pump = .reading) (hunread : i.unread ≠ []) (hn : n ≠ 0) :
    Pumps i pipe unlocked ({ i with
      pump := .offering (i.unread.take n)
      unread := i.unread.drop n }, pipe)
  | eof (hpump : i.pump = .reading) (hunread : i.unread = []) (hhungUp : i.hungUp = true) :
    Pumps i pipe unlocked (i.ended pipe)
  | refused {chunk : List UInt8} (hpump : i.pump = .offering chunk)
    (hclosed : pipe.isOpen = false) : Pumps i pipe unlocked (i.ended pipe)
  | offered {chunk : List UInt8} (hpump : i.pump = .offering chunk) (hopen : pipe.isOpen = true)
      (hunlocked : unlocked = true) :
    Pumps i pipe unlocked ({ i with pump := .writing }, { pipe with data := chunk })
  | written (hpump : i.pump = .writing) (hdata : pipe.data = []) :
    Pumps i pipe unlocked ({ i with pump := .reading }, pipe)
  | aborted (hpump : i.pump = .writing) (hdata : pipe.data ≠ []) (hclosed : pipe.isOpen = false) :
    Pumps i pipe unlocked (i.ended { pipe with data := [] })

theorem Input.step_eq_some {unlocked : Bool} {next : Input × Pipe}
    (h : i.step pipe unlocked n = some next) : Pumps i pipe unlocked next := by
  unfold Input.step at h
  split at h
  · next hpump =>
    split at h
    · next hunread =>
      split at h
      · next hhungUp =>
        cases h
        exact .eof hpump hunread hhungUp
      · cases h
    · next hunread =>
      split at h
      · cases h
      · next hn =>
        cases h
        exact .read hpump hunread hn
  · next chunk hpump =>
    split at h
    · next hoffer =>
      cases h
      refine .refused hpump (Bool.eq_false_iff.mpr fun hopen => ?_)
      rw [Pipe.offer, if_pos hopen] at hoffer
      cases hoffer
    · next pipe' hoffer =>
      obtain ⟨hopen, rfl⟩ := Pipe.offer_eq_some hoffer
      split at h
      · next hunlocked =>
        cases h
        exact .offered hpump hopen hunlocked
      · cases h
  · next hpump =>
    split at h
    · next hdata =>
      cases h
      exact .written hpump hdata
    · next hdata =>
      split at h
      · cases h
      · next hclosed =>
        cases h
        exact .aborted hpump hdata (Bool.eq_false_iff.mpr hclosed)
  · cases h

/-- The goroutine keeps its pipe, and what it does behind `io.Copy`. -/
theorem Pumps.same {unlocked : Bool} {next : Input × Pipe} (h : Pumps i pipe unlocked next) :
    next.1.pipe = i.pipe ∧ next.1.closes = i.closes := by
  cases h <;> exact ⟨rfl, rfl⟩

/-! ## What the container does to its pipes -/

/-- What the steps of a container do that are not those of a writer: pipes are emptied and made,
    but not filled and not closed, and nobody goes back to an abandoned pipe. -/
structure Moves (a b : Stdin.Container) : Prop where
  stdin : b.stdin + 1 = b.pipes.length
  length : a.pipes.length ≤ b.pipes.length
  pipes : ∀ (p : Nat) (pipe' : Pipe), b.pipes[p]? = some pipe' →
    pipe' = Pipe.new ∨ ∃ pipe, a.pipes[p]? = some pipe ∧
      pipe'.readerClosed = pipe.readerClosed ∧ (pipe.data = [] → pipe'.data = [])
  abandoned : ∀ p < a.pipes.length, a.stdin ≠ p → (∀ r ∈ a.runs, r.copier.source ≠ some p) →
    b.stdin ≠ p ∧ (∀ r ∈ b.runs, r.copier.source ≠ some p) ∧ b.pipes[p]? = a.pipes[p]?

namespace Moves

variable {a b : Stdin.Container}

/-- The pipes are left alone. -/
theorem of_runs (hstdin : a.stdin + 1 = a.pipes.length) (hsame : b.stdin = a.stdin)
    (hpipes : b.pipes = a.pipes)
    (hruns : ∀ r ∈ b.runs, ∀ p, r.copier.source = some p →
      p = a.stdin ∨ ∃ r₀ ∈ a.runs, r₀.copier.source = some p) : Moves a b where
  stdin := by rw [hsame, hpipes, hstdin]
  length := by rw [hpipes]
  pipes p pipe' h := .inr ⟨pipe', hpipes ▸ h, rfl, id⟩
  abandoned p _ hne hsources := by
    refine ⟨hsame ▸ hne, fun r hr hsource => ?_, by rw [hpipes]⟩
    obtain rfl | ⟨r₀, hr₀, hsource₀⟩ := hruns r hr p hsource
    · exact hne rfl
    · exact hsources r₀ hr₀ hsource₀

theorem mem_closeStdin {r : Run} (hr : r ∈ a.closeStdin.runs) :
    ∃ r₀ ∈ a.runs, r₀.copier = r.copier := by
  obtain ⟨m, hm⟩ := List.getElem?_of_mem hr
  rw [Stdin.Container.closeStdin, List.getElem?_modify] at hm
  obtain ⟨r₀, hr₀, heq⟩ := Option.map_eq_some_iff.mp hm
  refine ⟨r₀, List.mem_of_getElem? hr₀, ?_⟩
  split at heq <;> cases heq <;> rfl

theorem copyStep {r : Run} (hstdin : a.stdin + 1 = a.pipes.length) (hr : a.runs[k]? = some r)
    (hstep : a.copyStep k n r = some b) : Moves a b := by
  -- the run is replaced, and keeps its pipe
  have hset : ∀ r' : Run, ∀ q ∈ a.runs.set k r', ∀ p, q.copier.source = some p →
      (r'.copier.source = some p → p = a.stdin ∨ r.copier.source = some p) →
      p = a.stdin ∨ ∃ r₀ ∈ a.runs, r₀.copier.source = some p := by
    intro r' q hq p hsource hkeeps
    rcases List.mem_or_eq_of_mem_set hq with hq | rfl
    · exact .inr ⟨q, hq, hsource⟩
    · obtain hcurrent | hold := hkeeps hsource
      · exact .inl hcurrent
      · exact .inr ⟨r, List.mem_of_getElem? hr, hold⟩
  unfold Stdin.Container.copyStep at hstep
  split at hstep
  · cases hstep
    refine of_runs hstdin rfl rfl fun q hq p hsource => hset _ q hq p hsource fun h => .inl ?_
    exact (Option.some.inj h).symm
  · next q hcopier =>
    have hsource : r.copier.source = some q := by rw [hcopier, Copier.source]
    split at hstep
    · cases hstep
    · next pipe hpipe =>
      split at hstep
      · cases hstep
      · split at hstep
        · next chunk pipe' htake =>
          cases hstep
          obtain ⟨rfl, rfl⟩ := Pipe.take_eq_some htake
          refine ⟨by simp [hstdin], by simp, fun p pipe' hp => .inr ?_,
            fun p hlt hne hsources => ?_⟩
          · obtain ⟨rfl, rfl⟩ | ⟨-, hold⟩ := List.getElem?_set_cases hp
            · refine ⟨pipe, hpipe, rfl, fun hdata => ?_⟩
              show pipe.data.drop n = []
              rw [hdata, List.drop_nil]
            · exact ⟨pipe', hold, rfl, id⟩
          · have hpq : q ≠ p := by
              rintro rfl
              exact hsources r (List.mem_of_getElem? hr) hsource
            refine ⟨hne, fun r' hr' hs' => ?_, List.getElem?_set_ne hpq⟩
            obtain rfl | ⟨r₀, hr₀, hs₀⟩ := hset _ r' hr' p hs' fun h => .inr (hsource.trans h)
            · exact hne rfl
            · exact hsources r₀ hr₀ hs₀
        · split at hstep
          · cases hstep
            exact of_runs hstdin rfl rfl fun q' hq p hs =>
              hset _ q' hq p hs fun h => absurd h.symm (Option.some_ne_none p)
          · cases hstep
  · next q chunk hcopier =>
    have hsource : r.copier.source = some q := by rw [hcopier, Copier.source]
    split at hstep
    · cases hstep
      exact of_runs hstdin rfl rfl fun q' hq p hs =>
        hset _ q' hq p hs fun h => .inr (hsource.trans h)
    · cases hstep
      exact of_runs hstdin rfl rfl fun q' hq p hs =>
        hset _ q' hq p hs fun h => absurd h.symm (Option.some_ne_none p)
  · cases hstep

/-- The steps that are not `write` and `close`. -/
theorem of_step {op : Stdin.Op} (hop : ∀ p b, op ≠ .write p b ∧ op ≠ .close p)
    (hstdin : a.stdin + 1 = a.pipes.length) (hstep : a.step op = some b) : Moves a b := by
  have hold : ∀ r ∈ a.runs, ∀ p, r.copier.source = some p →
      p = a.stdin ∨ ∃ r₀ ∈ a.runs, r₀.copier.source = some p :=
    fun r hr p hsource => .inr ⟨r, hr, hsource⟩
  have hclosed : ∀ r ∈ a.closeStdin.runs, ∀ p, r.copier.source = some p →
      p = a.stdin ∨ ∃ r₀ ∈ a.runs, r₀.copier.source = some p := by
    intro r hr p hsource
    obtain ⟨r₀, hr₀, hsame⟩ := mem_closeStdin hr
    exact .inr ⟨r₀, hr₀, hsame ▸ hsource⟩
  cases op with
  | start =>
    simp only [Stdin.Container.step] at hstep
    split at hstep <;> cases hstep
    refine of_runs hstdin rfl rfl fun r hr p hsource => ?_
    rcases List.mem_append.mp hr with hr | hr
    · exact hold r hr p hsource
    · rw [List.mem_singleton.mp hr] at hsource
      cases hsource
  | cmdStart ok =>
    simp only [Stdin.Container.step] at hstep
    split at hstep
    · split at hstep <;> cases hstep
      · exact of_runs hstdin rfl rfl hold
      · exact of_runs hstdin rfl rfl hclosed
    · cases hstep
  | exit =>
    simp only [Stdin.Container.step] at hstep
    split at hstep <;> cases hstep
    exact of_runs hstdin rfl rfl hclosed
  | monitor =>
    simp only [Stdin.Container.step] at hstep
    split at hstep <;> cases hstep
    · refine ⟨by simp, by simp, fun p pipe' hp => ?_, fun p hlt _ hsources => ?_⟩
      · obtain hp | ⟨-, rfl⟩ := List.getElem?_concat_cases hp
        · exact .inr ⟨pipe', hp, rfl, id⟩
        · exact .inl rfl
      · exact ⟨(Nat.ne_of_lt hlt).symm, hsources, List.getElem?_append_left hlt⟩
    · exact of_runs hstdin rfl rfl hold
  | copy k n =>
    obtain ⟨r, hr, hstep⟩ := Option.bind_eq_some_iff.mp hstep
    exact copyStep hstdin hr hstep
  | write p b => exact absurd rfl (hop p b).1
  | close p => exact absurd rfl (hop p []).2

end Moves

/-! ## What always holds -/

/-- A call does not attach to stdin a second time. -/
def Call.Once (c : Call) : Prop := c.todo.count .stdin + c.input.toList.length ≤ 1

structure Attached.Inv (s : Attached) : Prop where
  stdin : s.container.stdin + 1 = s.container.pipes.length
  pipe : ∀ i ∈ s.inputs, i.pipe < s.container.pipes.length
  chunk : ∀ i ∈ s.inputs, i.pump ≠ .offering []
  /-- What is in a pipe is part of a `Write`. -/
  held : ∀ p pipe, s.container.pipes[p]? = some pipe → pipe.data ≠ [] → s.unlocked p = false
  readers : ∀ pipe ∈ s.container.pipes, pipe.readerClosed = false
  input : ∀ c ∈ s.calls, ∀ j ∈ c.input, j < s.inputs.length
  once : ∀ c ∈ s.calls, c.Once

theorem unlocked_eq_false :
    s.unlocked p = false ↔ ∃ i ∈ s.inputs, i.pipe = p ∧ i.pump = .writing := by
  simp [Attached.unlocked]

namespace Attached.Inv

theorem new : Attached.new.Inv where
  stdin := rfl
  pipe i hi := absurd hi List.not_mem_nil
  chunk i hi := absurd hi List.not_mem_nil
  held p pipe hp hdata := by
    rw [List.mem_singleton.mp (List.mem_of_getElem? hp)] at hdata
    exact absurd rfl hdata
  readers pipe hpipe := by
    rw [List.mem_singleton.mp hpipe]
    rfl
  input c hc := absurd hc List.not_mem_nil
  once c hc := absurd hc List.not_mem_nil

/-- The container has moved. -/
theorem container (hs : s.Inv) (hm : Moves s.container s'.container)
    (hinputs : s'.inputs = s.inputs)
    (hcalls : ∀ c' ∈ s'.calls, ∃ c ∈ s.calls, c'.todo = c.todo ∧ c'.input = c.input) : s'.Inv where
  stdin := hm.stdin
  pipe i hi := Nat.lt_of_lt_of_le (hs.pipe i (hinputs ▸ hi)) hm.length
  chunk := hinputs ▸ hs.chunk
  held p pipe' hp' hdata := by
    have hsame : s'.unlocked p = s.unlocked p := by rw [unlocked, unlocked, hinputs]
    rw [hsame]
    obtain rfl | ⟨pipe, hp, -, hempty⟩ := hm.pipes p pipe' hp'
    · exact absurd rfl hdata
    · exact hs.held p pipe hp fun h => hdata (hempty h)
  readers pipe' hpipe' := by
    obtain ⟨p, hp⟩ := List.getElem?_of_mem hpipe'
    obtain rfl | ⟨pipe, hpipe, hreader, -⟩ := hm.pipes p pipe' hp
    · rfl
    · rw [hreader]
      exact hs.readers pipe (List.mem_of_getElem? hpipe)
  input c' hc' j hj := by
    obtain ⟨c, hc, -, hinput⟩ := hcalls c' hc'
    rw [hinputs]
    exact hs.input c hc j (hinput ▸ hj)
  once c' hc' := by
    obtain ⟨c, hc, htodo, hinput⟩ := hcalls c' hc'
    rw [Call.Once, htodo, hinput]
    exact hs.once c hc

/-- An input and its pipe have changed. -/
theorem replace (hs : s.Inv) (hi : s.inputs[j]? = some i)
    (hp : s.container.pipes[i.pipe]? = some pipe) (hsame : i'.pipe = i.pipe)
    (hchunk : i'.pump ≠ .offering []) (hreader : pipe'.readerClosed = pipe.readerClosed)
    (hheld : pipe'.data ≠ [] → i'.pump = .writing ∨ pipe.data ≠ [] ∧ i.pump ≠ .writing) :
    ((s.setInput j i').setPipe i.pipe pipe').Inv where
  stdin := by
    show s.container.stdin + 1 = (s.container.pipes.set i.pipe pipe').length
    rw [List.length_set, hs.stdin]
  pipe q hq := by
    show q.pipe < (s.container.pipes.set i.pipe pipe').length
    rw [List.length_set]
    rcases List.mem_or_eq_of_mem_set hq with hq | rfl
    · exact hs.pipe q hq
    · rw [hsame]
      exact hs.pipe i (List.mem_of_getElem? hi)
  chunk q hq := by
    rcases List.mem_or_eq_of_mem_set hq with hq | rfl
    · exact hs.chunk q hq
    · exact hchunk
  held p q hq hdata := by
    have hlt := (List.getElem?_eq_some_iff.mp hi).1
    rw [unlocked_eq_false]
    -- another writer is still there
    have hkeeps : ∀ i₀ ∈ s.inputs, i₀.pipe = p → i₀.pump = .writing → i₀ ≠ i →
        ∃ i₁ ∈ s.inputs.set j i', i₁.pipe = p ∧ i₁.pump = .writing := by
      intro i₀ hi₀ hpipe hpump hne
      obtain ⟨m, hm⟩ := List.getElem?_of_mem hi₀
      have hjm : j ≠ m := by
        rintro rfl
        rw [hi] at hm
        exact hne (Option.some.inj hm).symm
      exact ⟨i₀, List.mem_of_getElem? ((List.getElem?_set_ne hjm).trans hm), hpipe, hpump⟩
    have hnew : i' ∈ s.inputs.set j i' := List.mem_of_getElem? (List.getElem?_set_self hlt)
    obtain ⟨rfl, rfl⟩ | ⟨hne, hold⟩ := List.getElem?_set_cases hq
    · obtain hwriting | ⟨hbefore, hnot⟩ := hheld hdata
      · exact ⟨i', hnew, hsame, hwriting⟩
      · obtain ⟨i₀, hi₀, hpipe, hpump⟩ := unlocked_eq_false.mp (hs.held _ pipe hp hbefore)
        exact hkeeps i₀ hi₀ hpipe hpump fun h => hnot (h ▸ hpump)
    · obtain ⟨i₀, hi₀, hpipe, hpump⟩ := unlocked_eq_false.mp (hs.held p q hold hdata)
      exact hkeeps i₀ hi₀ hpipe hpump fun h => hne (hpipe.symm.trans (congrArg Input.pipe h))
  readers q hq := by
    rcases List.mem_or_eq_of_mem_set hq with hq | rfl
    · exact hs.readers q hq
    · rw [hreader]
      exact hs.readers pipe (List.mem_of_getElem? hp)
  input c hc j' hj' := by
    show j' < (s.inputs.set j i').length
    rw [List.length_set]
    exact hs.input c hc j' hj'
  once := hs.once

theorem setPipe_self (hp : s.container.pipes[p]? = some pipe) : s.setPipe p pipe = s := by
  obtain ⟨hlt, rfl⟩ := List.getElem?_eq_some_iff.mp hp
  rw [setPipe, List.set_getElem_self]
  rfl

/-- A client has sent something, or its end. -/
theorem setInput (hs : s.Inv) (hi : s.inputs[j]? = some i) (hsame : i'.pipe = i.pipe)
    (hpump : i'.pump = i.pump) : (s.setInput j i').Inv := by
  have hlt := hs.pipe i (List.mem_of_getElem? hi)
  have hp := List.getElem?_eq_getElem hlt
  have hs' := hs.replace hi hp hsame (hpump ▸ hs.chunk i (List.mem_of_getElem? hi)) rfl
    fun hdata => by
      by_cases hwriting : i.pump = .writing
      · exact .inl (hpump.trans hwriting)
      · exact .inr ⟨hdata, hwriting⟩
  have hp' : (s.setInput j i').container.pipes[i.pipe]? = some s.container.pipes[i.pipe] := hp
  rwa [setPipe_self hp'] at hs'

theorem pump (hs : s.Inv) (hi : s.inputs[j]? = some i)
    (hp : s.container.pipes[i.pipe]? = some pipe) {next : Input × Pipe}
    (hnext : Pumps i pipe (s.unlocked i.pipe) next) :
    ((s.setInput j next.1).setPipe i.pipe next.2).Inv := by
  have hmem := List.mem_of_getElem? hi
  have hended : ∀ q : Pipe, (i.ended q).2.readerClosed = q.readerClosed ∧
      (i.ended q).2.data = q.data := by
    intro q
    rw [Input.ended]
    split <;> exact ⟨rfl, rfl⟩
  have hdone : ∀ q : Pipe, (i.ended q).1.pump ≠ .offering [] := fun q h => Pump.noConfusion h
  cases hnext with
  | @read n hpump hunread hn =>
    refine hs.replace hi hp rfl (fun h => ?_) rfl fun hdata => .inr ⟨hdata, fun h => ?_⟩
    · rw [Pump.offering.injEq, List.take_eq_nil_iff] at h
      exact h.elim hn hunread
    · rw [hpump] at h
      cases h
  | eof hpump hunread hhungUp =>
    refine hs.replace hi hp rfl (hdone pipe) (hended pipe).1 fun hdata => .inr ⟨?_, fun h => ?_⟩
    · rwa [(hended pipe).2] at hdata
    · rw [hpump] at h
      cases h
  | refused hpump hclosed =>
    refine hs.replace hi hp rfl (hdone pipe) (hended pipe).1 fun hdata => .inr ⟨?_, fun h => ?_⟩
    · rwa [(hended pipe).2] at hdata
    · rw [hpump] at h
      cases h
  | offered hpump hopen hunlocked =>
    exact hs.replace hi hp rfl (fun h => Pump.noConfusion h) rfl fun _ => .inl rfl
  | written hpump hdata =>
    exact hs.replace hi hp rfl (fun h => Pump.noConfusion h) rfl fun h => absurd hdata h
  | aborted hpump hdata hclosed =>
    refine hs.replace hi hp rfl (hdone _) (hended _).1 fun h => ?_
    rw [(hended _).2] at h
    exact absurd rfl h

/-- A call was changed. -/
theorem setCall (hs : s.Inv) {c' : Call} (hinput : ∀ j ∈ c'.input, j < s.inputs.length)
    (honce : c'.Once) : (s.setCall k c').Inv :=
  { hs with
    input := by
      intro c hc j hj
      rcases List.mem_or_eq_of_mem_set hc with hc | rfl
      · exact hs.input c hc j hj
      · exact hinput j hj
    once := by
      intro c hc
      rcases List.mem_or_eq_of_mem_set hc with hc | rfl
      · exact hs.once c hc
      · exact honce }

/-- Somebody gets the pipe of the container. -/
theorem addInput (hs : s.Inv) (closes : Bool) : (s.addInput closes).Inv where
  stdin := hs.stdin
  pipe i hi := by
    rcases List.mem_append.mp hi with hi | hi
    · exact hs.pipe i hi
    · rw [List.mem_singleton.mp hi]
      exact Nat.lt_of_succ_le (Nat.le_of_eq hs.stdin)
  chunk i hi := by
    rcases List.mem_append.mp hi with hi | hi
    · exact hs.chunk i hi
    · rw [List.mem_singleton.mp hi]
      exact Pump.noConfusion
  held p pipe hp hdata := by
    obtain ⟨i, hi, hpipe, hpump⟩ := unlocked_eq_false.mp (hs.held p pipe hp hdata)
    exact unlocked_eq_false.mpr ⟨i, List.mem_append_left _ hi, hpipe, hpump⟩
  readers := hs.readers
  input c hc j hj := by
    show j < (s.inputs ++ [_]).length
    rw [List.length_append]
    exact Nat.lt_add_right 1 (hs.input c hc j hj)
  once := hs.once

end Attached.Inv

/-! ## The outputs -/

namespace Output

variable {o o' : Output} {running : Bool} {op : OutputOp}

/-- A step of an output is one of its `bufReader`. -/
theorem becomes_of_step (h : o.step running op = some o') :
    o.Becomes o' ∧ o'.closed = o.closed := by
  cases op with
  | pipe b =>
    simp only [Output.step] at h
    split at h
    · obtain ⟨reader, hreader, rfl⟩ := Option.map_eq_some_iff.mp h
      exact ⟨.inr ⟨.ended (), .source, hreader⟩, rfl⟩
    · split at h
      · obtain ⟨reader, hreader, rfl⟩ := Option.map_eq_some_iff.mp h
        exact ⟨.inr ⟨.having b, .source, hreader⟩, rfl⟩
      · cases h
  | drain =>
    obtain ⟨reader, hreader, rfl⟩ := Option.map_eq_some_iff.mp h
    exact ⟨.inr ⟨.ended (), .drain, hreader⟩, rfl⟩
  | copy =>
    simp only [Output.step] at h
    split at h
    · cases h
    · obtain ⟨reader, hreader, rfl⟩ := Option.map_eq_some_iff.mp h
      exact ⟨.inr ⟨.ended (), .read _, hreader⟩, rfl⟩

theorem close_reader (stream : Stream) (o : Output) : (o.close stream).reader = o.reader := by
  unfold Output.close
  split <;> rfl

theorem done_iff (o : Output) : o.done = true ↔ ∃ err, o.reader.client = .ended err := by
  unfold Output.done
  split
  · next err herr => exact ⟨fun _ => ⟨err, herr⟩, fun _ => rfl⟩
  · next hnot =>
    constructor
    · exact fun h => absurd h Bool.false_ne_true
    · rintro ⟨err, herr⟩
      exact absurd herr (hnot err)

end Output

namespace Follows

theorem refl (os : List Output) : Follows os os :=
  ⟨fun o ho => .inr ⟨o, ho, .inl rfl⟩, fun o ho => ⟨o, ho, .inl rfl⟩⟩

theorem map {f : Output → Output} (hf : ∀ o, (f o).reader = o.reader) (os : List Output) :
    Follows os (os.map f) where
  from_old o' ho' := by
    obtain ⟨o, ho, rfl⟩ := List.mem_map.mp ho'
    exact .inr ⟨o, ho, .inl (hf o)⟩
  kept o ho := ⟨f o, List.mem_map_of_mem ho, .inl (hf o)⟩

theorem concat (os : List Output) {o' : Output} (hnew : o'.reader = .new) :
    Follows os (os ++ [o']) where
  from_old o ho := by
    rcases List.mem_append.mp ho with ho | ho
    · exact .inr ⟨o, ho, .inl rfl⟩
    · rw [List.mem_singleton.mp ho]
      exact .inl hnew
  kept o ho := ⟨o, List.mem_append_left _ ho, .inl rfl⟩

theorem set {os : List Output} {m : Nat} {o o' : Output} (hm : os[m]? = some o)
    (hbecomes : o.Becomes o') : Follows os (os.set m o') where
  from_old o₁ ho₁ := by
    rcases List.mem_or_eq_of_mem_set ho₁ with ho₁ | rfl
    · exact .inr ⟨o₁, ho₁, .inl rfl⟩
    · exact .inr ⟨o, List.mem_of_getElem? hm, hbecomes⟩
  kept o₁ ho₁ := by
    have hlt := (List.getElem?_eq_some_iff.mp hm).1
    obtain ⟨m₁, hm₁⟩ := List.getElem?_of_mem ho₁
    by_cases hsame : m = m₁
    · subst hsame
      cases hm.symm.trans hm₁
      exact ⟨o', List.mem_of_getElem? (List.getElem?_set_self hlt), hbecomes⟩
    · exact ⟨o₁, List.mem_of_getElem? ((List.getElem?_set_ne hsame).trans hm₁), .inl rfl⟩

end Follows

/-! ## What a step can do -/

inductive Steps (s : Attached) : Attached → Prop
  | moves {s' : Attached} {f : Output → Output} (hm : Moves s.container s'.container)
    (hinputs : s'.inputs = s.inputs)
    (hcalls : s'.calls = s.calls.map fun c => { c with outputs := c.outputs.map f })
    (hf : ∀ o, (f o).reader = o.reader) : Steps s s'
  | gets (closes : Bool) : Steps s (s.addInput closes)
  | attaches {args : List GoString} {parts : List Part} (hparts : attachParts args = some parts) :
    Steps s { s with calls := s.calls ++ [⟨parts, none, []⟩] }
  | hears {j : Nat} {i i' : Input} (hi : s.inputs[j]? = some i) (hpipe : i'.pipe = i.pipe)
    (hcloses : i'.closes = i.closes) (hpump : i'.pump = i.pump)
    (hunread : i.unread <+: i'.unread) : Steps s (s.setInput j i')
  | pumps {j : Nat} {i : Input} {pipe : Pipe} {next : Input × Pipe} (hi : s.inputs[j]? = some i)
    (hp : s.container.pipes[i.pipe]? = some pipe)
    (hnext : Pumps i pipe (s.unlocked i.pipe) next) :
    Steps s ((s.setInput j next.1).setPipe i.pipe next.2)
  | stdin {k : Nat} {c : Call} {todo : List Part} (hc : s.calls[k]? = some c)
    (htodo : c.todo = .stdin :: todo) :
    Steps s ((s.addInput false).setCall k { c with
      todo
      input := some s.inputs.length })
  | call {k : Nat} {c c' : Call} (hc : s.calls[k]? = some c) (htodo : c'.todo <:+ c.todo)
    (hinput : c'.input = c.input) (houtputs : Follows c.outputs c'.outputs) :
    Steps s (s.setCall k c')

theorem map_outputs (calls : List Call) :
    calls = calls.map fun c => { c with outputs := c.outputs.map id } := by
  simp only [List.map_id]
  exact (List.map_id calls).symm

theorem Steps.of_step {op : Op} (hs : s.Inv) (h : s.step op = some s') : Steps s s' := by
  have hkeep := map_outputs s.calls
  have hmoves : ∀ {op : Stdin.Op}, (∀ p b, op ≠ .write p b ∧ op ≠ .close p) →
      (s.container.step op).map s.setContainer = some s' → Steps s s' := by
    intro op hop h
    obtain ⟨b, hb, rfl⟩ := Option.map_eq_some_iff.mp h
    exact .moves (.of_step hop hs.stdin hb) rfl hkeep fun _ => rfl
  cases op with
  | start => exact hmoves (fun _ _ => ⟨Stdin.Op.noConfusion, Stdin.Op.noConfusion⟩) h
  | cmdStart ok => exact hmoves (fun _ _ => ⟨Stdin.Op.noConfusion, Stdin.Op.noConfusion⟩) h
  | exit =>
    obtain ⟨b, hb, rfl⟩ := Option.map_eq_some_iff.mp h
    have hm := Moves.of_step (fun _ _ => ⟨Stdin.Op.noConfusion, Stdin.Op.noConfusion⟩) hs.stdin hb
    exact .moves hm rfl hkeep fun _ => rfl
  | closeStream =>
    simp only [Attached.step] at h
    split at h <;> cases h
    next stream toClose hclose =>
    refine .moves ?_ rfl rfl (Output.close_reader stream)
    exact .of_runs hs.stdin rfl rfl fun r hr p hsource => .inr ⟨r, hr, hsource⟩
  | monitor =>
    simp only [Attached.step] at h
    split at h
    · exact hmoves (fun _ _ => ⟨Stdin.Op.noConfusion, Stdin.Op.noConfusion⟩) h
    · cases h
  | copy k n => exact hmoves (fun _ _ => ⟨Stdin.Op.noConfusion, Stdin.Op.noConfusion⟩) h
  | run =>
    cases h
    exact .gets true
  | attach args =>
    obtain ⟨parts, hparts, rfl⟩ := Option.map_eq_some_iff.mp h
    exact .attaches hparts
  | next k =>
    obtain ⟨c, hc, h⟩ := Option.bind_eq_some_iff.mp h
    unfold Attached.nextStep at h
    split at h
    · cases h
    · next todo htodo =>
      cases h
      exact .stdin hc htodo
    · next stream todo htodo =>
      cases h
      exact .call hc (htodo ▸ List.suffix_cons _ _) rfl (.concat c.outputs rfl)
  | send j b =>
    obtain ⟨i, hi, h⟩ := Option.bind_eq_some_iff.mp h
    split at h <;> cases h
    exact .hears hi rfl rfl rfl (List.prefix_append _ _)
  | hangUp j =>
    obtain ⟨i, hi, rfl⟩ := Option.map_eq_some_iff.mp h
    exact .hears hi rfl rfl rfl List.prefix_rfl
  | pump j n =>
    obtain ⟨i, hi, h⟩ := Option.bind_eq_some_iff.mp h
    obtain ⟨pipe, hp, h⟩ := Option.bind_eq_some_iff.mp h
    obtain ⟨next, hnext, rfl⟩ := Option.map_eq_some_iff.mp h
    exact .pumps hi hp (Input.step_eq_some hnext)
  | output k m op =>
    obtain ⟨c, hc, h⟩ := Option.bind_eq_some_iff.mp h
    obtain ⟨o, ho, h⟩ := Option.bind_eq_some_iff.mp h
    obtain ⟨o', ho', rfl⟩ := Option.map_eq_some_iff.mp h
    exact .call hc List.suffix_rfl rfl (.set ho (Output.becomes_of_step ho').1)

theorem attachParts_count {args : List GoString} {parts : List Part}
    (h : attachParts args = some parts) : parts.count .stdin ≤ 1 := by
  unfold attachParts at h
  split at h
  · cases h
  · split at h
    · cases h
      split <;> split <;> split <;> decide
    · cases h

theorem Attached.Inv.step {op : Op} (hs : s.Inv) (h : s.step op = some s') : s'.Inv := by
  cases Steps.of_step hs h with
  | moves hm hinputs hcalls hf =>
    refine hs.container hm hinputs fun c' hc' => ?_
    rw [hcalls] at hc'
    obtain ⟨c, hc, rfl⟩ := List.mem_map.mp hc'
    exact ⟨c, hc, rfl, rfl⟩
  | gets closes => exact hs.addInput closes
  | attaches hparts =>
    refine { hs with input := fun c hc => ?_, once := fun c hc => ?_ }
    · rcases List.mem_append.mp hc with hc | hc
      · exact hs.input c hc
      · rw [List.mem_singleton.mp hc]
        exact fun j hj => absurd hj.symm (Option.some_ne_none j)
    · rcases List.mem_append.mp hc with hc | hc
      · exact hs.once c hc
      · rw [List.mem_singleton.mp hc]
        exact attachParts_count hparts
  | hears hi hpipe hcloses hpump hunread => exact hs.setInput hi hpipe hpump
  | pumps hi hp hnext => exact hs.pump hi hp hnext
  | @stdin k c todo hc htodo =>
    have honce := hs.once c (List.mem_of_getElem? hc)
    rw [Call.Once, htodo, List.count_cons_self] at honce
    refine (hs.addInput false).setCall (fun j hj => ?_) ?_
    · cases hj
      show s.inputs.length < (s.inputs ++ [_]).length
      rw [List.length_append]
      exact Nat.lt_succ_self _
    · show todo.count .stdin + 1 ≤ 1
      omega
  | @call k c c' hc htodo hinput houtputs =>
    have hmem := List.mem_of_getElem? hc
    refine hs.setCall (hinput ▸ hs.input c hmem) ?_
    have honce := hs.once c hmem
    have hcount := htodo.sublist.count_le Part.stdin
    rw [Call.Once] at honce ⊢
    rw [hinput]
    omega

theorem Attached.Inv.of_reachable (h : attachSystem.Reachable s) : s.Inv :=
  h.invariant (fun _ hnew => hnew ▸ .new) fun _ _ _ hs _ hstep => hs.step hstep

/-! ## What the outputs keep -/

/-- The readers of all outputs are in order. -/
def Attached.Heard (s : Attached) : Prop := ∀ c ∈ s.calls, ∀ o ∈ c.outputs, o.reader.Sound

theorem Output.Becomes.sound {o o' : Output} (h : o.Becomes o') (ho : o.reader.Sound) :
    o'.reader.Sound := by
  rcases h with heq | ⟨source, op, hstep⟩
  · rw [heq]
    exact ho
  · exact ho.step hstep

theorem Output.Becomes.overslept {o o' : Output} (h : o.Becomes o') (ho : o.reader.Sound)
    (hover : o.reader.Overslept) : o'.reader.Overslept := by
  rcases h with heq | ⟨source, op, hstep⟩
  · rw [heq]
    exact hover
  · exact hover.step ho.toInv hstep

theorem Follows.sound {os os' : List Output} (h : Follows os os')
    (hos : ∀ o ∈ os, o.reader.Sound) : ∀ o ∈ os', o.reader.Sound := by
  intro o' ho'
  rcases h.from_old o' ho' with hnew | ⟨o, ho, hbecomes⟩
  · rw [hnew]
    exact .new
  · exact hbecomes.sound (hos o ho)

/-- What becomes of a call. -/
theorem Steps.call_follows (hsteps : Steps s s') (hc : s.calls[k]? = some c) :
    ∃ c', s'.calls[k]? = some c' ∧ Follows c.outputs c'.outputs := by
  have hset : ∀ {k₀ : Nat} {c₀ c₁ : Call}, s.calls[k₀]? = some c₀ →
      Follows c₀.outputs c₁.outputs →
      ∃ c', (s.calls.set k₀ c₁)[k]? = some c' ∧ Follows c.outputs c'.outputs := by
    intro k₀ c₀ c₁ hc₀ houtputs
    by_cases hk : k₀ = k
    · subst hk
      cases hc.symm.trans hc₀
      exact ⟨c₁, List.getElem?_set_self (List.getElem?_eq_some_iff.mp hc).1, houtputs⟩
    · exact ⟨c, (List.getElem?_set_ne hk).trans hc, .refl _⟩
  cases hsteps with
  | @moves s' f hm hinputs hcalls hf =>
    refine ⟨{ c with outputs := c.outputs.map f }, ?_, .map hf c.outputs⟩
    rw [hcalls, List.getElem?_map, hc]
    rfl
  | gets closes => exact ⟨c, hc, .refl _⟩
  | attaches hparts => exact ⟨c, List.getElem?_concat_of_some hc, .refl _⟩
  | hears hi hpipe hcloses hpump hunread => exact ⟨c, hc, .refl _⟩
  | pumps hi hp hnext => exact ⟨c, hc, .refl _⟩
  | @stdin k₀ c₀ todo hc₀ htodo =>
    have hsame : Follows c₀.outputs c₀.outputs := .refl _
    exact hset hc₀ hsame
  | call hc₀ htodo hinput houtputs => exact hset hc₀ houtputs

/-- A call that was not there has no outputs. -/
theorem Steps.call_new {c' : Call} (hsteps : Steps s s') (hnone : s.calls[k]? = none)
    (hc' : s'.calls[k]? = some c') : c'.outputs = [] := by
  have hset : ∀ {k₀ : Nat} {c₀ : Call}, (s.calls.set k₀ c₀)[k]? = none := by
    intro k₀ c₀
    rw [List.getElem?_eq_none_iff, List.length_set]
    exact List.getElem?_eq_none_iff.mp hnone
  cases hsteps with
  | moves hm hinputs hcalls hf =>
    rw [hcalls, List.getElem?_map, hnone] at hc'
    cases hc'
  | attaches hparts =>
    rcases List.getElem?_concat_cases hc' with hold | ⟨-, rfl⟩
    · cases hnone.symm.trans hold
    · rfl
  | gets closes => cases hnone.symm.trans hc'
  | hears hi hpipe hcloses hpump hunread => cases hnone.symm.trans hc'
  | pumps hi hp hnext => cases hnone.symm.trans hc'
  | stdin hc htodo => cases hset.symm.trans hc'
  | call hc htodo hinput houtputs => cases hset.symm.trans hc'

theorem Attached.Heard.step {op : Op} (hs : s.Inv) (hheard : s.Heard)
    (h : s.step op = some s') : s'.Heard := by
  intro c' hc'
  obtain ⟨k, hk⟩ := List.getElem?_of_mem hc'
  have hsteps := Steps.of_step hs h
  cases hcall : s.calls[k]? with
  | some c =>
    obtain ⟨c'', hc'', hfollows⟩ := hsteps.call_follows hcall
    cases hk.symm.trans hc''
    exact hfollows.sound (hheard c (List.mem_of_getElem? hcall))
  | none =>
    rw [hsteps.call_new hcall hk]
    exact fun o ho => absurd ho List.not_mem_nil

theorem Attached.Heard.of_reachable (h : attachSystem.Reachable s) : s.Heard := by
  have hboth : s.Inv ∧ s.Heard := by
    refine h.invariant (P := fun s => s.Inv ∧ s.Heard) ?_ ?_
    · rintro _ rfl
      exact ⟨.new, fun c hc => absurd hc List.not_mem_nil⟩
    · intro s e s' hs _ hstep
      exact ⟨hs.1.step hstep, hs.2.step hs.1 hstep⟩
  exact hboth.2

/-! ## What is stuck stays so -/

/-- Nobody reads the pipe of input `j`, which has something left for it, as have all inputs that
    would close the pipe. -/
structure Jammed (j p : Nat) (s : Attached) : Prop where
  abandoned : s.Abandoned p
  input : ∃ i, s.inputs[j]? = some i ∧ i.pipe = p ∧ i.pump ≠ .done
  pipe : ∃ pipe, s.container.pipes[p]? = some pipe ∧ pipe.writerClosed = false ∧
    ∀ (j' : Nat) i', s.inputs[j']? = some i' → i'.pipe = p → (j' = j ∨ i'.closes = true) →
      ¬i'.AtEase pipe

namespace Jammed

/-- The inputs are the same, or one more has got the pipe of the container. -/
theorem grow (h : Jammed j p s) {new : List Input} (hinputs : s'.inputs = s.inputs ++ new)
    (hnew : ∀ i ∈ new, i.pipe = s.container.stdin) (habandoned : s'.Abandoned p)
    (hpipe : s'.container.pipes[p]? = s.container.pipes[p]?) : Jammed j p s' := by
  obtain ⟨i, hi, hip, hdone⟩ := h.input
  obtain ⟨pipe, hp, hclosed, hstuck⟩ := h.pipe
  refine ⟨habandoned, ⟨i, ?_, hip, hdone⟩, pipe, hpipe.trans hp, hclosed, fun j' i' hi' hip' => ?_⟩
  · rw [hinputs, List.getElem?_append_left (List.getElem?_eq_some_iff.mp hi).1]
    exact hi
  · rw [hinputs] at hi'
    by_cases hlt : j' < s.inputs.length
    · rw [List.getElem?_append_left hlt] at hi'
      exact hstuck j' i' hi' hip'
    · rw [List.getElem?_append_right (Nat.le_of_not_lt hlt)] at hi'
      exact absurd ((hnew i' (List.mem_of_getElem? hi')).symm.trans hip') h.abandoned.1

/-- An input has changed, and its pipe. -/
theorem replace (h : Jammed j p s) {j₀ : Nat} (hi : s.inputs[j₀]? = some i)
    (hp : s.container.pipes[i.pipe]? = some pipe) (hsame : i'.pipe = i.pipe)
    (hopen : i.pipe = p → pipe'.writerClosed = false)
    (hself : i.pipe = p → (j₀ = j ∨ i'.closes = true) → ¬i'.AtEase pipe')
    (hdone : i.pipe = p → j₀ = j → i.pump ≠ .done → i'.pump ≠ .done)
    (hothers : i.pipe = p → ∀ i₁ ∈ s.inputs, i₁.pipe = p → i₁.AtEase pipe' → i₁.AtEase pipe) :
    Jammed j p ((s.setInput j₀ i').setPipe i.pipe pipe') := by
  have hlt := (List.getElem?_eq_some_iff.mp hi).1
  obtain ⟨i₂, hi₂, hip₂, hdone₂⟩ := h.input
  obtain ⟨pipe₀, hp₀, hclosed, hstuck⟩ := h.pipe
  refine ⟨h.abandoned, ?_, ?_⟩
  · by_cases hj : j₀ = j
    · subst hj
      rw [hi] at hi₂
      cases hi₂
      exact ⟨i', List.getElem?_set_self hlt, hsame.trans hip₂, hdone hip₂ rfl hdone₂⟩
    · exact ⟨i₂, (List.getElem?_set_ne hj).trans hi₂, hip₂, hdone₂⟩
  · by_cases hip : i.pipe = p
    · -- the input is one of those on the pipe
      subst hip
      rw [hp] at hp₀
      cases hp₀
      have hltp := (List.getElem?_eq_some_iff.mp hp).1
      refine ⟨pipe', List.getElem?_set_self hltp, hopen rfl, fun j' i₁ hi₁ hip₁ hwho => ?_⟩
      obtain ⟨rfl, rfl⟩ | ⟨-, hold⟩ := List.getElem?_set_cases hi₁
      · exact hself rfl hwho
      · exact fun hease => hstuck j' i₁ hold hip₁ hwho
          (hothers rfl i₁ (List.mem_of_getElem? hold) hip₁ hease)
    · refine ⟨pipe₀, (List.getElem?_set_ne hip).trans hp₀, hclosed, fun j' i₁ hi₁ hip₁ hwho => ?_⟩
      obtain ⟨rfl, rfl⟩ | ⟨-, hold⟩ := List.getElem?_set_cases hi₁
      · exact absurd (hsame.symm.trans hip₁) hip
      · exact hstuck j' i₁ hold hip₁ hwho

theorem hears (h : Jammed j p s) (hs : s.Inv) {j₀ : Nat} (hi : s.inputs[j₀]? = some i)
    (hpipe : i'.pipe = i.pipe) (hcloses : i'.closes = i.closes) (hpump : i'.pump = i.pump)
    (hunread : i.unread <+: i'.unread) : Jammed j p (s.setInput j₀ i') := by
  have hlt := hs.pipe i (List.mem_of_getElem? hi)
  have hp := List.getElem?_eq_getElem hlt
  obtain ⟨pipe₀, hp₀, hclosed, hstuck⟩ := h.pipe
  have hsame : i.pipe = p → s.container.pipes[i.pipe] = pipe₀ := by
    rintro rfl
    exact Option.some.inj (hp.symm.trans hp₀)
  have h' : Jammed j p ((s.setInput j₀ i').setPipe i.pipe s.container.pipes[i.pipe]) := by
    refine h.replace hi hp hpipe (fun hip => ?_) (fun hip hwho hease => ?_)
      (fun _ _ hdone => hpump ▸ hdone) fun _ _ _ _ hease => hease
    · rw [hsame hip]
      exact hclosed
    · rw [hsame hip] at hease
      apply hstuck j₀ i hi hip (hcloses ▸ hwho)
      exact ⟨List.prefix_nil.mp (hease.1 ▸ hunread), hpump ▸ hease.2⟩
  have hp' : (s.setInput j₀ i').container.pipes[i.pipe]? = some s.container.pipes[i.pipe] := hp
  rwa [Attached.Inv.setPipe_self hp'] at h'

theorem pumps (h : Jammed j p s) (hs : s.Inv) {j₀ : Nat} (hi : s.inputs[j₀]? = some i)
    (hp : s.container.pipes[i.pipe]? = some pipe) {next : Input × Pipe}
    (hnext : Pumps i pipe (s.unlocked i.pipe) next) :
    Jammed j p ((s.setInput j₀ next.1).setPipe i.pipe next.2) := by
  obtain ⟨pipe₀, hp₀, hclosed, hstuck⟩ := h.pipe
  have hsame : i.pipe = p → pipe = pipe₀ := by
    rintro rfl
    exact Option.some.inj (hp.symm.trans hp₀)
  have hself : i.pipe = p → (j₀ = j ∨ i.closes = true) → ¬i.AtEase pipe := by
    intro hip hwho
    rw [hsame hip]
    exact hstuck j₀ i hi hip hwho
  have hopen : i.pipe = p → pipe.writerClosed = false := fun hip => hsame hip ▸ hclosed
  have hisOpen : i.pipe = p → pipe.isOpen = true := fun hip =>
    Pipe.isOpen_iff.mpr ⟨hopen hip, hs.readers pipe (List.mem_of_getElem? hp)⟩
  cases hnext with
  | read hpump hunread hn =>
    refine h.replace hi hp rfl hopen (fun _ _ hease => ?_) (fun _ _ _ => Pump.noConfusion)
      fun _ _ _ _ hease => hease
    obtain ⟨-, hreading | ⟨hwriting, -⟩⟩ := hease
    · cases hreading
    · cases hwriting
  | eof hpump hunread hhungUp =>
    -- nobody that matters comes to its end
    have hnone : i.pipe = p → ¬(j₀ = j ∨ i.closes = true) :=
      fun hip hwho => hself hip hwho ⟨hunread, .inl hpump⟩
    by_cases hip : i.pipe = p
    · have hcloses : (i.ended pipe).2 = pipe :=
        if_neg fun hcloses => hnone hip (.inr hcloses)
      rw [hcloses]
      exact h.replace hi hp rfl hopen (fun hip hwho => absurd hwho (hnone hip))
        (fun hip hj => absurd (.inl hj) (hnone hip)) fun _ _ _ _ hease => hease
    · exact h.replace hi hp rfl (fun h => absurd h hip) (fun h => absurd h hip)
        (fun h => absurd h hip) fun h => absurd h hip
  | refused hpump hrefused =>
    by_cases hip : i.pipe = p
    · rw [hisOpen hip] at hrefused
      cases hrefused
    · exact h.replace hi hp rfl (fun h => absurd h hip) (fun h => absurd h hip)
        (fun h => absurd h hip) fun h => absurd h hip
  | @offered chunk hpump hopen' hunlocked =>
    refine h.replace hi hp rfl hopen (fun _ _ hease => ?_) (fun _ _ _ => Pump.noConfusion)
      fun hip i₁ hi₁ hip₁ hease => ⟨hease.1, ?_⟩
    · obtain ⟨-, hreading | ⟨-, hdata⟩⟩ := hease
      · cases hreading
      · have hdata : chunk = [] := hdata
        exact hs.chunk i (List.mem_of_getElem? hi) (hdata ▸ hpump)
    · -- the pipe is not locked, so nobody else is writing
      obtain hreading | ⟨hwriting, -⟩ := hease.2
      · exact .inl hreading
      · have hlocked := unlocked_eq_false.mpr ⟨i₁, hi₁, hip₁.trans hip.symm, hwriting⟩
        rw [hlocked] at hunlocked
        cases hunlocked
  | written hpump hdata =>
    refine h.replace hi hp rfl hopen (fun hip hwho hease => ?_)
      (fun _ _ _ => Pump.noConfusion) fun _ _ _ _ hease => hease
    exact hself hip hwho ⟨hease.1, .inr ⟨hpump, hdata⟩⟩
  | aborted hpump hdata haborted =>
    by_cases hip : i.pipe = p
    · rw [hisOpen hip] at haborted
      cases haborted
    · exact h.replace hi hp rfl (fun h => absurd h hip) (fun h => absurd h hip)
        (fun h => absurd h hip) fun h => absurd h hip

theorem step {op : Op} (h : Jammed j p s) (hs : s.Inv) (hstep : s.step op = some s') :
    Jammed j p s' := by
  have hlt : p < s.container.pipes.length := by
    obtain ⟨pipe, hp, -⟩ := h.pipe
    exact (List.getElem?_eq_some_iff.mp hp).1
  have hnone : ∀ i ∈ ([] : List Input), i.pipe = s.container.stdin :=
    fun i hi => absurd hi List.not_mem_nil
  have hone : ∀ closes, ∀ i ∈ [(⟨s.container.stdin, closes, .reading, [], false⟩ : Input)],
      i.pipe = s.container.stdin := by
    intro closes i hi
    rw [List.mem_singleton.mp hi]
  cases Steps.of_step hs hstep with
  | moves hm hinputs hcalls hf =>
    obtain ⟨hstdin, hsources, hpipe⟩ := hm.abandoned p hlt h.abandoned.1 h.abandoned.2
    exact h.grow (hinputs.trans (List.append_nil _).symm) hnone ⟨hstdin, hsources⟩ hpipe
  | gets closes => exact h.grow rfl (hone closes) h.abandoned rfl
  | attaches hparts => exact h.grow (List.append_nil _).symm hnone h.abandoned rfl
  | hears hi hpipe hcloses hpump hunread => exact h.hears hs hi hpipe hcloses hpump hunread
  | pumps hi hp hnext => exact h.pumps hs hi hp hnext
  | stdin hc htodo => exact h.grow rfl (hone false) h.abandoned rfl
  | call hc htodo hinput houtputs =>
    exact h.grow (List.append_nil _).symm hnone h.abandoned rfl

end Jammed

/-- A call that has got its input keeps it. -/
theorem input_keeps {op : Op} (hs : s.Inv) (hc : ∃ c, s.calls[k]? = some c ∧ c.input = some j)
    (hstep : s.step op = some s') : ∃ c, s'.calls[k]? = some c ∧ c.input = some j := by
  obtain ⟨c, hc, hj⟩ := hc
  have hset : ∀ {k₀ : Nat} {c' : Call}, (k₀ = k → c'.input = some j) →
      ∃ c, (s.calls.set k₀ c')[k]? = some c ∧ c.input = some j := by
    intro k₀ c' hinput
    by_cases hk : k₀ = k
    · subst hk
      exact ⟨c', List.getElem?_set_self (List.getElem?_eq_some_iff.mp hc).1, hinput rfl⟩
    · exact ⟨c, (List.getElem?_set_ne hk).trans hc, hj⟩
  cases Steps.of_step hs hstep with
  | @moves s' f hm hinputs hcalls hf =>
    refine ⟨{ c with outputs := c.outputs.map f }, ?_, hj⟩
    rw [hcalls, List.getElem?_map, hc]
    rfl
  | gets closes => exact ⟨c, hc, hj⟩
  | attaches hparts => exact ⟨c, List.getElem?_concat_of_some hc, hj⟩
  | hears hi hpipe hcloses hpump hunread => exact ⟨c, hc, hj⟩
  | pumps hi hp hnext => exact ⟨c, hc, hj⟩
  | @stdin k₀ c₀ todo hc₀ htodo =>
    apply hset
    rintro rfl
    -- it would attach to stdin a second time
    have honce := hs.once c₀ (List.mem_of_getElem? hc₀)
    rw [hc] at hc₀
    cases hc₀
    rw [Call.Once, htodo, List.count_cons_self, hj, Option.toList_some,
      List.length_singleton] at honce
    omega
  | @call k₀ c₀ c' hc₀ htodo hinput houtputs =>
    apply hset
    rintro rfl
    rw [hc] at hc₀
    cases hc₀
    exact hinput.trans hj

/-! ## What is not stuck can come to its end -/

/-- On the way from `s₀` nothing has changed but input `j` and its pipe, which are these. -/
structure At (j : Nat) (i : Input) (pipe : Pipe) (s₀ s : Attached) : Prop where
  inv : s.Inv
  calls : s.calls = s₀.calls
  others : ∀ j', j' ≠ j → s.inputs[j']? = s₀.inputs[j']?
  input : s.inputs[j]? = some i
  pipe : s.container.pipes[i.pipe]? = some pipe

namespace At

variable {s₀ : Attached}

theorem here (hs : s.Inv) (hi : s.inputs[j]? = some i)
    (hp : s.container.pipes[i.pipe]? = some pipe) : At j i pipe s s :=
  ⟨hs, rfl, fun _ _ => rfl, hi, hp⟩

theorem hangUp (h : At j i pipe s₀ s) : ∃ s', attachSystem.step s (.hangUp j) = some s' ∧
    At j { i with hungUp := true } pipe s₀ s' := by
  have hlt := (List.getElem?_eq_some_iff.mp h.input).1
  refine ⟨s.setInput j { i with hungUp := true }, ?_, ?_⟩
  · show s.inputs[j]?.map _ = _
    rw [h.input]
    rfl
  refine ⟨h.inv.setInput h.input rfl rfl, h.calls, fun j' hj' => ?_, ?_, h.pipe⟩
  · exact (List.getElem?_set_ne (Ne.symm hj')).trans (h.others j' hj')
  · exact List.getElem?_set_self hlt

theorem pump (h : At j i pipe s₀ s) (n : Nat)
    (hnext : i.step pipe (s.unlocked i.pipe) n = some (i', pipe')) :
    ∃ s', attachSystem.step s (.pump j n) = some s' ∧ At j i' pipe' s₀ s' := by
  have hlt := (List.getElem?_eq_some_iff.mp h.input).1
  have hltp := (List.getElem?_eq_some_iff.mp h.pipe).1
  have hpumps := Input.step_eq_some hnext
  have hsame : i'.pipe = i.pipe := hpumps.same.1
  refine ⟨(s.setInput j i').setPipe i.pipe pipe', ?_, ?_⟩
  · show s.inputs[j]?.bind _ = _
    rw [h.input, Option.bind_some, Attached.pumpStep, h.pipe, Option.bind_some, hnext]
    rfl
  · refine ⟨h.inv.pump h.input h.pipe hpumps, h.calls, fun j' hj' => ?_, ?_, ?_⟩
    · exact (List.getElem?_set_ne (Ne.symm hj')).trans (h.others j' hj')
    · exact List.getElem?_set_self hlt
    · rw [hsame]
      exact List.getElem?_set_self hltp

/-- `io.Copy` returns, and what is behind it is done. -/
theorem ease_ends (h : At j i pipe s₀ s) (hease : i.AtEase pipe) :
    attachSystem.Can (fun s' => ∃ i' pipe', At j i' pipe' s₀ s' ∧ i'.pump = .done ∧
      i'.pipe = i.pipe ∧ (i.closes = true → pipe'.writerClosed = true)) s := by
  obtain ⟨hunread, hpump⟩ := hease
  -- the client ends its side while the goroutine reads
  have hreading : ∀ {s : Attached} {i₁ : Input}, At j i₁ pipe s₀ s → i₁.unread = [] →
      i₁.pump = .reading → attachSystem.Can (fun s' => ∃ i' pipe', At j i' pipe' s₀ s' ∧
        i'.pump = .done ∧ i'.pipe = i₁.pipe ∧
          (i₁.closes = true → pipe'.writerClosed = true)) s := by
    intro s i₁ h hunread hpump
    obtain ⟨s₁, hstep₁, h₁⟩ := h.hangUp
    have hnext : { i₁ with hungUp := true }.step pipe (s₁.unlocked i₁.pipe) 0 =
        some ({ i₁ with hungUp := true }.ended pipe) := by
      rw [Input.step]
      simp only [hpump, hunread, if_true]
    obtain ⟨s₂, hstep₂, h₂⟩ := h₁.pump 0 hnext
    refine .step _ hstep₁ (.step _ hstep₂ (.now ⟨_, _, h₂, rfl, rfl, fun hcloses => ?_⟩))
    show (if i₁.closes then pipe.closeWriter else pipe).writerClosed = true
    rw [if_pos hcloses]
    rfl
  obtain hpump | ⟨hpump, hdata⟩ := hpump
  · exact hreading h hunread hpump
  · have hnext : i.step pipe (s.unlocked i.pipe) 0 = some ({ i with pump := .reading }, pipe) := by
      rw [Input.step]
      simp only [hpump, hdata, if_true]
    obtain ⟨s₁, hstep₁, h₁⟩ := h.pump 0 hnext
    have hrest := hreading h₁ hunread rfl
    exact .step _ hstep₁ hrest

/-- Whatever is left to be written, it is refused. -/
theorem closed_ends (h : At j i pipe s₀ s) (hclosed : pipe.writerClosed = true) :
    attachSystem.Can (fun s' => ∃ i' pipe', At j i' pipe' s₀ s' ∧ i'.pump = .done) s := by
  have hnot : ∀ {q : Pipe}, q.writerClosed = true → q.isOpen = false := by
    intro q hq
    rw [Pipe.isOpen, hq]
    rfl
  have hoffering : ∀ {s : Attached} {i₁ : Input} {chunk : List UInt8}, At j i₁ pipe s₀ s →
      i₁.pump = .offering chunk →
      attachSystem.Can (fun s' => ∃ i' pipe', At j i' pipe' s₀ s' ∧ i'.pump = .done) s := by
    intro s i₁ chunk h hpump
    have hnext : i₁.step pipe (s.unlocked i₁.pipe) 0 = some (i₁.ended pipe) := by
      rw [Input.step]
      simp only [hpump, Pipe.offer, hnot hclosed, Bool.false_eq_true, if_false]
    obtain ⟨s₁, hstep₁, h₁⟩ := h.pump 0 hnext
    exact .step _ hstep₁ (.now ⟨_, _, h₁, rfl⟩)
  have hreading : ∀ {s : Attached} {i₁ : Input}, At j i₁ pipe s₀ s → i₁.pump = .reading →
      attachSystem.Can (fun s' => ∃ i' pipe', At j i' pipe' s₀ s' ∧ i'.pump = .done) s := by
    intro s i₁ h hpump
    by_cases hunread : i₁.unread = []
    · refine (h.ease_ends ⟨hunread, .inl hpump⟩).trans fun s' hs' => ?_
      obtain ⟨i', pipe', h', hdone, -⟩ := hs'
      exact .now ⟨i', pipe', h', hdone⟩
    · have hnext : i₁.step pipe (s.unlocked i₁.pipe) 1 = some ({ i₁ with
          pump := .offering (i₁.unread.take 1)
          unread := i₁.unread.drop 1 }, pipe) := by
        rw [Input.step]
        simp only [hpump, hunread, if_false, Nat.one_ne_zero]
      obtain ⟨s₁, hstep₁, h₁⟩ := h.pump 1 hnext
      exact .step _ hstep₁ (hoffering h₁ rfl)
  cases hpump : i.pump with
  | reading => exact hreading h hpump
  | offering chunk => exact hoffering h hpump
  | writing =>
    by_cases hdata : pipe.data = []
    · have hnext : i.step pipe (s.unlocked i.pipe) 0 =
          some ({ i with pump := .reading }, pipe) := by
        rw [Input.step]
        simp only [hpump, hdata, if_true]
      obtain ⟨s₁, hstep₁, h₁⟩ := h.pump 0 hnext
      exact .step _ hstep₁ (hreading h₁ rfl)
    · have hnext : i.step pipe (s.unlocked i.pipe) 0 =
          some (i.ended { pipe with data := [] }) := by
        rw [Input.step]
        simp only [hpump, hdata, hnot hclosed, if_false, Bool.false_eq_true]
      obtain ⟨s₁, hstep₁, h₁⟩ := h.pump 0 hnext
      exact .step _ hstep₁ (.now ⟨_, _, h₁, rfl⟩)
  | done => exact .now ⟨i, pipe, h, hpump⟩

end At

/-- The goroutine of an input can come to its end, and the calls do not notice. -/
theorem input_ends (hs : s.Inv) (hi : s.inputs[j]? = some i) (hend : s.CanEnd j i) :
    attachSystem.Can (fun s' => s'.Inv ∧ s'.calls = s.calls ∧
      ∃ i', s'.inputs[j]? = some i' ∧ i'.pump = .done) s := by
  obtain ⟨pipe, hp, hclosed | ⟨j', i', hi', hpipe, hwho, hease⟩⟩ := hend
  · refine ((At.here hs hi hp).closed_ends hclosed).trans fun s' hs' => ?_
    obtain ⟨i₁, pipe₁, h₁, hdone⟩ := hs'
    exact .now ⟨h₁.inv, h₁.calls, i₁, h₁.input, hdone⟩
  · have hp' : s.container.pipes[i'.pipe]? = some pipe := hpipe ▸ hp
    refine ((At.here hs hi' hp').ease_ends hease).trans fun s₁ hs₁ => ?_
    obtain ⟨i₁, pipe₁, h₁, hdone₁, hpipe₁, hcloses₁⟩ := hs₁
    by_cases hsame : j = j'
    · subst hsame
      exact .now ⟨h₁.inv, h₁.calls, i₁, h₁.input, hdone₁⟩
    · -- the other one has closed the pipe
      have hcloses := hwho.resolve_left (Ne.symm hsame)
      have hi₁ : s₁.inputs[j]? = some i := (h₁.others j hsame).trans hi
      have hp₁ : s₁.container.pipes[i.pipe]? = some pipe₁ := by
        rw [← hpipe, ← hpipe₁]
        exact h₁.pipe
      refine ((At.here h₁.inv hi₁ hp₁).closed_ends (hcloses₁ hcloses)).trans fun s₂ hs₂ => ?_
      obtain ⟨i₂, pipe₂, h₂, hdone₂⟩ := hs₂
      exact .now ⟨h₂.inv, h₂.calls.trans h₁.calls, i₂, h₂.input, hdone₂⟩

/-- The call waits for outputs only, once it has attached to `todo`, and they can come to their
    ends. -/
structure Idle (k : Nat) (todo : List Part) (s : Attached) : Prop where
  inv : s.Inv
  heard : s.Heard
  call : ∃ c, s.calls[k]? = some c ∧ c.todo = todo ∧ c.Awake ∧
    ∀ j, c.input = some j → ∃ i, s.inputs[j]? = some i ∧ i.pump = .done

/-- `wg.Wait` of the call has returned. -/
def Returned (k : Nat) (s : Attached) : Prop := ∃ c, s.calls[k]? = some c ∧ s.returned c = true

/-- The container or its monitor has moved. -/
theorem Idle.moves {todo : List Part} {f : Output → Output} (h : Idle k todo s) (op : Op)
    (hstep : s.step op = some s') (hinputs : s'.inputs = s.inputs)
    (hcalls : s'.calls = s.calls.map fun c => { c with outputs := c.outputs.map f })
    (hf : ∀ o, (f o).reader = o.reader) : Idle k todo s' := by
  obtain ⟨hs, hheard, c, hc, htodo, hawake, hdone⟩ := h
  refine ⟨hs.step hstep, hheard.step hs hstep, { c with outputs := c.outputs.map f }, ?_, htodo,
    fun o ho => ?_, hinputs ▸ hdone⟩
  · rw [hcalls, List.getElem?_map, hc]
    rfl
  · obtain ⟨o₀, ho₀, rfl⟩ := List.mem_map.mp ho
    rw [hf]
    exact hawake o₀ ho₀

/-- The call attaches to what is left. -/
theorem todo_ends (todo : List Part) (h : Idle k todo s) : attachSystem.Can (Idle k []) s := by
  induction todo generalizing s with
  | nil => exact .now h
  | cons part todo ih =>
    obtain ⟨hs, hheard, c, hc, htodo, hawake, hdone⟩ := h
    have hlt := (List.getElem?_eq_some_iff.mp hc).1
    have hnext : ∀ {s₁ : Attached}, s.nextStep k c = some s₁ →
        attachSystem.step s (.next k) = some s₁ := by
      intro s₁ h
      show s.calls[k]?.bind _ = _
      rw [hc, Option.bind_some, h]
    cases part with
    | stdin =>
      -- the new input is at its end as soon as the client ends its side
      have hstep := hnext (by rw [Attached.nextStep, htodo])
      have hs₁ : Attached.Inv _ := hs.step (show s.step (.next k) = _ from hstep)
      refine .step _ hstep ?_
      have hi : ((s.addInput false).setCall k { c with
          todo
          input := some s.inputs.length }).inputs[s.inputs.length]? =
          some ⟨s.container.stdin, false, .reading, [], false⟩ := List.getElem?_concat_length
      have hlen : s.container.stdin < s.container.pipes.length :=
        Nat.lt_of_succ_le (Nat.le_of_eq hs.stdin)
      have hend : Attached.CanEnd _ s.inputs.length _ :=
        ⟨_, List.getElem?_eq_getElem hlen, .inr ⟨_, _, hi, rfl, .inl rfl, rfl, .inl rfl⟩⟩
      have hheard₁ := hheard.step hs (show s.step (.next k) = _ from hstep)
      refine (input_ends hs₁ hi hend).trans fun s₂ hs₂ => ?_
      obtain ⟨hinv, hcalls, i₂, hi₂, hdone₂⟩ := hs₂
      have hheard₂ : s₂.Heard := fun c hc => hheard₁ c (hcalls ▸ hc)
      refine ih ⟨hinv, hheard₂, { c with
        todo
        input := some s.inputs.length }, ?_, rfl, hawake, fun j hj => ?_⟩
      · rw [hcalls]
        exact List.getElem?_set_self hlt
      · cases hj
        exact ⟨i₂, hi₂, hdone₂⟩
    | output stream =>
      have hstep := hnext (by rw [Attached.nextStep, htodo])
      have hs₁ : Attached.Inv _ := hs.step (show s.step (.next k) = _ from hstep)
      have hheard₁ := hheard.step hs (show s.step (.next k) = _ from hstep)
      refine .step _ hstep (ih ⟨hs₁, hheard₁, _, List.getElem?_set_self hlt, rfl,
        fun o ho => ?_, hdone⟩)
      rcases List.mem_append.mp ho with ho | ho
      · exact hawake o ho
      · rw [List.mem_singleton.mp ho]
        exact id

/-- The container or its monitor can go on: the clients do not notice. -/
def Goes (s : Attached) (phase : Phase) (toClose : List Stream) : Prop :=
  ∃ op s', s.step op = some s' ∧ s'.inputs = s.inputs ∧ s'.calls = s.calls ∧
    s'.container.phase = phase ∧ s'.toClose = toClose

theorem goes_start (hphase : s.container.phase = .stopped) : Goes s .starting s.toClose := by
  refine ⟨.start, s.setContainer { s.container with
    phase := .starting
    runs := s.container.runs ++ [⟨s.container.stdin, .spawned, true, [], []⟩] }, ?_,
    rfl, rfl, rfl, rfl⟩
  rw [Attached.step, Stdin.Container.step, if_pos hphase]
  rfl

theorem goes_cmdStart (hphase : s.container.phase = .starting) : Goes s .running s.toClose := by
  refine ⟨.cmdStart true, s.setContainer { s.container with phase := .running }, ?_,
    rfl, rfl, rfl, rfl⟩
  rw [Attached.step, Stdin.Container.step, if_pos hphase]
  rfl

theorem goes_exit (hphase : s.container.phase = .running) : Goes s .exited [.stdout, .stderr] := by
  refine ⟨.exit, { s.setContainer { s.container.closeStdin with phase := .exited } with
    toClose := [.stdout, .stderr] }, ?_, rfl, rfl, rfl, rfl⟩
  rw [Attached.step, Stdin.Container.step, if_pos hphase]
  rfl

theorem goes_renewed (hphase : s.container.phase = .exited) (hclosed : s.toClose = []) :
    Goes s .renewed s.toClose := by
  refine ⟨.monitor, s.setContainer { s.container with
    stdin := s.container.pipes.length
    pipes := s.container.pipes ++ [Pipe.new]
    phase := .renewed }, ?_, rfl, rfl, rfl, rfl⟩
  simp only [Attached.step, hclosed, if_true, Stdin.Container.step, hphase]
  rfl

theorem goes_stopped (hphase : s.container.phase = .renewed) (hclosed : s.toClose = []) :
    Goes s .stopped s.toClose := by
  refine ⟨.monitor, s.setContainer { s.container with phase := .stopped }, ?_, rfl, rfl, rfl, rfl⟩
  simp only [Attached.step, hclosed, if_true, Stdin.Container.step, hphase]
  rfl

theorem step_closeStream {stream : Stream} {toClose : List Stream}
    (h : s.toClose = stream :: toClose) :
    s.step .closeStream = some { s with
      toClose
      calls := s.calls.map fun c =>
        { c with outputs := c.outputs.map (Output.close stream) } } := by
  rw [Attached.step, h]

/-- The run comes to its end. -/
theorem stops (h : Idle k [] s) :
    attachSystem.Can (fun s' => Idle k [] s' ∧ s'.container.phase = .stopped) s := by
  let rank : Phase → Nat
    | .stopped => 0
    | .renewed => 1
    | .exited => 2
    | .running => 5
    | .starting => 6
  apply attachSystem.run_to (fun s => rank s.container.phase + s.toClose.length) ?_ h
  intro s h
  have hgoes : ∀ {phase toClose}, Goes s phase toClose →
      rank phase + toClose.length < rank s.container.phase + s.toClose.length →
      ∃ e s', attachSystem.step s e = some s' ∧ Idle k [] s' ∧
        rank s'.container.phase + s'.toClose.length <
          rank s.container.phase + s.toClose.length := by
    rintro phase toClose ⟨op, s', hstep, hinputs, hcalls, rfl, rfl⟩ hlt
    exact ⟨op, s', hstep, h.moves op hstep hinputs (hcalls.trans (map_outputs _)) fun _ => rfl,
      hlt⟩
  -- the monitor closes what is left to be closed
  have hclose : s.toClose ≠ [] → ∃ e s', attachSystem.step s e = some s' ∧ Idle k [] s' ∧
      rank s'.container.phase + s'.toClose.length < rank s.container.phase + s.toClose.length := by
    intro hne
    obtain ⟨stream, toClose, htoClose⟩ := List.exists_cons_of_ne_nil hne
    have hstep := step_closeStream htoClose
    refine ⟨.closeStream, _, hstep, h.moves _ hstep rfl rfl (Output.close_reader stream), ?_⟩
    rw [htoClose]
    exact Nat.lt_succ_self _
  cases hphase : s.container.phase with
  | stopped => exact .inl rfl
  | starting =>
    rw [hphase] at hgoes
    refine .inr (hgoes (goes_cmdStart hphase) ?_)
    show 5 + s.toClose.length < 6 + s.toClose.length
    omega
  | running =>
    rw [hphase] at hgoes
    refine .inr (hgoes (goes_exit hphase) ?_)
    show 2 + 2 < 5 + s.toClose.length
    omega
  | exited =>
    rw [hphase] at hgoes hclose
    by_cases hne : s.toClose = []
    · refine .inr (hgoes (goes_renewed hphase hne) ?_)
      show 1 + s.toClose.length < 2 + s.toClose.length
      omega
    · exact .inr (hclose hne)
  | renewed =>
    rw [hphase] at hgoes hclose
    by_cases hne : s.toClose = []
    · refine .inr (hgoes (goes_stopped hphase hne) ?_)
      show 0 + s.toClose.length < 1 + s.toClose.length
      omega
    · exact .inr (hclose hne)

theorem close_closed (outputs : List Output) :
    ∀ o ∈ (outputs.map (Output.close .stdout)).map (Output.close .stderr), o.closed = true := by
  intro o ho
  obtain ⟨o₁, ho₁, rfl⟩ := List.mem_map.mp ho
  obtain ⟨o₀, -, rfl⟩ := List.mem_map.mp ho₁
  obtain ⟨stream, closed, reader⟩ := o₀
  cases stream <;> rfl

/-- In one more run both streams are closed. -/
theorem outputs_close (h : Idle k [] s) (hphase : s.container.phase = .stopped) :
    attachSystem.Can (fun s' => Idle k [] s' ∧ ∃ c, s'.calls[k]? = some c ∧
      ∀ o ∈ c.outputs, o.closed = true) s := by
  obtain ⟨op₁, s₁, hstep₁, hinputs₁, hcalls₁, hphase₁, -⟩ := goes_start hphase
  obtain ⟨op₂, s₂, hstep₂, hinputs₂, hcalls₂, hphase₂, -⟩ := goes_cmdStart hphase₁
  obtain ⟨op₃, s₃, hstep₃, hinputs₃, hcalls₃, -, hclose₃⟩ := goes_exit hphase₂
  have h₁ := h.moves op₁ hstep₁ hinputs₁ (hcalls₁.trans (map_outputs _)) fun _ => rfl
  have h₂ := h₁.moves op₂ hstep₂ hinputs₂ (hcalls₂.trans (map_outputs _)) fun _ => rfl
  have h₃ := h₂.moves op₃ hstep₃ hinputs₃ (hcalls₃.trans (map_outputs _)) fun _ => rfl
  have hstep₄ := step_closeStream hclose₃
  have h₄ := h₃.moves _ hstep₄ rfl rfl (Output.close_reader .stdout)
  have hstep₅ := step_closeStream (s := { s₃ with
    toClose := [.stderr]
    calls := s₃.calls.map fun c => { c with outputs := c.outputs.map (Output.close .stdout) } }) rfl
  have h₅ := h₄.moves _ hstep₅ rfl rfl (Output.close_reader .stderr)
  refine .step op₁ hstep₁ (.step op₂ hstep₂ (.step op₃ hstep₃ (.step .closeStream hstep₄
    (.step .closeStream hstep₅ (.now ⟨h₅, ?_⟩)))))
  obtain ⟨-, -, c, hc, -⟩ := h₃
  refine ⟨{ c with
    outputs := (c.outputs.map (Output.close .stdout)).map (Output.close .stderr) }, ?_,
    close_closed c.outputs⟩
  show ((s₃.calls.map _).map _)[k]? = _
  rw [List.getElem?_map, List.getElem?_map, hc]
  rfl

/-- An output whose pipe is closed comes nearer to its end. -/
theorem Output.goes {o : Output} (hclosed : o.closed = true) (hsound : o.reader.Sound)
    (hawake : ¬o.reader.Overslept) (hdone : o.done = false) (running : Bool) :
    ∃ op o', o.step running op = some o' ∧ ¬o'.reader.Overslept ∧
      o'.reader.toEnd < o.reader.toEnd := by
  obtain hended | ⟨op, hop, r', hstep, hr', hlt⟩ :=
    hsound.progress () (show 0 < 32 * 1024 by decide) hawake
  · rw [(Output.done_iff o).mpr hended] at hdone
    cases hdone
  · rcases hop with rfl | rfl | rfl
    · refine ⟨.pipe [], { o with reader := r' }, ?_, hr', hlt⟩
      simp only [Output.step, hclosed, if_true]
      rw [show o.reader.sourceStep (.ended ()) = some r' from hstep]
      rfl
    · refine ⟨.drain, { o with reader := r' }, ?_, hr', hlt⟩
      simp only [Output.step]
      rw [show o.reader.drainStep = some r' from hstep]
      rfl
    · refine ⟨.copy, { o with reader := r' }, ?_, hr', hlt⟩
      simp only [Output.step, hdone, Bool.false_eq_true, if_false]
      rw [show o.reader.readStep (32 * 1024) = some r' from hstep]
      rfl

/-- How far the outputs of the call are from their ends. -/
def left (k : Nat) (s : Attached) : Nat :=
  (((s.calls[k]?.map Call.outputs).getD []).map fun o => o.reader.toEnd).sum

/-- The goroutines of closed streams come to their ends. -/
theorem outputs_end (h : Idle k [] s) (hclosed : ∃ c, s.calls[k]? = some c ∧
    ∀ o ∈ c.outputs, o.closed = true) : attachSystem.Can (Returned k) s := by
  have hstep : ∀ s, (Idle k [] s ∧ ∃ c, s.calls[k]? = some c ∧
      ∀ o ∈ c.outputs, o.closed = true) → Returned k s ∨
        ∃ e s', attachSystem.step s e = some s' ∧ (Idle k [] s' ∧ ∃ c, s'.calls[k]? = some c ∧
          ∀ o ∈ c.outputs, o.closed = true) ∧ left k s' < left k s := by
    rintro s ⟨⟨hs, hheard, c, hc, htodo, hawake, hdone⟩, c', hc', hclosed⟩
    cases hc.symm.trans hc'
    by_cases hall : ∀ o ∈ c.outputs, o.done = true
    · refine .inl ⟨c, hc, ?_⟩
      have hinput : (c.input.all fun j => s.inputs[j]?.all fun i => i.pump = .done) = true := by
        cases hj : c.input with
        | none => rfl
        | some j =>
          obtain ⟨i, hi, hpump⟩ := hdone j hj
          rw [Option.all_some, hi, Option.all_some]
          exact decide_eq_true hpump
      rw [Attached.returned, htodo, hinput, List.all_eq_true.mpr hall]
      rfl
    · obtain ⟨o, ho, hpc⟩ : ∃ o ∈ c.outputs, o.done = false := by
        by_contra hnone
        exact hall fun o ho => Bool.of_not_eq_false fun hpc => hnone ⟨o, ho, hpc⟩
      obtain ⟨m, hm⟩ := List.getElem?_of_mem ho
      have hlt := (List.getElem?_eq_some_iff.mp hc).1
      obtain ⟨op, o', ho', hawake', hless⟩ := o.goes (hclosed o ho)
        (hheard c (List.mem_of_getElem? hc) o ho) (hawake o ho) hpc (s.container.phase = .running)
      let c' : Call := { c with outputs := c.outputs.set m o' }
      have hc' : (s.setCall k c').calls[k]? = some c' := List.getElem?_set_self hlt
      have hstep : s.step (.output k m op) = some (s.setCall k c') := by
        show s.calls[k]?.bind _ = _
        rw [hc, Option.bind_some, Attached.outputStep, hm, Option.bind_some, ho']
        rfl
      have hset : ∀ {p : Output → Prop}, (∀ o ∈ c.outputs, p o) → p o' →
          ∀ o ∈ c'.outputs, p o := by
        intro p hp hp' o₁ ho₁
        rcases List.mem_or_eq_of_mem_set ho₁ with ho₁ | rfl
        · exact hp o₁ ho₁
        · exact hp'
      have hclosed' : o'.closed = true :=
        (Output.becomes_of_step ho').2.trans (hclosed o ho)
      refine .inr ⟨.output k m op, _, hstep, ⟨⟨hs.step hstep, hheard.step hs hstep, c', hc', htodo,
        hset hawake hawake', hdone⟩, c', hc', hset hclosed hclosed'⟩, ?_⟩
      rw [left, left, hc', hc]
      have hsum := List.sum_map_set_add (b := o') (fun o : Output => o.reader.toEnd) hm
      show ((c.outputs.set m o').map _).sum < (c.outputs.map _).sum
      omega
  obtain ⟨es, s', hrun, -, hreturned⟩ := attachSystem.run_to (left k) hstep ⟨h, hclosed⟩
  exact ⟨es, s', hrun, hreturned⟩

/-- A call whose goroutine for stdin can come to its end can return, if no output has overslept. -/
theorem can_return (hs : s.Inv) (hheard : s.Heard) (hc : s.calls[k]? = some c) (hawake : c.Awake)
    (hinput : ∀ j, c.input = some j →
      ∃ i, s.inputs[j]? = some i ∧ (i.pump = .done ∨ s.CanEnd j i)) :
    attachSystem.Can (Returned k) s := by
  have hidle : attachSystem.Can (Idle k c.todo) s := by
    cases hj : c.input with
    | none =>
      refine .now ⟨hs, hheard, c, hc, rfl, hawake, fun j h => ?_⟩
      exact absurd (hj.symm.trans h).symm (Option.some_ne_none j)
    | some j =>
      obtain ⟨i, hi, hdone | hend⟩ := hinput j hj
      · refine .now ⟨hs, hheard, c, hc, rfl, hawake, fun j' hj' => ?_⟩
        cases hj.symm.trans hj'
        exact ⟨i, hi, hdone⟩
      · refine (input_ends hs hi hend).trans fun s' hs' => ?_
        obtain ⟨hinv, hcalls, i', hi', hdone⟩ := hs'
        have hheard' : s'.Heard := fun c hc => hheard c (hcalls ▸ hc)
        refine .now ⟨hinv, hheard', c, hcalls ▸ hc, rfl, hawake, fun j' hj' => ?_⟩
        cases hj.symm.trans hj'
        exact ⟨i', hi', hdone⟩
  refine hidle.trans fun s₁ h₁ => (todo_ends _ h₁).trans fun s₂ h₂ => ?_
  refine (stops h₂).trans fun s₃ h₃ => (outputs_close h₃.1 h₃.2).trans fun s₄ h₄ => ?_
  exact outputs_end h₄.1 h₄.2

/-- A call whose input is stuck never returns. -/
theorem stuck_forever (hs : s.Inv) (hc : ∃ c, s.calls[k]? = some c ∧ c.input = some j)
    (h : Jammed j p s) : ¬attachSystem.Can (Returned k) s := by
  apply System.Can.never (P := fun s => s.Inv ∧
    (∃ c, s.calls[k]? = some c ∧ c.input = some j) ∧ Jammed j p s) _ _ ⟨hs, hc, h⟩
  · rintro s e s' ⟨hs, hc, h⟩ hstep
    exact ⟨hs.step hstep, input_keeps hs hc hstep, h.step hs hstep⟩
  · rintro s ⟨-, ⟨c, hc, hj⟩, h⟩ ⟨c', hc', hreturned⟩
    rw [hc] at hc'
    cases hc'
    obtain ⟨i, hi, -, hdone⟩ := h.input
    simp only [Attached.returned, hj, Option.all_some, hi, Bool.and_eq_true,
      decide_eq_true_eq] at hreturned
    exact hdone hreturned.1.2

/-- A call one of whose outputs has overslept never returns. -/
theorem overslept_forever (hs : s.Inv) (hheard : s.Heard) (hc : s.calls[k]? = some c)
    (hover : ¬c.Awake) : ¬attachSystem.Can (Returned k) s := by
  have hsome : ∃ o ∈ c.outputs, o.reader.Overslept := by
    by_contra hnone
    exact hover fun o ho h => hnone ⟨o, ho, h⟩
  apply System.Can.never (P := fun s => s.Inv ∧ s.Heard ∧
    ∃ c, s.calls[k]? = some c ∧ ∃ o ∈ c.outputs, o.reader.Overslept) _ _ ⟨hs, hheard, c, hc, hsome⟩
  · rintro s e s' ⟨hs, hheard, c, hc, o, ho, hover⟩ hstep
    obtain ⟨c', hc', hfollows⟩ := (Steps.of_step hs hstep).call_follows hc
    obtain ⟨o', ho', hbecomes⟩ := hfollows.kept o ho
    have hsound := hheard c (List.mem_of_getElem? hc) o ho
    exact ⟨hs.step hstep, hheard.step hs hstep, c', hc', o', ho', hbecomes.overslept hsound hover⟩
  · rintro s ⟨-, hheard, c, hc, o, ho, hover⟩ ⟨c', hc', hreturned⟩
    rw [hc] at hc'
    cases hc'
    rw [Attached.returned, Bool.and_eq_true] at hreturned
    obtain ⟨err, herr⟩ := (Output.done_iff o).mp (List.all_eq_true.mp hreturned.2 o ho)
    have hsound := hheard c (List.mem_of_getElem? hc) o ho
    exact hover.not_ended hsound.toInv err herr

/-! ## All runs -/

/-- Whether an `attach` can still return, in any state that clients, the container and its monitor
    have reached. None of its outputs may have overslept the last signal of its `bufReader`. This
    is all if it has no input. If it has one, and nobody reads its pipe any more (as when the run
    is over and the goroutine that fed it), then it can if and only if moreover this input is at
    its end, or its pipe is closed, or all was taken of what the client has sent, or the client of
    the `CmdRun -a` that will close the pipe. -/
theorem attach_returns_iff (h : attachSystem.Reachable s) (hc : s.calls[k]? = some c) :
    (c.input = none → (attachSystem.Can (Returned k) s ↔ c.Awake)) ∧
    ∀ j, c.input = some j → ∃ i, s.inputs[j]? = some i ∧ (s.Abandoned i.pipe →
      (attachSystem.Can (Returned k) s ↔ c.Awake ∧ (i.pump = .done ∨ s.CanEnd j i))) := by
  have hs := Attached.Inv.of_reachable h
  have hheard := Attached.Heard.of_reachable h
  have hawake : attachSystem.Can (Returned k) s → c.Awake := fun hcan =>
    by_contra fun hover => overslept_forever hs hheard hc hover hcan
  constructor
  · refine fun hnone => ⟨hawake, fun hawake => can_return hs hheard hc hawake fun j hj => ?_⟩
    exact absurd (hnone.symm.trans hj).symm (Option.some_ne_none j)
  · intro j hj
    have hlt := hs.input c (List.mem_of_getElem? hc) j hj
    have hi := List.getElem?_eq_getElem hlt
    refine ⟨_, hi, fun habandoned => ⟨fun hcan => ⟨hawake hcan, ?_⟩, fun ⟨hawake, hend⟩ => ?_⟩⟩
    · -- otherwise it would be stuck for ever
      by_contra hnot
      have hdone : s.inputs[j].pump ≠ .done := fun hdone => hnot (.inl hdone)
      have hpipe := List.getElem?_eq_getElem (hs.pipe _ (List.mem_of_getElem? hi))
      have hjammed : Jammed j s.inputs[j].pipe s := by
        refine ⟨habandoned, ⟨_, hi, rfl, hdone⟩, _, hpipe, ?_, fun j' i' hi' hip hwho hease => ?_⟩
        · exact Bool.eq_false_iff.mpr fun hclosed => hnot (.inr ⟨_, hpipe, .inl hclosed⟩)
        · exact hnot (.inr ⟨_, hpipe, .inr ⟨j', i', hi', hip, hwho, hease⟩⟩)
      exact stuck_forever hs ⟨c, hc, hj⟩ hjammed hcan
    · apply can_return hs hheard hc hawake
      intro j' hj'
      cases hj.symm.trans hj'
      exact ⟨_, hi, hend⟩

/-- An output whose stream was closed reads the end of file, and `io.Copy` is told. -/
def outputEnds (m : Nat) : List Op :=
  [.pipe [], .drain, .drain, .drain, .drain, .copy, .copy, .copy].map (.output 0 m)

/-- `attach -i`, a run, and two lines that the client types when the process is gone: the first one
    is taken by the goroutine that fed the process, and nobody takes the second one. -/
def lateTyping : List Op := [
  .attach [str "-i", str "c"], .next 0, .next 0, .next 0,
  .start, .cmdStart true, .copy 0 1, .exit, .closeStream, .closeStream, .monitor, .monitor,
  .send 0 [10], .pump 0 1, .pump 0 1, .copy 0 1, .copy 0 1, .pump 0 1] ++
  outputEnds 0 ++ outputEnds 1 ++ [.send 0 [10], .hangUp 0]

/-- `attach` without `-i`: `io.Copy` looks for the end of file while the process runs, and takes the
    mutex when the monitor has closed the stream and `drain` has given its last signal. -/
def lateLock : List Op := [
  .attach [str "-e=false", str "c"], .next 0, .start, .cmdStart true,
  .output 0 0 .copy, .output 0 0 .copy, .output 0 0 .copy, .exit, .closeStream,
  .output 0 0 (.pipe []), .output 0 0 .drain, .output 0 0 .drain, .output 0 0 .drain,
  .output 0 0 .drain]

/-- Both outputs are at their end and the client has hung up, but the first call never returns. The
    second one has no input, and does not return either. -/
theorem attach_returns_iff_late :
    (∃ s c i, attachSystem.run .new lateTyping = some s ∧ s.calls[0]? = some c ∧
      s.inputs[0]? = some i ∧ (∀ o ∈ c.outputs, o.done = true) ∧ i.hungUp = true ∧
      ¬attachSystem.Can (Returned 0) s) ∧
    ∃ s c, attachSystem.run .new lateLock = some s ∧ s.calls[0]? = some c ∧ c.input = none ∧
      ¬attachSystem.Can (Returned 0) s := by
  constructor
  · obtain ⟨s, os, hrun, hc, hos, hi, habandoned, hpipe⟩ :
        ∃ s os, attachSystem.run .new lateTyping = some s ∧
          s.calls[0]? = some ⟨[], some 0, os⟩ ∧ os.all Output.done = true ∧
          s.inputs = [⟨0, false, .reading, [10], true⟩] ∧ s.Abandoned 0 ∧
          s.container.pipes[0]? = some ⟨[10], [], false, false⟩ := by
      refine ⟨_, _, rfl, rfl, rfl, rfl, ⟨by decide, fun r hr => ?_⟩, rfl⟩
      rw [List.mem_singleton.mp hr]
      exact (Option.some_ne_none 0).symm
    have hreach : attachSystem.Reachable s := .run (.init rfl) lateTyping hrun
    refine ⟨s, _, _, hrun, hc, by rw [hi]; rfl, List.all_eq_true.mp hos, rfl, fun hcan => ?_⟩
    obtain ⟨i, hi', hiff⟩ := (attach_returns_iff hreach hc).2 0 rfl
    rw [hi] at hi'
    cases hi'
    obtain ⟨-, hdone | ⟨pipe, hp, hclosed | ⟨j', i', hi', -, -, hunread, -⟩⟩⟩ :=
      (hiff habandoned).mp hcan
    · cases hdone
    · cases hpipe.symm.trans hp
      cases hclosed
    · rw [hi] at hi'
      cases List.mem_singleton.mp (List.mem_of_getElem? hi')
      cases hunread
  · obtain ⟨s, o, hrun, hc, hover⟩ : ∃ s o, attachSystem.run .new lateLock = some s ∧
        s.calls[0]? = some ⟨[], none, [o]⟩ ∧ o.reader.Overslept :=
      ⟨_, _, rfl, rfl, .inl ⟨_, .inl rfl⟩⟩
    have hreach : attachSystem.Reachable s := .run (.init rfl) lateLock hrun
    refine ⟨s, _, hrun, hc, rfl, fun hcan => ?_⟩
    exact ((attach_returns_iff hreach hc).1 rfl).mp hcan o List.mem_cons_self hover

end Docker.Attach
