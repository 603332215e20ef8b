import DockerEngine.Native.Streams
import DockerEngine.ForStd.List
import Mathlib.Data.List.Nodup

/-!
# One run, one stream

A pipe that is attached for a run is to get the output of that run and nothing else.
`Close` leaves closed pipes in the list of the broadcaster; the invariant says that such a
pipe refuses writes, so that it does not matter how long it stays there, and that every
open pipe is in the list once.

- `writeLoop_spec`: what a `Write` does to each pipe
- `runs_isolated`: what the pipes and the log file got, over all runs
-/

namespace Docker

namespace Broadcaster

variable {w w' : Broadcaster} {p : List UInt8} {cut : Nat → Option Nat} {kept ws : List Writer}

/-! ## Writing to all -/

theorem writeTo_some {i : Nat} {q : Pipe} (hi : w.pipes[i]? = some q) (p : List UInt8)
    (cut : Nat → Option Nat) :
    w.writeTo p cut (.pipe i) =
      ((q.write p (cut i)).1, { w with pipes := w.pipes.set i (q.write p (cut i)).2 }) := by
  simp only [writeTo, hi]

theorem writeTo_none {i : Nat} (hi : w.pipes[i]? = none) (p : List UInt8)
    (cut : Nat → Option Nat) : w.writeTo p cut (.pipe i) = (false, w) := by
  simp only [writeTo, hi]

/-- A writer writes to its own target and leaves the others alone. -/
theorem writeTo_pipes (w : Broadcaster) (p : List UInt8) (cut : Nat → Option Nat)
    (writer : Writer) (i : Nat) :
    (w.writeTo p cut writer).2.pipes[i]? =
      if writer = .pipe i then w.pipes[i]?.map fun q => (q.write p (cut i)).2 else w.pipes[i]? := by
  cases writer with
  | log => simp [writeTo]
  | pipe j =>
    cases hj : w.pipes[j]? with
    | none =>
      rw [writeTo_none hj]
      by_cases hij : j = i
      · subst hij
        simp [hj]
      · simp [hij]
    | some q =>
      rw [writeTo_some hj]
      by_cases hij : j = i
      · subst hij
        have hlt := (List.getElem?_eq_some_iff.mp hj).1
        rw [if_pos rfl, hj, List.getElem?_set_self hlt]
        rfl
      · simp [hij]

theorem writeTo_log (w : Broadcaster) (p : List UInt8) (cut : Nat → Option Nat)
    (writer : Writer) :
    (w.writeTo p cut writer).2.log = if writer = .log then w.log ++ p else w.log := by
  cases writer with
  | log => rfl
  | pipe j =>
    cases hj : w.pipes[j]? with
    | none => rw [writeTo_none hj]; simp
    | some q => rw [writeTo_some hj]; simp

/-- A pipe is not evicted if its write succeeds. -/
theorem writeTo_ok {i : Nat} {q : Pipe} (hi : w.pipes[i]? = some q)
    (hwrite : (q.write p (cut i)).1 = true) : (w.writeTo p cut (.pipe i)).1 = true := by
  rw [writeTo_some hi]
  exact hwrite

/-- The loop writes once to each writer of the list, and keeps those that did not fail. -/
theorem writeLoop_spec (hws : ws.Nodup) (h : writeLoop p cut ws w = (kept, w')) :
    kept.Sublist ws ∧
    (.log ∈ ws → .log ∈ kept) ∧
    w'.log = (if .log ∈ ws then w.log ++ p else w.log) ∧
    (∀ i, w'.pipes[i]? =
      if .pipe i ∈ ws then w.pipes[i]?.map fun q => (q.write p (cut i)).2 else w.pipes[i]?) ∧
    ∀ i q, .pipe i ∈ ws → w.pipes[i]? = some q → (q.write p (cut i)).1 = true →
      .pipe i ∈ kept := by
  induction ws generalizing w kept w' with
  | nil =>
    cases h
    simp
  | cons writer rest ih =>
    obtain ⟨hnew, hrest⟩ := List.nodup_cons.mp hws
    simp only [writeLoop] at h
    -- induction on the list: the rest of the loop begins where this write has ended
    rcases hloop : writeLoop p cut rest (w.writeTo p cut writer).2 with ⟨kept₁, w₁⟩
    rw [hloop] at h
    cases h
    obtain ⟨hsub, hlog, hlogged, hpipes, hkept⟩ := ih hrest hloop
    refine ⟨?_, fun hmem => ?_, ?_, fun i => ?_, fun i q hmem hq hwrite => ?_⟩
    · split
      · exact hsub.cons_cons _
      · exact hsub.cons _
    · rcases List.mem_cons.mp hmem with rfl | hmem
      · rw [if_pos (by rfl)]
        exact List.mem_cons_self
      · split
        · exact List.mem_cons_of_mem _ (hlog hmem)
        · exact hlog hmem
    · rw [hlogged, writeTo_log]
      by_cases hw : writer = .log
      · subst hw
        simp [hnew]
      · have hne : Writer.log ≠ writer := fun e => hw e.symm
        simp [hw, hne]
    · rw [hpipes i, writeTo_pipes]
      by_cases hw : writer = .pipe i
      · -- it is not written to again further down the list
        subst hw
        simp [hnew]
      · have hne : Writer.pipe i ≠ writer := fun e => hw e.symm
        simp [hw, hne]
    · -- either this write is the one to the pipe, or a later one
      by_cases hw : writer = .pipe i
      · subst hw
        rw [if_pos (writeTo_ok hq hwrite)]
        exact List.mem_cons_self
      · have hne : Writer.pipe i ≠ writer := fun e => hw e.symm
        have hmem' : Writer.pipe i ∈ rest := (List.mem_cons.mp hmem).resolve_left hne
        have hq' : (w.writeTo p cut writer).2.pipes[i]? = some q := by
          rw [writeTo_pipes, if_neg hw]
          exact hq
        split
        · exact List.mem_cons_of_mem _ (hkept i q hmem' hq' hwrite)
        · exact hkept i q hmem' hq' hwrite

/-- A broadcaster that has the log file and every open pipe in its list, once. -/
structure Complete (w : Broadcaster) : Prop where
  unique : w.writers.Nodup
  logged : Writer.log ∈ w.writers
  known : ∀ i, Writer.pipe i ∈ w.writers → i < w.pipes.length
  listed : ∀ (i : Nat) pipe, w.pipes[i]? = some pipe → pipe.isOpen = true →
    Writer.pipe i ∈ w.writers

/-- A write reaches the log file and the open pipes, unless the reader of a pipe closes; a
    pipe with a closed end takes nothing. -/
theorem Complete.write (hw : w.Complete) (p : List UInt8) (cut : Nat → Option Nat) :
    (w.write p cut).Complete ∧ (w.write p cut).log = w.log ++ p ∧
    (w.write p cut).pipes.length = w.pipes.length ∧
    ∀ (i : Nat) pipe, (w.write p cut).pipes[i]? = some pipe →
      ∃ q, w.pipes[i]? = some q ∧ ((q.isOpen = false ∧ pipe = q) ∨ pipe.readerClosed = true ∨
        (q.isOpen = true ∧ pipe = { q with sent := q.sent ++ p, data := [] })) := by
  rcases hloop : writeLoop p cut w.writers w with ⟨kept, w'⟩
  obtain ⟨hsub, hlog, hlogged, hpipes, hkept⟩ := writeLoop_spec hw.unique hloop
  have hwrite : w.write p cut = { w' with writers := kept } := by
    simp only [Broadcaster.write, hloop]
  have hlen : w'.pipes.length = w.pipes.length := by
    apply Nat.le_antisymm
    · rw [← List.getElem?_eq_none_iff, hpipes]
      simp
    · rw [← List.getElem?_eq_none_iff]
      have hnone : w'.pipes[w'.pipes.length]? = none := List.getElem?_eq_none (Nat.le_refl _)
      rw [hpipes] at hnone
      split at hnone
      · exact Option.map_eq_none_iff.mp hnone
      · exact hnone
  have hafter : ∀ (i : Nat) pipe, w'.pipes[i]? = some pipe →
      ∃ q, w.pipes[i]? = some q ∧ ((q.isOpen = false ∧ pipe = q) ∨ pipe.readerClosed = true ∨
        (q.isOpen = true ∧ Writer.pipe i ∈ kept ∧
          pipe = { q with sent := q.sent ++ p, data := [] })) := by
    intro i pipe hpipe
    rw [hpipes i] at hpipe
    split at hpipe
    · next hmem =>
      obtain ⟨q, hq, rfl⟩ := Option.map_eq_some_iff.mp hpipe
      refine ⟨q, hq, ?_⟩
      cases hopen : q.isOpen with
      | false =>
        rw [Pipe.write_closed hopen]
        exact .inl ⟨rfl, rfl⟩
      | true =>
        cases hcut : cut i with
        | none =>
          have hk := hkept i q hmem hq
          rw [hcut, Pipe.write_open hopen] at hk
          rw [Pipe.write_open hopen]
          exact .inr (.inr ⟨rfl, hk rfl, rfl⟩)
        | some n => exact .inr (.inl (Pipe.write_cut hopen p n))
    -- a pipe that is not in the list is not open
    · next hmem =>
      refine ⟨pipe, hpipe, .inl ⟨?_, rfl⟩⟩
      exact Bool.eq_false_iff.mpr fun hopen => hmem (hw.listed i pipe hpipe hopen)
  rw [hwrite]
  refine ⟨⟨hw.unique.sublist hsub, hlog hw.logged, fun i hi => ?_, fun i pipe hpipe hopen => ?_⟩,
    ?_, hlen, fun i pipe hpipe => ?_⟩
  · show i < w'.pipes.length
    rw [hlen]
    exact hw.known i (hsub.subset hi)
  · obtain ⟨q, hq, ⟨hclosed, rfl⟩ | hclosed | ⟨-, hmem, -⟩⟩ := hafter i pipe hpipe
    · simp [hclosed] at hopen
    · simp [Pipe.isOpen, hclosed] at hopen
    · exact hmem
  · show w'.log = w.log ++ p
    rw [hlogged, if_pos hw.logged]
  · obtain ⟨q, hq, hcase | hcase | ⟨hopen, -, hcase⟩⟩ := hafter i pipe hpipe
    · exact ⟨q, hq, .inl hcase⟩
    · exact ⟨q, hq, .inr (.inl hcase)⟩
    · exact ⟨q, hq, .inr (.inr ⟨hopen, hcase⟩)⟩

/-! ## Closing all -/

theorem closeWriter_pipes (w : Broadcaster) (writer : Writer) (i : Nat) :
    (w.closeWriter writer).pipes[i]? =
      if writer = .pipe i then w.pipes[i]?.map Pipe.closeWriter else w.pipes[i]? := by
  cases writer with
  | log => rfl
  | pipe j =>
    show (w.pipes.modify j Pipe.closeWriter)[i]? = _
    rw [List.getElem?_modify]
    by_cases hij : j = i
    · simp [hij]
    · simp [hij]

theorem foldl_closeWriter_length (ws : List Writer) (w : Broadcaster) :
    (ws.foldl closeWriter w).pipes.length = w.pipes.length := by
  induction ws generalizing w with
  | nil => rfl
  | cons writer ws ih =>
    rw [List.foldl_cons, ih]
    cases writer with
    | log => rfl
    | pipe i => exact List.length_modify _ _ _

/-- `Close` closes the pipes in the list, and touches nothing else. -/
theorem foldl_closeWriter (ws : List Writer) (w : Broadcaster) :
    (ws.foldl closeWriter w).log = w.log ∧ (ws.foldl closeWriter w).writers = w.writers ∧
    ∀ i, (ws.foldl closeWriter w).pipes[i]? =
      if .pipe i ∈ ws then w.pipes[i]?.map Pipe.closeWriter else w.pipes[i]? := by
  induction ws generalizing w with
  | nil => simp
  | cons writer ws ih =>
    obtain ⟨hlog, hwriters, hpipes⟩ := ih (w.closeWriter writer)
    rw [List.foldl_cons]
    refine ⟨?_, ?_, fun i => ?_⟩
    · rw [hlog]
      cases writer <;> rfl
    · rw [hwriters]
      cases writer <;> rfl
    · rw [hpipes i, closeWriter_pipes]
      -- closing twice is closing once
      have htwice : Pipe.closeWriter ∘ Pipe.closeWriter = Pipe.closeWriter := rfl
      by_cases hw : writer = .pipe i
      · subst hw
        by_cases hmem : Writer.pipe i ∈ ws
        · simp [hmem, htwice]
        · simp [hmem]
      · have hne : Writer.pipe i ≠ writer := fun e => hw e.symm
        simp [hw, hne]

theorem Complete.close (hw : w.Complete) :
    w.close.Complete ∧ w.close.log = w.log ∧ w.close.pipes.length = w.pipes.length ∧
    ∀ (i : Nat) pipe, w.close.pipes[i]? = some pipe →
      ∃ q, w.pipes[i]? = some q ∧ pipe.sent = q.sent ∧
        (pipe.readerClosed = false → pipe.writerClosed = true) ∧
        pipe.readerClosed = q.readerClosed := by
  obtain ⟨hlog, hwriters, hpipes⟩ := foldl_closeWriter w.writers w
  have hlen : w.close.pipes.length = w.pipes.length := foldl_closeWriter_length _ _
  have hafter : ∀ (i : Nat) pipe, w.close.pipes[i]? = some pipe →
      ∃ q, w.pipes[i]? = some q ∧ pipe.sent = q.sent ∧
        (pipe.readerClosed = false → pipe.writerClosed = true) ∧
        pipe.readerClosed = q.readerClosed := by
    intro i pipe hpipe
    rw [Broadcaster.close, hpipes i] at hpipe
    split at hpipe
    · obtain ⟨q, hq, rfl⟩ := Option.map_eq_some_iff.mp hpipe
      exact ⟨q, hq, rfl, fun _ => rfl, rfl⟩
    -- a pipe that is not in the list has a closed end
    · next hmem =>
      refine ⟨pipe, hpipe, rfl, fun hreader => ?_, rfl⟩
      have hclosed := mt (hw.listed i pipe hpipe) hmem
      simpa [Pipe.isOpen, hreader] using hclosed
  refine ⟨⟨?_, ?_, fun i hi => ?_, fun i pipe hpipe hopen => ?_⟩, hlog, hlen, hafter⟩
  · rw [Broadcaster.close, hwriters]
    exact hw.unique
  · rw [Broadcaster.close, hwriters]
    exact hw.logged
  · rw [Broadcaster.close, hwriters] at hi
    rw [hlen]
    exact hw.known i hi
  · obtain ⟨q, -, -, hwriter, -⟩ := hafter i pipe hpipe
    obtain ⟨hw', hr'⟩ := Pipe.isOpen_iff.mp hopen
    simp [hwriter hr'] at hw'

/-! ## Attaching and detaching -/

theorem Complete.stdoutPipe (hw : w.Complete) :
    (addWriter { w with pipes := w.pipes ++ [Pipe.new] } (.pipe w.pipes.length)).Complete := by
  -- the new pipe has a new number
  have hfresh : Writer.pipe w.pipes.length ∉ w.writers := fun hmem =>
    Nat.lt_irrefl _ (hw.known _ hmem)
  refine ⟨?_, List.mem_append_left _ hw.logged, fun i hi => ?_, fun i pipe hpipe hopen => ?_⟩
  · have hnodup := hw.unique.concat hfresh
    rwa [List.concat_eq_append] at hnodup
  · show i < (w.pipes ++ [Pipe.new]).length
    rw [List.length_append, List.length_singleton]
    rcases List.mem_append.mp hi with hi | hi
    · exact Nat.lt_succ_of_lt (hw.known i hi)
    · rw [Writer.pipe.inj (List.mem_singleton.mp hi)]
      omega
  · rcases List.getElem?_concat_cases hpipe with hold | ⟨rfl, -⟩
    · exact List.mem_append_left _ (hw.listed i pipe hold hopen)
    · exact List.mem_append_right _ (List.mem_singleton_self _)

theorem closeReader_pipes {i j : Nat} {pipe : Pipe}
    (h : (w.pipes.modify i Pipe.closeReader)[j]? = some pipe) :
    pipe.readerClosed = true ∨ w.pipes[j]? = some pipe := by
  by_cases hij : i = j
  · subst hij
    rw [List.getElem?_modify_eq] at h
    obtain ⟨q, -, rfl⟩ := Option.map_eq_some_iff.mp h
    exact .inl rfl
  · rw [List.getElem?_modify_ne _ _ hij] at h
    exact .inr h

theorem Complete.closeReader (hw : w.Complete) (i : Nat) :
    Complete { w with pipes := w.pipes.modify i Pipe.closeReader } := by
  refine ⟨hw.unique, hw.logged, fun j hj => ?_, fun j pipe hpipe hopen => ?_⟩
  · show j < (w.pipes.modify i Pipe.closeReader).length
    rw [List.length_modify]
    exact hw.known j hj
  · rcases closeReader_pipes hpipe with hclosed | hold
    · simp [Pipe.isOpen, hclosed] at hopen
    · exact hw.listed j pipe hold hopen

end Broadcaster

/-! ## The invariant -/

namespace Streams

variable {s s' : Streams}

/-- What a pipe that was attached for run `k`, and whose reader has not closed, must be like. -/
structure Carries (s : Streams) (pipe : Pipe) (k : Nat) : Prop where
  sent : pipe.sent = s.outputs.getD k []
  closed : pipe.writerClosed = decide (k < s.finished)

structure Inv (s : Streams) : Prop where
  complete : s.stdout.Complete
  log_eq : s.stdout.log = s.outputs.flatten
  counted : s.runOf.length = s.stdout.pipes.length
  ran : s.running = true → s.outputs ≠ []
  attached : ∀ (i k : Nat), s.runOf[i]? = some k → k ≤ s.finished
  carries : ∀ (i : Nat) pipe k, s.stdout.pipes[i]? = some pipe → s.runOf[i]? = some k →
    pipe.readerClosed = false → s.Carries pipe k

namespace Inv

theorem opened (h : s.Opened) : s.Inv := by
  obtain ⟨hwriters, hpipes, hlog, hidle, hruns⟩ := h
  refine ⟨⟨?_, ?_, ?_, ?_⟩, hlog, ?_, ?_, ?_, ?_⟩ <;> simp [hwriters, hpipes, hruns, hidle]

theorem stdoutPipe (hs : s.Inv) (hstep : s.step .stdoutPipe = some s') : s'.Inv := by
  simp only [step] at hstep
  split at hstep
  · simp at hstep
  · next hidle =>
    cases hstep
    have hfin : s.finished = s.outputs.length := by simp [finished, hidle]
    have hfin' : ∀ stdout runOf, finished { s with stdout, runOf } = s.finished := fun _ _ => rfl
    have hcount := hs.counted
    refine ⟨hs.complete.stdoutPipe, hs.log_eq, ?_, hs.ran, fun i k hk => ?_,
      fun i pipe k hpipe hk hreader => ?_⟩
    · simp [Broadcaster.addWriter, hcount]
    · rw [hfin']
      rcases List.getElem?_concat_cases hk with hold | ⟨-, rfl⟩
      · exact hs.attached i k hold
      · omega
    · rcases List.getElem?_concat_cases hk with hold | ⟨hi, rfl⟩
      · rcases List.getElem?_concat_cases hpipe with hpipe | ⟨hi, -⟩
        · obtain ⟨hsent, hclosed⟩ := hs.carries i pipe k hpipe hold hreader
          exact ⟨hsent, hclosed⟩
        · have hlt := (List.getElem?_eq_some_iff.mp hold).1
          omega
      · rcases List.getElem?_concat_cases hpipe with hpipe | ⟨-, rfl⟩
        · have hlt := (List.getElem?_eq_some_iff.mp hpipe).1
          omega
        -- the new pipe is for the run to come
        · constructor
          · simp [Pipe.new]
          · rw [hfin', hfin]
            simp [Pipe.new]

theorem start (hs : s.Inv) (hstep : s.step .start = some s') : s'.Inv := by
  simp only [step] at hstep
  split at hstep
  · simp at hstep
  · next hidle =>
    cases hstep
    have hfin : s.finished = s.outputs.length := by simp [finished, hidle]
    have hfin' : finished { s with running := true, outputs := s.outputs ++ [[]] } =
        s.finished := by simp [finished, hidle]
    refine ⟨hs.complete, ?_, hs.counted, fun _ => by simp, fun i k hk => ?_,
      fun i pipe k hpipe hk hreader => ?_⟩
    · simp [hs.log_eq]
    · rw [hfin']
      exact hs.attached i k hk
    · obtain ⟨hsent, hclosed⟩ := hs.carries i pipe k hpipe hk hreader
      constructor
      -- a pipe for this run starts with nothing
      · rw [hsent]
        have hle := hs.attached i k hk
        rw [hfin] at hle
        by_cases hlt : k < s.outputs.length
        · simp [List.getD_eq_getElem?_getD, List.getElem?_append_left hlt]
        · have heq : k = s.outputs.length := by omega
          simp [List.getD_eq_getElem?_getD, heq]
      · rw [hfin']
        exact hclosed

theorem closeReader (hs : s.Inv) {i : Nat} (hstep : s.step (.closeReader i) = some s') :
    s'.Inv := by
  cases hstep
  refine ⟨hs.complete.closeReader i, hs.log_eq, by simp [hs.counted], hs.ran, hs.attached,
    fun j pipe k hpipe hk hreader => ?_⟩
  rcases Broadcaster.closeReader_pipes hpipe with hclosed | hold
  · simp [hclosed] at hreader
  · obtain ⟨hsent, hclosed⟩ := hs.carries j pipe k hold hk hreader
    exact ⟨hsent, hclosed⟩

/-- The monitor closes the pipes of the run. Those of earlier runs are closed already. -/
theorem finish (hs : s.Inv) (hstep : s.step .finish = some s') : s'.Inv := by
  simp only [step] at hstep
  split at hstep
  · next hrun =>
    cases hstep
    obtain ⟨hcomplete, hlog, hlen, hpipes⟩ := hs.complete.close
    have hpos := List.length_pos_iff.mpr (hs.ran hrun)
    have hfin : s.finished = s.outputs.length - 1 := by simp [finished, hrun]
    have hfin' : finished { s with stdout := s.stdout.close, running := false } =
        s.outputs.length := by simp [finished]
    refine ⟨hcomplete, ?_, by simp [hlen, hs.counted], by simp, fun i k hk => ?_,
      fun i pipe k hpipe hk hreader => ?_⟩
    · rw [hlog]
      exact hs.log_eq
    · rw [hfin']
      have hle := hs.attached i k hk
      omega
    · obtain ⟨q, hq, hsent, hwriter, hq_reader⟩ := hpipes i pipe hpipe
      obtain ⟨hqsent, -⟩ := hs.carries i q k hq hk (hq_reader ▸ hreader)
      have hle := hs.attached i k hk
      have hlt : k < s.outputs.length := by omega
      constructor
      · rw [hsent]
        exact hqsent
      · rw [hfin', hwriter hreader, decide_eq_true hlt]
  · simp at hstep

/-- The output of a run that is over, or of one to come, does not change. -/
theorem output_getD {outputs : List (List UInt8)} {p : List UInt8} {k : Nat}
    (hk : k ≠ outputs.length - 1) : (output outputs p).getD k [] = outputs.getD k [] := by
  have hne : outputs.length - 1 ≠ k := fun e => hk e.symm
  simp [output, List.getD_eq_getElem?_getD, hne]

theorem output_getD_last {outputs : List (List UInt8)} (p : List UInt8) (hne : outputs ≠ []) :
    (output outputs p).getD (outputs.length - 1) [] =
      outputs.getD (outputs.length - 1) [] ++ p := by
  have hlt : outputs.length - 1 < outputs.length := by
    have := List.length_pos_iff.mpr hne
    omega
  simp [output, List.getD_eq_getElem?_getD, List.getElem?_eq_getElem hlt]

theorem output_flatten {outputs : List (List UInt8)} (p : List UInt8) (hne : outputs ≠ []) :
    (output outputs p).flatten = outputs.flatten ++ p := by
  have hpos := List.length_pos_iff.mpr hne
  obtain ⟨before, last, after, heq, hlen, hmodify⟩ :=
    List.exists_of_modify (· ++ p) (show outputs.length - 1 < outputs.length by omega)
  -- nothing comes after the last one
  have hafter : after = [] := by
    have hlength := congrArg List.length heq
    rw [List.length_append, List.length_cons, hlen] at hlength
    exact List.length_eq_zero_iff.mp (by omega)
  subst hafter
  rw [output, hmodify, heq]
  simp

/-- A write reaches the open pipes, which are those of the current run. -/
theorem write (hs : s.Inv) {p : List UInt8} {cuts : List (Nat × Nat)}
    (hstep : s.step (.write p cuts) = some s') : s'.Inv := by
  simp only [step] at hstep
  split at hstep
  · next hrun =>
    cases hstep
    obtain ⟨hcomplete, hlog, hlen, hpipes⟩ := hs.complete.write p fun i => cuts.lookup i
    have hne := hs.ran hrun
    have hpos := List.length_pos_iff.mpr hne
    have hfin : s.finished = s.outputs.length - 1 := by simp [finished, hrun]
    have hfin' : ∀ stdout, finished { s with stdout, outputs := output s.outputs p } =
        s.finished := fun stdout => by simp [finished, output]
    refine ⟨hcomplete, ?_, by simp [hlen, hs.counted], fun _ hnil => ?_, fun i k hk => ?_,
      fun i pipe k hpipe hk hreader => ?_⟩
    · rw [hlog, hs.log_eq, output_flatten p hne]
    · rw [← List.length_eq_zero_iff, output, List.length_modify] at hnil
      omega
    · rw [hfin']
      exact hs.attached i k hk
    · obtain ⟨q, hq, hcase⟩ := hpipes i pipe hpipe
      have hle := hs.attached i k hk
      rcases hcase with ⟨hclosed, rfl⟩ | hclosed | ⟨hopen, rfl⟩
      -- the pipe of an earlier run
      · obtain ⟨hsent, hwriter⟩ := hs.carries i pipe k hq hk hreader
        have hover : k < s.finished := by
          have hw : pipe.writerClosed = true := by
            simpa [Pipe.isOpen, hreader] using hclosed
          rw [hwriter] at hw
          exact of_decide_eq_true hw
        constructor
        · rw [hsent, output_getD (by omega)]
        · rw [hfin']
          exact hwriter
      · simp [hclosed] at hreader
      -- the pipe of this run
      · obtain ⟨hsent, hwriter⟩ := hs.carries i q k hq hk hreader
        have hcurrent : k = s.outputs.length - 1 := by
          rw [(Pipe.isOpen_iff.mp hopen).1] at hwriter
          have := of_decide_eq_false hwriter.symm
          omega
        constructor
        · subst hcurrent
          show q.sent ++ p = _
          rw [hsent, output_getD_last p hne]
        · rw [hfin']
          exact hwriter
  · simp at hstep

theorem step {op : StreamOp} (hs : s.Inv) (hstep : s.step op = some s') : s'.Inv := by
  cases op with
  | stdoutPipe => exact hs.stdoutPipe hstep
  | start => exact hs.start hstep
  | write p cuts => exact hs.write hstep
  | finish => exact hs.finish hstep
  | closeReader i => exact hs.closeReader hstep

end Inv

end Streams

/-! ## All runs -/

/-- Over any number of runs, with pipes attached between them and readers that close at any
    time: the log file holds the output of all runs, and a pipe whose reader has not closed was
    sent what the run it was attached for has written, and is closed if that run is over. -/
theorem runs_isolated {s : Streams} (h : streamSystem.Reachable s) :
    s.stdout.log = s.outputs.flatten ∧
      ∀ (i : Nat) pipe k, s.stdout.pipes[i]? = some pipe → s.runOf[i]? = some k →
        pipe.readerClosed = false →
        pipe.sent = s.outputs.getD k [] ∧ pipe.writerClosed = decide (k < s.finished) := by
  have hinv : s.Inv :=
    h.invariant (fun _ => Streams.Inv.opened) fun _ _ _ hs _ hstep => hs.step hstep
  refine ⟨hinv.log_eq, fun i pipe k hpipe hk hreader => ?_⟩
  obtain ⟨hsent, hclosed⟩ := hinv.carries i pipe k hpipe hk hreader
  exact ⟨hsent, hclosed⟩

/-- Two runs. The reader of the first pipe of the first run leaves in the middle of a write; the
    second pipe gets the whole run, and nothing of the next one. -/
theorem runs_isolated_two :
    ∃ s pipe, streamSystem.Reachable s ∧ s.outputs = [[1, 2], [3]] ∧
      s.stdout.pipes[1]? = some pipe ∧ pipe.sent = [1, 2] ∧ pipe.writerClosed = true := by
  have hinit : streamSystem.Reachable ⟨⟨[.log], [], []⟩, false, [], []⟩ :=
    .init ⟨rfl, rfl, rfl, rfl, rfl⟩
  have hreach := hinit.run
    [.stdoutPipe, .stdoutPipe, .start, .write [1, 2] [(0, 1)], .finish, .stdoutPipe, .start,
      .write [3] []] rfl
  obtain ⟨hsent, hclosed⟩ := (runs_isolated hreach).2 1 _ 0 rfl rfl rfl
  exact ⟨_, _, hreach, rfl, rfl, hsent, hclosed⟩

end Docker
