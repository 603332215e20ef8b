import DockerEngine.Native.Stdin
import DockerEngine.ForStd.List

/-!
# Which run gets what is written to its stdin

Each pipe has one reader, the goroutine of the run it was taken for, as long as every
goroutine looks up `container.stdin` before the monitor of its own run replaces it and
`cmd.Start` does not fail behind it. Then whatever a client writes is handed to the process
of the run it was written for.
-/

namespace Docker.Stdin

/-- What the client has written, with the write in progress. -/
def written (p : Pipe) : List UInt8 := p.sent ++ p.data

namespace Copier

/-- The pipe the goroutine reads. -/
def source : Copier → Option Nat
  | reading p | writing p _ => some p
  | _ => none

def held : Copier → List UInt8
  | writing _ chunk => chunk
  | _ => []

end Copier

/-- The last run has still the pipe it began with. -/
def Phase.current : Phase → Bool
  | starting | running | exited => true
  | _ => false

/-- A goroutine looks up `container.stdin` before the monitor of its run has replaced it, and
    `cmd.Start` succeeds. -/
def InTime (s : Container) : Op → Prop
  | .copy k _ => ∀ r ∈ s.runs[k]?, r.copier = .spawned → k + 1 = s.runs.length ∧ s.phase.current
  | .cmdStart ok => ok = true
  | _ => True

instance (s : Container) (op : Op) : Decidable (InTime s op) :=
  match op with
  | .copy k _ => inferInstanceAs (Decidable (∀ r ∈ s.runs[k]?, _ → _ ∧ _))
  | .cmdStart _ => inferInstanceAs (Decidable (_ = _))
  | .start | .exit | .monitor | .write _ _ | .close _ => inferInstanceAs (Decidable True)

/-- Run `k` and its pipe. -/
structure Fed (k : Nat) (r : Run) (p : Pipe) : Prop where
  pipe : r.pipe = k
  source : ∀ q ∈ r.copier.source, q = k
  sent : p.sent = r.taken
  handed : r.copier ≠ .done → r.taken = r.handed ++ r.copier.held
  front : r.handed <+: r.taken
  /-- While it can be written to, the goroutine ends at the end of the pipe only. -/
  atEnd : r.copier = .done → r.stdinOpen = true →
    r.taken = r.handed ∧ p.data = [] ∧ p.writerClosed = true

structure Inv (s : Container) : Prop where
  stdin : s.stdin + 1 = s.pipes.length
  count : s.pipes.length = s.runs.length + if s.phase.current then 0 else 1
  fed : ∀ (k : Nat) r, s.runs[k]? = some r → ∃ p, s.pipes[k]? = some p ∧ Fed k r p
  unused : ∀ (k : Nat) p, s.runs.length ≤ k → s.pipes[k]? = some p → p.sent = []

namespace Inv

variable {s s' : Container}

theorem new : Inv .new where
  stdin := rfl
  count := rfl
  fed k r hr := by simp [Container.new] at hr
  unused k p _ hp := by
    have hp' : p = Pipe.new := by simpa [Container.new] using List.mem_of_getElem? hp
    rw [hp']
    rfl

theorem start (h : Inv s) (hphase : s.phase = .stopped) :
    Inv { s with
      phase := .starting
      runs := s.runs ++ [⟨s.stdin, .spawned, true, [], []⟩] } := by
  have hstdin := h.stdin
  have hcount : s.pipes.length = s.runs.length + 1 := by
    have hcount := h.count
    rwa [hphase] at hcount
  refine ⟨hstdin, by simp [Phase.current, hcount], fun k r hr => ?_, fun k p hk hp => ?_⟩
  · obtain hr | ⟨rfl, rfl⟩ := List.getElem?_concat_cases hr
    · exact h.fed k r hr
    · -- the new run gets the last pipe, which nobody has read
      have hlt : s.runs.length < s.pipes.length := by omega
      have hp := List.getElem?_eq_getElem hlt
      have hsent := h.unused _ _ (Nat.le_refl _) hp
      refine ⟨_, hp, ⟨by show s.stdin = _; omega, by simp [Copier.source], hsent, ?_, ?_, ?_⟩⟩
      · exact fun _ => rfl
      · exact List.prefix_rfl
      · simp
  · apply h.unused k p _ hp
    rw [List.length_append] at hk
    omega

/-- Run `k` and its pipe have changed. -/
theorem update (h : Inv s) {k : Nat} {r r' : Run} {p' : Pipe} (hr : s.runs[k]? = some r)
    (hf : Fed k r' p') : Inv { s with pipes := s.pipes.set k p', runs := s.runs.set k r' } := by
  have hk : k < s.runs.length := (List.getElem?_eq_some_iff.mp hr).1
  have hkp : k < s.pipes.length := by
    have hcount := h.count
    omega
  refine ⟨by simp [h.stdin], by simp [h.count], fun j r₀ hr₀ => ?_, fun j p₀ hj hp₀ => ?_⟩
  · obtain ⟨rfl, rfl⟩ | ⟨hjk, hold⟩ := List.getElem?_set_cases hr₀
    · exact ⟨p', List.getElem?_set_self hkp, hf⟩
    · rw [List.getElem?_set_ne (Ne.symm hjk)]
      exact h.fed j r₀ hold
  · rw [List.length_set] at hj
    rw [List.getElem?_set_ne (by omega)] at hp₀
    exact h.unused j p₀ hj hp₀

theorem setRun (h : Inv s) {k : Nat} {r r' : Run} {p : Pipe} (hr : s.runs[k]? = some r)
    (hp : s.pipes[k]? = some p) (hf : Fed k r' p) :
    Inv { s with runs := s.runs.set k r' } := by
  have hset : s.pipes.set k p = s.pipes := by
    obtain ⟨hlt, rfl⟩ := List.getElem?_eq_some_iff.mp hp
    exact List.set_getElem_self hlt
  have h' := h.update hr hf
  rwa [hset] at h'

/-- A pipe has changed, of which nothing was read. -/
theorem setPipe (h : Inv s) {j : Nat} {p p' : Pipe} (hp : s.pipes[j]? = some p)
    (hsent : p'.sent = p.sent)
    (hend : p.data = [] ∧ p.writerClosed = true → p'.data = [] ∧ p'.writerClosed = true) :
    Inv { s with pipes := s.pipes.set j p' } := by
  refine ⟨by simp [h.stdin], by simp [h.count], fun k r hr => ?_, fun k p₀ hk hp₀ => ?_⟩
  · obtain ⟨pk, hpk, hf⟩ := h.fed k r hr
    by_cases hjk : j = k
    · subst hjk
      cases hp.symm.trans hpk
      refine ⟨p', List.getElem?_set_self (List.getElem?_eq_some_iff.mp hp).1, ?_⟩
      exact { hf with
        sent := hsent.trans hf.sent
        atEnd := fun hdone hopen => ⟨(hf.atEnd hdone hopen).1, hend (hf.atEnd hdone hopen).2⟩ }
    · exact ⟨pk, by rw [List.getElem?_set_ne hjk, hpk], hf⟩
  · obtain ⟨rfl, rfl⟩ | ⟨-, hold⟩ := List.getElem?_set_cases hp₀
    · exact hsent.trans (h.unused k p hk hp)
    · exact h.unused k p₀ hk hold

theorem closeStdin (h : Inv s) : Inv s.closeStdin := by
  have hlen : s.closeStdin.runs.length = s.runs.length := List.length_modify _ _ _
  refine ⟨h.stdin, hlen ▸ h.count, fun k r hr => ?_,
    fun k p hk hp => h.unused k p (hlen ▸ hk) hp⟩
  rw [Container.closeStdin, List.getElem?_modify] at hr
  obtain ⟨r₀, hr₀, rfl⟩ := Option.map_eq_some_iff.mp hr
  obtain ⟨p, hp, hf⟩ := h.fed k r₀ hr₀
  refine ⟨p, hp, ?_⟩
  split
  · exact { hf with atEnd := by simp }
  · exact hf

/-- The goroutine of run `k` goes on. -/
theorem copyStep (h : Inv s) {k n : Nat} {r : Run} (hr : s.runs[k]? = some r)
    (hok : InTime s (.copy k n)) (hstep : s.copyStep k n r = some s') : Inv s' := by
  obtain ⟨p, hp, hf⟩ := h.fed k r hr
  unfold Container.copyStep at hstep
  split at hstep
  · next hc =>
    cases hstep
    -- the goroutine reads `container.stdin` here, and it is in time
    obtain ⟨hk, hphase⟩ := hok r hr hc
    have hcount := h.count
    have hstdin := h.stdin
    rw [if_pos hphase] at hcount
    have hhanded := hf.handed (by simp [hc])
    rw [hc] at hhanded
    refine h.setRun hr hp { hf with source := ?_, handed := fun _ => hhanded, atEnd := by simp }
    intro q hq
    cases hq
    omega
  · next q hc =>
    have hq : q = k := hf.source q (by rw [hc]; rfl)
    subst hq
    have hhanded := hf.handed (by simp [hc])
    rw [hc] at hhanded
    simp only [hp] at hstep
    split at hstep
    · simp at hstep
    · split at hstep
      -- `io.Copy` takes a chunk in its hands
      · next chunk pipe htake =>
        obtain ⟨-, rfl⟩ := Pipe.take_eq_some htake
        cases hstep
        refine h.update hr ⟨hf.pipe, ?_, ?_, ?_, ?_, by simp⟩
        · intro q hq
          cases hq
          rfl
        · rw [← hf.sent]
        · intro _
          rw [hhanded]
          simp [Copier.held]
        · exact hf.front.trans (List.prefix_append _ _)
      · -- or it is told the end, and has nothing left to hand on
        split at hstep
        · next hend =>
          cases hstep
          have hend' : p.data = [] ∧ p.writerClosed = true := by simpa [Pipe.atEnd] using hend
          refine h.setRun hr hp ⟨hf.pipe, by simp [Copier.source], hf.sent, by simp, hf.front, ?_⟩
          intro _ _
          exact ⟨by simpa [Copier.held] using hhanded, hend'⟩
        · simp at hstep
  · next q chunk hc =>
    have hq : q = k := hf.source q (by rw [hc]; rfl)
    subst hq
    have hhanded := hf.handed (by simp [hc])
    rw [hc] at hhanded
    split at hstep
    · cases hstep
      refine h.setRun hr hp ⟨hf.pipe, ?_, hf.sent, ?_, ?_, by simp⟩
      · intro q hq
        cases hq
        rfl
      · intro _
        rw [hhanded]
        simp [Copier.held]
      · rw [hhanded]
        exact List.prefix_rfl
    -- the process has exited: what the goroutine has is dropped
    · next hclosed =>
      cases hstep
      exact h.setRun hr hp { hf with
        source := by simp [Copier.source]
        handed := by simp
        atEnd := by simp [hclosed] }
  · simp at hstep

theorem step (h : Inv s) {op : Op} (hok : InTime s op) (hstep : s.step op = some s') : Inv s' := by
  cases op with
  | start =>
    rw [Container.step] at hstep
    split at hstep
    · next hphase =>
      cases hstep
      exact h.start hphase
    · simp at hstep
  | cmdStart ok =>
    rw [Container.step] at hstep
    split at hstep
    · next hphase =>
      have hcount := h.count
      rw [if_pos (show ok = true from hok)] at hstep
      cases hstep
      exact { h with count := by rwa [hphase] at hcount }
    · simp at hstep
  | exit =>
    rw [Container.step] at hstep
    split at hstep
    · next hphase =>
      have hcount := h.closeStdin.count
      cases hstep
      exact { h.closeStdin with
        count := by
          rw [Container.closeStdin] at hcount ⊢
          rwa [hphase] at hcount }
    · simp at hstep
  | monitor =>
    have hcount := h.count
    have hstdin := h.stdin
    rw [Container.step] at hstep
    split at hstep
    · next hphase =>
      cases hstep
      rw [hphase] at hcount
      -- the monitor makes a new pipe, which belongs to the run that comes next
      refine ⟨by simp, by simpa [Phase.current] using hcount, fun k r hr => ?_,
        fun k p hk hp => ?_⟩
      · obtain ⟨p, hp, hf⟩ := h.fed k r hr
        exact ⟨p, List.getElem?_concat_of_some hp, hf⟩
      · obtain hp | ⟨-, rfl⟩ := List.getElem?_concat_cases hp
        · exact h.unused k p hk hp
        · rfl
    · next hphase =>
      cases hstep
      exact { h with count := by rwa [hphase] at hcount }
    · simp at hstep
  | copy k n =>
    obtain ⟨r, hr, hcopy⟩ := Option.bind_eq_some_iff.mp hstep
    exact h.copyStep hr hok hcopy
  | write p b =>
    obtain ⟨pipe', hbind, rfl⟩ := Option.map_eq_some_iff.mp hstep
    obtain ⟨pipe, hpipe, hoffer⟩ := Option.bind_eq_some_iff.mp hbind
    split at hoffer
    · obtain ⟨hopen, rfl⟩ := Pipe.offer_eq_some hoffer
      refine h.setPipe hpipe rfl ?_
      rintro ⟨-, hclosed⟩
      simp [Pipe.isOpen, hclosed] at hopen
    · simp at hoffer
  | close p =>
    obtain ⟨pipe', hbind, rfl⟩ := Option.map_eq_some_iff.mp hstep
    obtain ⟨pipe, hpipe, hclose⟩ := Option.bind_eq_some_iff.mp hbind
    split at hclose
    · cases hclose
      exact h.setPipe hpipe rfl fun hend => ⟨hend.1, rfl⟩
    · simp at hclose

end Inv

namespace Fed

variable {k : Nat} {r : Run} {p : Pipe}

theorem written_eq (h : Fed k r p) (hopen : r.stdinOpen = true) :
    written p = r.handed ++ r.copier.held ++ p.data := by
  rw [written, h.sent]
  by_cases hdone : r.copier = .done
  · rw [(h.atEnd hdone hopen).1, hdone]
    simp [Copier.held]
  · rw [h.handed hdone]

/-- A goroutine that cannot go on has nothing, and there is nothing in its pipe. -/
theorem quiet {s : Container} (h : Fed k r p) (hr : s.runs[k]? = some r)
    (hp : s.pipes[k]? = some p) (hopen : r.stdinOpen = true)
    (hquiet : ∀ n, s.step (.copy k n) = none) : r.copier.held = [] ∧ p.data = [] := by
  have hcopy : s.copyStep k 1 r = none := by
    have hstep := hquiet 1
    rwa [Container.step, hr] at hstep
  unfold Container.copyStep at hcopy
  split at hcopy
  · simp at hcopy
  · next q hc =>
    have hq : q = k := h.source q (by rw [hc]; rfl)
    subst hq
    simp only [hp, if_neg Nat.one_ne_zero] at hcopy
    split at hcopy
    · simp at hcopy
    · next htake =>
      rw [hc]
      exact ⟨rfl, by simpa [Pipe.take] using htake⟩
  · simp [hopen] at hcopy
  · next hdone =>
    rw [hdone]
    exact ⟨rfl, (h.atEnd hdone hopen).2.1⟩

end Fed

/-- In every sequence of runs in which each goroutine looks up `container.stdin` in time and
    `cmd.Start` succeeds: the pipe that a client has taken for a run is read by the goroutine
    of that run alone. What was written to the pipe is handed to the process of the run in
    order. As long as the process can be written to, nothing of it is lost on the way, and
    all of it was handed over when the goroutine cannot go on. -/
theorem input_reaches {s : Container} (h : stdinSystem.ReachableVia InTime s) {k : Nat} {r : Run}
    (hr : s.runs[k]? = some r) :
    ∃ p, s.pipes[r.pipe]? = some p ∧
      (∀ j r', s.runs[j]? = some r' → j ≠ k → r'.pipe ≠ r.pipe ∧ r.pipe ∉ r'.copier.source) ∧
      p.sent = r.taken ∧
      r.handed <+: written p ∧
      (r.stdinOpen = true → written p = r.handed ++ r.copier.held ++ p.data) ∧
      (r.stdinOpen = true → (∀ n, s.step (.copy k n) = none) → r.handed = written p) := by
  have hinv : Inv s := h.invariant (fun s hs => by rw [show s = .new from hs]; exact Inv.new)
    fun _ _ _ hs hok hstep => hs.step hok hstep
  obtain ⟨p, hp, hf⟩ := hinv.fed k r hr
  refine ⟨p, hf.pipe ▸ hp, fun j r' hr' hjk => ?_, hf.sent, ?_, hf.written_eq, ?_⟩
  · obtain ⟨_, _, hf'⟩ := hinv.fed j r' hr'
    rw [hf.pipe, hf'.pipe]
    exact ⟨hjk, fun hmem => hjk (hf'.source k hmem).symm⟩
  · rw [written, hf.sent]
    exact hf.front.trans (List.prefix_append _ _)
  · intro hopen hquiet
    obtain ⟨hheld, hdata⟩ := hf.quiet hr hp hopen hquiet
    rw [hf.written_eq hopen, hheld, hdata]
    simp

/-- Two runs; the goroutine of the first one waits for input that never comes. -/
theorem input_reaches_second :
    ∃ s r p, stdinSystem.ReachableVia InTime s ∧ s.runs[1]? = some r ∧
      s.pipes[r.pipe]? = some p ∧ written p = [104, 105] ∧ r.handed = [104, 105] := by
  have hinit : stdinSystem.ReachableVia InTime .new := .init rfl
  have hreach := hinit.runVia
    [.start, .copy 0 0, .cmdStart true, .exit, .monitor, .monitor, .start, .cmdStart true,
      .write 1 [104, 105], .copy 1 0, .copy 1 8, .copy 1 8] rfl
  obtain ⟨p, hp, -, -, -, -, hquiet⟩ := input_reaches hreach (k := 1) rfl
  cases hp
  refine ⟨_, _, _, hreach, rfl, rfl, rfl, hquiet rfl fun n => ?_⟩
  cases n <;> rfl

/-- The goroutine of the first run gets to run after the monitor has replaced the pipe, and
    drains the pipe of the second run; so does the goroutine of a start that failed. -/
theorem input_stolen :
    (∃ s r r' p, stdinSystem.Reachable s ∧ s.runs = [r', r] ∧ s.pipes[r.pipe]? = some p ∧
      r.stdinOpen = true ∧ (∀ n, s.step (.copy 1 n) = none) ∧
      written p = [104, 105] ∧ r.handed = [] ∧ r'.taken = [104, 105]) ∧
    (∃ s r r' p, stdinSystem.Reachable s ∧ s.runs = [r', r] ∧ s.pipes[r.pipe]? = some p ∧
      r.stdinOpen = true ∧ (∀ n, s.step (.copy 1 n) = none) ∧
      written p = [104, 105] ∧ r.handed = [] ∧ r'.taken = [104, 105]) := by
  have hinit : stdinSystem.Reachable .new := .init rfl
  constructor
  · have hreach := hinit.run
      [.start, .cmdStart true, .exit, .monitor, .monitor, .start, .cmdStart true, .copy 1 0,
        .copy 0 0, .write 1 [104, 105], .copy 0 8, .copy 0 8] rfl
    refine ⟨_, _, _, _, hreach, rfl, rfl, rfl, fun n => ?_, rfl, rfl, rfl⟩
    cases n <;> rfl
  · have hreach := hinit.run
      [.start, .cmdStart false, .start, .cmdStart true, .copy 1 0, .copy 0 0,
        .write 0 [104, 105], .copy 0 8, .copy 0 8] rfl
    refine ⟨_, _, _, _, hreach, rfl, rfl, rfl, fun n => ?_, rfl, rfl, rfl⟩
    cases n <;> rfl

end Docker.Stdin
