import DockerEngine.Native.Wakeup

/-!
# Lost wake-ups of `bufReader`

The client looks at the buffer and at the error before it takes the mutex, and `drain` writes
both before it takes the mutex. A signal that is given after the client has looked and before it
sleeps wakes nobody; the next one makes up for it, but after an error, or when the source has
nothing more to say, there is no next one.

- `Inv`: who holds the mutex, and who sleeps
- `inTime_iff`: the runs in which the last signal is given in time
- `lost_wakeup_iff_late`: the client sleeps through its last signal in no run of this kind, and
  every other run goes on to a state in which it does
- `coarse_reachable`: a run is one of `Readers.bufSystem`, when the client stops at the error
-/

namespace Docker.Wakeup

open Go

variable {ε : Type u} {source : Source ε}

/-- `drain` holds the mutex. -/
def Drain.holds : Drain ε → Bool
  | signal _ | unlock _ => true
  | _ => false

/-- The client holds the mutex. -/
def Client.holds : Client ε → Bool
  | wait _ | unlock _ => true
  | _ => false

/-- The length of the slice of the call the client is in. -/
def Client.size : Client ε → Option Nat
  | idle | ended _ => none
  | buffer n | check n | lock n | wait n | waiting n | unlock n => some n

namespace BufReader

variable {r r' : BufReader ε} {op : Op}

/-- The client is enqueued on the condition variable. -/
def Asleep (r : BufReader ε) : Prop := .client ∈ r.cond.sleeping

instance : Decidable r.Asleep := inferInstanceAs (Decidable (_ ∈ _))

/-- There is something for the client. -/
def Ready (r : BufReader ε) : Prop := r.buf ≠ [] ∨ r.err.isSome

instance : Decidable r.Ready := inferInstanceAs (Decidable (_ ∨ _))

/-- No continuation of the run has a signal. -/
def NeverSignals (source : Source ε) (r : BufReader ε) : Prop :=
  ∀ ops r', (system source).run r ops = some r' → ∀ last, r'.drain ≠ .signal last

/-- The lost wake-up. -/
def Lost (source : Source ε) (r : BufReader ε) : Prop :=
  r.Asleep ∧ r.Ready ∧ r.NeverSignals source

/-- What the client has looked at, and found nothing, has something now. -/
def Missed (r : BufReader ε) : Prop :=
  match r.client with
  | .check _ => r.buf ≠ [] ∧ r.err = none
  | .lock _ | .wait _ => r.Ready
  | _ => False

/-- The signal that `drain` is about to give is its last one. -/
def LastSignal (source : Source ε) (r : BufReader ε) : Prop :=
  match r.drain with
  | .signal last => last = true ∨ source.next r.reads.length = none
  | _ => False

/-- The last signal is not given between the client's tests and its sleep, when what it tests
    for has come in between. -/
def InTime (source : Source ε) (r : BufReader ε) (op : Op) : Prop :=
  op = .drain → r.LastSignal source → ¬r.Missed

/-- `drain` has given its last signal. -/
def Silent (source : Source ε) (r : BufReader ε) : Prop :=
  match r.drain with
  | .unlock last => last = true ∨ source.next r.reads.length = none
  | .reading => source.next r.reads.length = none
  | .done => True
  | _ => False

/-- The client sleeps through the last signal, or is bound to. -/
def Late (source : Source ε) (r : BufReader ε) : Prop :=
  r.Silent source ∧ (r.Missed ∨ (∃ n, r.client = .waiting n) ∧ r.Asleep ∧ r.Ready)

/-- The steps of a `bufReader`. -/
inductive Moves (source : Source ε) (r : BufReader ε) : Op → BufReader ε → Prop where
  | source {b : List UInt8} {err : Option ε} (hdrain : r.drain = .reading)
      (hnext : source.next r.reads.length = some (b, err)) :
      Moves source r .source { r with drain := .got b err, reads := r.reads ++ [(b, err)] }
  | error {b : List UInt8} {err : ε} (hdrain : r.drain = .got b (some err)) :
      Moves source r .drain { r with err := some err, drain := .lock true }
  | data {b : List UInt8} (hdrain : r.drain = .got b none) :
      Moves source r .drain { r with buf := r.buf ++ b, drain := .lock false }
  | lock {last : Bool} (hdrain : r.drain = .lock last) (hfree : r.cond.owner = none) :
      Moves source r .drain
        { r with cond := ⟨some .drain, r.cond.sleeping⟩, drain := .signal last }
  | signal {last : Bool} (hdrain : r.drain = .signal last) :
      Moves source r .drain { r with cond := r.cond.signal, drain := .unlock last }
  | unlock {last : Bool} (hdrain : r.drain = .unlock last) :
      Moves source r .drain
        { r with
          cond := ⟨none, r.cond.sleeping⟩
          drain := if last then .done else .reading }
  | call {n : Nat} (hclient : r.client.size = none) (hn : 0 < n) :
      Moves source r (.read n) { r with client := .buffer n }
  | take {k n : Nat} (hclient : r.client = .buffer n) (hbuf : r.buf.take n ≠ []) :
      Moves source r (.read k)
        { r with buf := r.buf.drop n, yielded := r.yielded ++ r.buf.take n, client := .idle }
  | empty {k n : Nat} (hclient : r.client = .buffer n) (hbuf : r.buf.take n = []) :
      Moves source r (.read k) { r with client := .check n }
  | told {k n : Nat} {err : ε} (hclient : r.client = .check n) (herr : r.err = some err) :
      Moves source r (.read k) { r with client := .ended err }
  | noError {k n : Nat} (hclient : r.client = .check n) (herr : r.err = none) :
      Moves source r (.read k) { r with client := .lock n }
  | clientLock {k n : Nat} (hclient : r.client = .lock n) (hfree : r.cond.owner = none) :
      Moves source r (.read k)
        { r with cond := ⟨some .client, r.cond.sleeping⟩, client := .wait n }
  | sleep {k n : Nat} (hclient : r.client = .wait n) :
      Moves source r (.read k)
        { r with cond := ⟨none, r.cond.sleeping ++ [.client]⟩, client := .waiting n }
  | wake {k n : Nat} (hclient : r.client = .waiting n) (hawake : ¬r.Asleep)
      (hfree : r.cond.owner = none) :
      Moves source r (.read k)
        { r with cond := ⟨some .client, r.cond.sleeping⟩, client := .unlock n }
  | clientUnlock {k n : Nat} (hclient : r.client = .unlock n) :
      Moves source r (.read k)
        { r with cond := ⟨none, r.cond.sleeping⟩, client := .buffer n }

theorem step_cases (h : r.step source op = some r') : r.Moves source op r' := by
  cases op with
  | source =>
    simp only [step, sourceStep] at h
    split at h
    · next hdrain hnext => cases h; exact .source hdrain hnext
    · simp at h
  | drain =>
    simp only [step, drainStep] at h
    split at h
    · next hdrain => cases h; exact .error hdrain
    · next hdrain => cases h; exact .data hdrain
    · next hdrain =>
      obtain ⟨cond, hcond, rfl⟩ := Option.map_eq_some_iff.mp h
      obtain ⟨hfree, rfl⟩ := Cond.lock_eq_some hcond
      exact .lock hdrain hfree
    · next hdrain => cases h; exact .signal hdrain
    · next hdrain =>
      obtain ⟨cond, hcond, rfl⟩ := Option.map_eq_some_iff.mp h
      obtain ⟨-, rfl⟩ := Cond.unlock_eq_some hcond
      exact .unlock hdrain
    · simp at h
    · simp at h
  | read n =>
    simp only [step, readStep] at h
    -- a client that is not in a call begins one
    split at h
    · next hclient =>
      split at h
      · next hn =>
        cases h
        exact .call (by simp [hclient, Client.size]) hn
      · simp at h
    · next hclient =>
      split at h
      · next hn =>
        cases h
        exact .call (by simp [hclient, Client.size]) hn
      · simp at h
    · next hclient =>
      split at h
      · next hbuf => cases h; exact .take hclient hbuf
      · next hbuf => cases h; exact .empty hclient (not_not.mp hbuf)
    · next hclient =>
      split at h
      · next herr => cases h; exact .told hclient herr
      · next herr => cases h; exact .noError hclient herr
    · next hclient =>
      obtain ⟨cond, hcond, rfl⟩ := Option.map_eq_some_iff.mp h
      obtain ⟨hfree, rfl⟩ := Cond.lock_eq_some hcond
      exact .clientLock hclient hfree
    · next hclient =>
      obtain ⟨cond, hcond, rfl⟩ := Option.map_eq_some_iff.mp h
      obtain ⟨-, rfl⟩ := Cond.wait_eq_some hcond
      exact .sleep hclient
    · next hclient =>
      obtain ⟨cond, hcond, rfl⟩ := Option.map_eq_some_iff.mp h
      obtain ⟨hawake, hfree, rfl⟩ := Cond.wake_eq_some hcond
      exact .wake hclient hawake hfree
    · next hclient =>
      obtain ⟨cond, hcond, rfl⟩ := Option.map_eq_some_iff.mp h
      obtain ⟨-, rfl⟩ := Cond.unlock_eq_some hcond
      exact .clientUnlock hclient

/-! ## Who holds the mutex, and who sleeps -/

/-- The owner of the mutex is where it holds it, and only a client in `Wait` sleeps. -/
structure Inv (r : BufReader ε) : Prop where
  drain : r.cond.owner = some .drain ↔ r.drain.holds
  client : r.cond.owner = some .client ↔ r.client.holds
  sleeping : r.cond.sleeping = [] ∨ r.cond.sleeping = [.client] ∧ ∃ n, r.client = .waiting n
  positive : ∀ n, r.client.size = some n → 0 < n

theorem Inv.new : (new : BufReader ε).Inv where
  drain := by simp [BufReader.new, Cond.new, Drain.holds]
  client := by simp [BufReader.new, Cond.new, Client.holds]
  sleeping := .inl rfl
  positive n h := by simp [BufReader.new, Client.size] at h

/-- The mutex is free when neither of the two is where it holds it. -/
theorem Inv.owner_eq_none (h : r.Inv) (hdrain : r.drain.holds = false)
    (hclient : r.client.holds = false) : r.cond.owner = none := by
  have hdrains := h.drain
  have hclients := h.client
  rcases howner : r.cond.owner with _ | _ | _
  · rfl
  · simp [howner, hdrain] at hdrains
  · simp [howner, hclient] at hclients

/-- A client that is not in `Wait` does not sleep. -/
theorem Inv.sleeping_eq_nil (h : r.Inv) (hclient : ∀ n, r.client ≠ .waiting n) :
    r.cond.sleeping = [] := by
  rcases h.sleeping with hnil | ⟨-, n, hwaiting⟩
  · exact hnil
  · exact absurd hwaiting (hclient n)

theorem Inv.step (h : r.Inv) (hstep : r.step source op = some r') : r'.Inv := by
  have hdrains := h.drain
  have hclients := h.client
  have hpositive := h.positive
  cases step_cases hstep with
  | source hdrain | error hdrain | data hdrain =>
    refine ⟨?_, h.client, h.sleeping, h.positive⟩
    simpa [hdrain, Drain.holds] using hdrains
  | lock hdrain hfree =>
    refine ⟨by simp [Drain.holds], ?_, h.sleeping, h.positive⟩
    simpa [hfree] using hclients
  | signal hdrain =>
    refine ⟨?_, h.client, ?_, h.positive⟩
    · simpa [Cond.signal, hdrain, Drain.holds] using hdrains
    · rcases h.sleeping with hnil | ⟨hone, -⟩
      · simp [Cond.signal, hnil]
      · simp [Cond.signal, hone]
  | @unlock last hdrain =>
    -- the mutex was the goroutine's, and not the client's
    have howner := hdrains.mpr (by simp [hdrain, Drain.holds])
    refine ⟨?_, ?_, h.sleeping, h.positive⟩
    · cases last <;> simp [Drain.holds]
    · simpa [howner] using hclients
  | call hclient hn =>
    have hholds : r.client.holds = false := by
      cases hc : r.client <;> simp_all [Client.size, Client.holds]
    refine ⟨h.drain, ?_, .inl (h.sleeping_eq_nil ?_), ?_⟩
    · rw [hholds] at hclients
      simpa [Client.holds] using hclients
    · intro m hwaiting
      simp [hwaiting, Client.size] at hclient
    · intro m hm
      simp only [Client.size, Option.some.injEq] at hm
      omega
  | take hclient | told hclient =>
    have hawake := h.sleeping_eq_nil (by simp [hclient])
    refine ⟨h.drain, ?_, .inl hawake, by simp [Client.size]⟩
    simpa [hclient, Client.holds] using hclients
  | empty hclient | noError hclient =>
    have hawake := h.sleeping_eq_nil (by simp [hclient])
    refine ⟨h.drain, ?_, .inl hawake, ?_⟩
    · simpa [hclient, Client.holds] using hclients
    · simpa [hclient, Client.size] using hpositive
  | clientLock hclient hfree =>
    have hawake := h.sleeping_eq_nil (by simp [hclient])
    refine ⟨?_, by simp [Client.holds], .inl hawake, ?_⟩
    · simpa [hfree] using hdrains
    · simpa [hclient, Client.size] using hpositive
  | @sleep _ n hclient =>
    have hawake := h.sleeping_eq_nil (by simp [hclient])
    have howner := hclients.mpr (by simp [hclient, Client.holds])
    refine ⟨?_, by simp [Client.holds], .inr ⟨by simp [hawake], n, rfl⟩, ?_⟩
    · simpa [howner] using hdrains
    · simpa [hclient, Client.size] using hpositive
  | wake hclient hawake hfree =>
    refine ⟨?_, by simp [Client.holds], .inl ?_, ?_⟩
    · simpa [hfree] using hdrains
    · rcases h.sleeping with hnil | ⟨hone, -⟩
      · exact hnil
      · simp [Asleep, hone] at hawake
    · simpa [hclient, Client.size] using hpositive
  | clientUnlock hclient =>
    have hawake := h.sleeping_eq_nil (by simp [hclient])
    have howner := hclients.mpr (by simp [hclient, Client.holds])
    refine ⟨?_, by simp [Client.holds], .inl hawake, ?_⟩
    · simpa [howner] using hdrains
    · simpa [hclient, Client.size] using hpositive

theorem inv_of_reachable (h : (system source).Reachable r) : r.Inv :=
  h.invariant (by rintro _ rfl; exact .new) fun _ _ _ hinv _ hstep => hinv.step hstep

/-! ## The last signal -/

theorem Silent.step (h : r.Silent source) (hstep : r.step source op = some r') :
    r'.Silent source := by
  unfold Silent at h
  cases step_cases hstep with
  | source hdrain hnext => simp [hdrain, hnext] at h
  | error hdrain | data hdrain | lock hdrain | signal hdrain => simp [hdrain] at h
  | @unlock last hdrain =>
    cases last with
    | true => simp [Silent]
    | false => simpa [Silent, hdrain] using h
  | call | take | empty | told | noError | clientLock | sleep | wake | clientUnlock => exact h

theorem Silent.neverSignals (h : r.Silent source) : r.NeverSignals source := by
  intro ops r' hrun last hlast
  have hsilent : r'.Silent source :=
    System.run_invariant (P := Silent source) (system source)
      (fun _ _ _ hs hstep => hs.step hstep) h hrun
  simp [Silent, hlast] at hsilent

/-- How far `drain` is from its next signal. -/
def toSignal (r : BufReader ε) : Nat :=
  match r.drain with
  | .unlock _ => 4
  | .reading => 3
  | .got _ _ => 2
  | .lock _ => 1
  | .signal _ | .done => 0

/-- `drain` goes on to its next signal while the client leaves the mutex alone. -/
theorem drain_progress (h : r.Inv) (hclient : r.client.holds = false)
    (hsilent : ¬r.Silent source) :
    (∃ last, r.drain = .signal last) ∨
      ∃ op r', r.step source op = some r' ∧ (r'.client = r.client ∧ ¬r'.Silent source) ∧
        r'.toSignal < r.toSignal := by
  have hdrains := h.drain
  unfold Silent at hsilent
  cases hdrain : r.drain with
  | reading =>
    simp only [hdrain] at hsilent
    obtain ⟨⟨b, err⟩, hnext⟩ := Option.ne_none_iff_exists'.mp hsilent
    have hstep : r.step source .source
        = some { r with drain := .got b err, reads := r.reads ++ [(b, err)] } := by
      simp only [step, sourceStep, hdrain, hnext]
    exact .inr ⟨_, _, hstep, ⟨rfl, by simp [Silent]⟩, by simp [toSignal, hdrain]⟩
  | got b err =>
    obtain ⟨buf, err', last, hstep⟩ : ∃ buf err' last,
        r.step source .drain = some { r with buf, err := err', drain := .lock last } := by
      cases err with
      | none => exact ⟨r.buf ++ b, r.err, false, by simp only [step, drainStep, hdrain]⟩
      | some err => exact ⟨r.buf, some err, true, by simp only [step, drainStep, hdrain]⟩
    exact .inr ⟨_, _, hstep, ⟨rfl, by simp [Silent]⟩, by simp [toSignal, hdrain]⟩
  | lock last =>
    have hfree := h.owner_eq_none (by rw [hdrain]; rfl) hclient
    have hstep : r.step source .drain
        = some { r with
            cond := ⟨some .drain, r.cond.sleeping⟩, drain := .signal last } := by
      simp only [step, drainStep, hdrain, Cond.lock, hfree, if_true, Option.map_some]
    exact .inr ⟨_, _, hstep, ⟨rfl, by simp [Silent]⟩, by simp [toSignal, hdrain]⟩
  | signal last => exact .inl ⟨last, rfl⟩
  | unlock last =>
    have howner := hdrains.mpr (by simp [hdrain, Drain.holds])
    simp only [hdrain, not_or, Bool.not_eq_true] at hsilent
    have hstep : r.step source .drain
        = some { r with cond := ⟨none, r.cond.sleeping⟩, drain := .reading } := by
      simp [step, drainStep, hdrain, Cond.unlock, howner, hsilent.1]
    exact .inr ⟨_, _, hstep, ⟨rfl, hsilent.2⟩, by simp [toSignal, hdrain]⟩
  | done => simp [hdrain] at hsilent

/-- While the client sleeps, only a `drain` that has given its last signal gives none again. -/
theorem Asleep.silent (h : r.Inv) (hasleep : r.Asleep) (hnever : r.NeverSignals source) :
    r.Silent source := by
  by_contra hsilent
  have hclient : r.client.holds = false := by
    rcases h.sleeping with hnil | ⟨-, n, hwaiting⟩
    · simp [Asleep, hnil] at hasleep
    · simp [hwaiting, Client.holds]
  obtain ⟨ops, r', hrun, -, last, hlast⟩ := System.run_to (system source) toSignal
    (P := fun r => r.Inv ∧ r.client.holds = false ∧ ¬r.Silent source)
    (Q := fun r => ∃ last, r.drain = .signal last)
    (fun s hs => by
      rcases drain_progress hs.1 hs.2.1 hs.2.2 with hsignal | ⟨op, s', hstep, hs', hlt⟩
      · exact .inl hsignal
      · exact .inr ⟨op, s', hstep, ⟨hs.1.step hstep, by rw [hs'.1]; exact hs.2.1, hs'.2⟩, hlt⟩)
    ⟨h, hclient, hsilent⟩
  exact hnever ops r' hrun last hlast

/-! ## Signals in time -/

/-- A step of the client that finds what it waits for keeps it from being late. -/
theorem not_late_step (h : r.Inv) (hlate : ¬r.Late source) (htime : r.InTime source op)
    (hstep : r.step source op = some r') : ¬r'.Late source := by
  rintro ⟨hsilent, hwaits⟩
  cases step_cases hstep with
  | source | error | data | lock => exact hsilent
  | @signal last hdrain =>
    -- this was the last signal, and it has woken the client if it was asleep
    have hmissed := htime rfl (by simpa [LastSignal, Silent, hdrain] using hsilent)
    rcases hwaits with hwaits | ⟨-, hasleep, -⟩
    · exact hmissed hwaits
    · rcases h.sleeping with hnil | ⟨hone, -⟩
      · simp [Asleep, Cond.signal, hnil] at hasleep
      · simp [Asleep, Cond.signal, hone] at hasleep
  | @unlock last hdrain =>
    refine hlate ⟨?_, hwaits⟩
    cases last with
    | true => simp [Silent, hdrain]
    | false => simpa [Silent, hdrain] using hsilent
  | call hclient =>
    have hawake := h.sleeping_eq_nil (by rintro n hn; simp [hn, Client.size] at hclient)
    simp [Missed, Asleep, hawake] at hwaits
  | take hclient | told hclient =>
    have hawake := h.sleeping_eq_nil (by simp [hclient])
    simp [Missed, Asleep, hawake] at hwaits
  | @empty _ n hclient hbuf =>
    have hawake := h.sleeping_eq_nil (by simp [hclient])
    have hn := h.positive n (by simp [hclient, Client.size])
    have hnil : r.buf = [] := by
      rcases List.take_eq_nil_iff.mp hbuf with h0 | hnil
      · omega
      · exact hnil
    simp [Missed, Asleep, hawake, hnil] at hwaits
  | noError hclient herr =>
    have hawake := h.sleeping_eq_nil (by simp [hclient])
    refine hlate ⟨hsilent, .inl ?_⟩
    simpa [Missed, Ready, Asleep, hawake, hclient, herr] using hwaits
  | clientLock hclient =>
    have hawake := h.sleeping_eq_nil (by simp [hclient])
    refine hlate ⟨hsilent, .inl ?_⟩
    simpa [Missed, Ready, Asleep, hawake, hclient] using hwaits
  | sleep hclient =>
    refine hlate ⟨hsilent, .inl ?_⟩
    simpa [Missed, Ready, Asleep, hclient] using hwaits
  | wake hclient hawake =>
    rcases hwaits with hwaits | ⟨-, hasleep, -⟩
    · exact hwaits
    · exact hawake hasleep
  | clientUnlock hclient =>
    have hawake := h.sleeping_eq_nil (by simp [hclient])
    simp [Missed, Asleep, hawake] at hwaits

/-- A signal that is not in time leaves the client late. -/
theorem late_of_not_inTime (htime : ¬r.InTime source op) (hstep : r.step source op = some r') :
    r'.Late source := by
  simp only [InTime, Classical.not_imp, not_not] at htime
  obtain ⟨rfl, hlast, hmissed⟩ := htime
  unfold LastSignal at hlast
  cases step_cases hstep with
  | signal hdrain => exact ⟨by simpa [Silent, hdrain] using hlast, .inl hmissed⟩
  | error hdrain | data hdrain | lock hdrain | unlock hdrain => simp [hdrain] at hlast

/-- A client that is late stays late. -/
theorem Late.step (h : r.Late source) (hstep : r.step source op = some r') :
    r'.Late source := by
  obtain ⟨hsilent, hwaits⟩ := h
  refine ⟨hsilent.step hstep, ?_⟩
  unfold Missed at hwaits
  cases step_cases hstep with
  -- `drain` is silent, so only its last `Unlock` is possible
  | source hdrain hnext => simp [Silent, hdrain, hnext] at hsilent
  | error hdrain | data hdrain | lock hdrain | signal hdrain => simp [Silent, hdrain] at hsilent
  | unlock => exact hwaits
  -- a client that has missed something is between its tests and its sleep
  | call hclient =>
    cases hc : r.client <;> simp [hc, Client.size] at hclient hwaits
  | take hclient | clientUnlock hclient | empty hclient => simp [hclient] at hwaits
  | told hclient herr => simp [hclient, herr] at hwaits
  | noError hclient =>
    rw [hclient] at hwaits
    simp only [reduceCtorEq, exists_false, false_and, or_false] at hwaits
    exact .inl (.inl hwaits.1)
  | clientLock hclient =>
    rw [hclient] at hwaits
    simp only [reduceCtorEq, exists_false, false_and, or_false] at hwaits
    exact .inl hwaits
  | @sleep _ n hclient =>
    rw [hclient] at hwaits
    simp only [reduceCtorEq, exists_false, false_and, or_false] at hwaits
    exact .inr ⟨⟨n, rfl⟩, by simp [Asleep], hwaits⟩
  | wake hclient hawake => simp [hclient, hawake] at hwaits

/-! ## The runs without a lost wake-up -/

/-- The runs in which the last signal is given in time are those in which the client is not
    late. -/
theorem inTime_iff (h : (system source).Reachable r) :
    (system source).ReachableVia (InTime source) r ↔ ¬r.Late source :=
  h.via_iff
    (by rintro _ rfl; simp [Late, Missed, BufReader.new])
    (fun _ _ _ hs hlate htime hstep => not_late_step (inv_of_reachable hs) hlate htime hstep)
    (fun _ _ _ htime hstep => late_of_not_inTime htime hstep)
    (fun _ _ _ hlate hstep => hlate.step hstep)

theorem Lost.late (h : r.Inv) (hlost : r.Lost source) : r.Late source := by
  obtain ⟨hasleep, hready, hnever⟩ := hlost
  refine ⟨hasleep.silent h hnever, .inr ⟨?_, hasleep, hready⟩⟩
  rcases h.sleeping with hnil | ⟨-, hwaiting⟩
  · simp [Asleep, hnil] at hasleep
  · exact hwaiting

/-- How far a client that is late is from its sleep, and `drain` from the mutex. -/
def toSleep (r : BufReader ε) : Nat :=
  (match r.drain with
    | .unlock _ => 1
    | _ => 0) +
  match r.client with
  | .check _ => 3
  | .lock _ => 2
  | .wait _ => 1
  | _ => 0

/-- A client that is late and not asleep goes on, once `drain` has let go of the mutex. -/
theorem late_progress (h : r.Inv) (hlate : r.Late source) :
    r.Lost source ∨ ∃ op r', r.step source op = some r' ∧ r'.toSleep < r.toSleep := by
  obtain ⟨hsilent, hmissed | ⟨-, hasleep, hready⟩⟩ := hlate
  · have hdrains := h.drain
    have hclients := h.client
    refine .inr ?_
    -- the client is on its way to sleep; it may have to wait for the mutex
    unfold Missed at hmissed
    cases hclient : r.client with
    | check n =>
      rw [hclient] at hmissed
      refine ⟨.read n, { r with client := .lock n }, ?_, ?_⟩
      · simp only [step, readStep, hclient, hmissed.2]
      · simp [toSleep, hclient]
    | lock n =>
      cases hdrain : r.drain with
      | unlock last =>
        have howner := hdrains.mpr (by simp [hdrain, Drain.holds])
        refine ⟨.drain, { r with
          cond := ⟨none, r.cond.sleeping⟩, drain := if last then .done else .reading }, ?_, ?_⟩
        · simp only [step, drainStep, hdrain, Cond.unlock, howner, if_true, Option.map_some]
        · cases last <;> simp [toSleep, hclient, hdrain]
      | reading | done =>
        have hfree := h.owner_eq_none (by rw [hdrain]; rfl) (by rw [hclient]; rfl)
        refine ⟨.read n, { r with
          cond := ⟨some .client, r.cond.sleeping⟩, client := .wait n }, ?_, ?_⟩
        · simp only [step, readStep, hclient, Cond.lock, hfree, if_true, Option.map_some]
        · simp [toSleep, hclient, hdrain]
      | got | lock | signal => simp [Silent, hdrain] at hsilent
    | wait n =>
      have howner := hclients.mpr (by simp [hclient, Client.holds])
      refine ⟨.read n, { r with
        cond := ⟨none, r.cond.sleeping ++ [.client]⟩, client := .waiting n }, ?_, ?_⟩
      · simp only [step, readStep, hclient, Cond.wait, howner, if_true, Option.map_some]
      · simp [toSleep, hclient]
    | idle | buffer | waiting | unlock | ended => simp [hclient] at hmissed
  · exact .inl ⟨hasleep, hready, hsilent.neverSignals⟩

theorem Late.exists_lost (h : r.Inv) (hlate : r.Late source) :
    ∃ ops r', (system source).run r ops = some r' ∧ r'.Lost source := by
  obtain ⟨ops, r', hrun, -, hlost⟩ := System.run_to (system source) toSleep
    (P := fun r => r.Inv ∧ r.Late source) (Q := Lost source)
    (fun s hs => by
      rcases late_progress hs.1 hs.2 with hlost | ⟨op, s', hstep, hlt⟩
      · exact .inl hlost
      · exact .inr ⟨op, s', hstep, ⟨hs.1.step hstep, hs.2.step hstep⟩, hlt⟩)
    ⟨h, hlate⟩
  exact ⟨ops, r', hrun, hlost⟩

/-- No wake-up is lost in a run whose last signal is given in time, and every other run goes on
    to a state with a lost wake-up. -/
theorem lost_wakeup_iff_late (source : Source ε) :
    (∀ r, (system source).ReachableVia (InTime source) r → ¬r.Lost source) ∧
      ∀ r, (system source).Reachable r → ¬(system source).ReachableVia (InTime source) r →
        ∃ ops r', (system source).run r ops = some r' ∧ r'.Lost source := by
  constructor
  · intro r hvia hlost
    have hreach : (system source).Reachable r := hvia.mono fun _ _ _ => trivial
    exact (inTime_iff hreach).mp hvia (hlost.late (inv_of_reachable hreach))
  · intro r hreach hvia
    have hlate := not_not.mp (mt (inTime_iff hreach).mpr hvia)
    exact hlate.exists_lost (inv_of_reachable hreach)

end BufReader

/-- A source at its end: every `Read` returns end of file. -/
def eofSource : Source String := ⟨fun _ => some ([], some "EOF"), by simp⟩

namespace BufReader

/-- `drain` meets the end of the source, and signals it, after the client has looked for an
    error and before it takes the mutex. -/
def lateRun : List Op :=
  [.read 1, .read 1, .read 1, .source, .drain, .drain, .drain, .drain, .read 1, .read 1]

theorem last_signal_lost :
    ∃ r, (system eofSource).Reachable r ∧ r.Lost eofSource := by
  have hrun : (system eofSource).run .new lateRun
      = some ⟨[], some "EOF", ⟨none, [.client]⟩, .done, .waiting 1, [([], some "EOF")], []⟩ := by
    decide
  refine ⟨_, System.Reachable.run (.init rfl) _ hrun, ?_, ?_, ?_⟩
  · decide
  · decide
  · exact Silent.neverSignals trivial

end BufReader

/-! ## The runs of `Readers.BufReader` -/

section Coarse

open Readers (bufSystem)

def Drain.coarse : Drain ε → Readers.Drain ε
  | reading | unlock false => .reading
  | got b err => .got b err
  | lock last | signal last => .signalling last
  | unlock true | done => .done

/-- A client that was woken is back at the buffer. -/
def Client.coarse (asleep : Bool) : Client ε → Readers.Client ε
  | idle => .idle
  | buffer n | unlock n => .buffer n
  | check n => .check n
  | lock n | wait n => .lock n
  | waiting n => if asleep then .waiting n else .buffer n
  | ended err => .ended err

/-- The state without the mutex. -/
def BufReader.coarse (r : BufReader ε) : Readers.BufReader ε :=
  ⟨r.buf, r.err, r.drain.coarse, r.client.coarse (decide (.client ∈ r.cond.sleeping)),
    r.reads, r.yielded⟩

/-- The client does not call `Read` again once it was told the error. -/
def StopsAtError (r : BufReader ε) (op : Op) : Prop :=
  ∀ n err, op = .read n → r.client ≠ .ended err

/-- A step of the `bufReader` is one of the coarser model, or is not seen there. -/
theorem coarse_step {r r' : BufReader ε} {op : Op} (h : r.Inv) (hstops : StopsAtError r op)
    (hstep : r.step source op = some r') :
    r'.coarse = r.coarse ∨ ∃ op', (bufSystem ε).step r.coarse op' = some r'.coarse := by
  cases BufReader.step_cases hstep with
  | @source b err hdrain hnext =>
    have hb := source.fits _ b err hnext
    refine .inr ⟨.source b err, ?_⟩
    simp [bufSystem, Readers.BufReader.step, Readers.BufReader.sourceStep, BufReader.coarse,
      hdrain, Drain.coarse, hb]
  | error hdrain | data hdrain =>
    refine .inr ⟨.drain, ?_⟩
    simp [bufSystem, Readers.BufReader.step, Readers.BufReader.drainStep, BufReader.coarse,
      hdrain, Drain.coarse]
  | lock hdrain =>
    refine .inl ?_
    simp [BufReader.coarse, hdrain, Drain.coarse]
  | @signal last hdrain =>
    -- the client that sleeps is woken
    have hclient (asleep : Bool) : (r.client.coarse asleep).signal = r.client.coarse false := by
      cases r.client <;> cases asleep <;> simp [Client.coarse, Readers.Client.signal]
    have hawake : (.client : Goroutine) ∉ r.cond.sleeping.tail := by
      rcases h.sleeping with hnil | ⟨hone, -⟩
      · simp [hnil]
      · simp [hone]
    refine .inr ⟨.drain, ?_⟩
    cases last <;>
      simp [bufSystem, Readers.BufReader.step, Readers.BufReader.drainStep, BufReader.coarse,
        hdrain, Drain.coarse, Cond.signal, hawake, hclient]
  | @unlock last hdrain =>
    refine .inl ?_
    cases last <;> simp [BufReader.coarse, hdrain, Drain.coarse]
  | @call n hclient hn =>
    refine .inr ⟨.read n, ?_⟩
    cases hc : r.client with
    | idle =>
      simp [bufSystem, Readers.BufReader.step, Readers.BufReader.readStep, BufReader.coarse, hc,
        Client.coarse, hn]
    | ended err => exact absurd hc (hstops n err rfl)
    | buffer | check | lock | wait | waiting | unlock => simp [hc, Client.size] at hclient
  | @take k n hclient hbuf =>
    refine .inr ⟨.read k, ?_⟩
    simp only [bufSystem, Readers.BufReader.step, Readers.BufReader.readStep, BufReader.coarse,
      hclient, Client.coarse, if_pos hbuf]
  | @empty k n hclient hbuf =>
    refine .inr ⟨.read k, ?_⟩
    simp only [bufSystem, Readers.BufReader.step, Readers.BufReader.readStep, BufReader.coarse,
      hclient, Client.coarse, if_neg (not_not.mpr hbuf)]
  | @told k n err hclient herr =>
    refine .inr ⟨.read k, ?_⟩
    simp only [bufSystem, Readers.BufReader.step, Readers.BufReader.readStep, BufReader.coarse,
      hclient, Client.coarse, herr]
  | @noError k n hclient herr =>
    refine .inr ⟨.read k, ?_⟩
    simp only [bufSystem, Readers.BufReader.step, Readers.BufReader.readStep, BufReader.coarse,
      hclient, Client.coarse, herr]
  | clientLock hclient =>
    refine .inl ?_
    simp only [BufReader.coarse, hclient, Client.coarse]
  | @sleep k n hclient =>
    refine .inr ⟨.read k, ?_⟩
    simp [bufSystem, Readers.BufReader.step, Readers.BufReader.readStep, BufReader.coarse,
      hclient, Client.coarse]
  | wake hclient hawake =>
    refine .inl ?_
    have hsleeping : .client ∉ r.cond.sleeping := hawake
    simp [BufReader.coarse, hclient, Client.coarse, hsleeping]
  | clientUnlock hclient =>
    refine .inl ?_
    simp only [BufReader.coarse, hclient, Client.coarse]

/-- The runs of a client that stops at the error are runs of the coarser model. -/
theorem coarse_reachable {r : BufReader ε}
    (h : (system source).ReachableVia StopsAtError r) : (bufSystem ε).Reachable r.coarse :=
  h.simulation BufReader.coarse (by rintro _ rfl; rfl) fun _ _ _ hreach hstops hstep =>
    coarse_step (BufReader.inv_of_reachable hreach) hstops hstep

end Coarse

end Docker.Wakeup
