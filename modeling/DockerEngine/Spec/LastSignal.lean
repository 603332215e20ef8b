import DockerEngine.Spec.Wakeup

/-!
# Whether the client of a `bufReader` is told the end

A client that reads until it is told the error sleeps through the last signal if it looks for the
error too early and takes the mutex too late. As long as it has not, `drain` and the client can
be scheduled such that the client is told.

- `Overslept`: the last signal was given, or is about to be given under the mutex, and the client
  has looked before
- `Overslept.step`: this stays so, and the client is never told
- `Sound.progress`: otherwise the end of the source comes nearer to the client
-/

namespace Docker.Wakeup

variable {ε : Type u} {source : Source ε}

/-- `drain` has met an error. -/
def Drain.last : Drain ε → Bool
  | lock last | signal last | unlock last => last
  | done => true
  | _ => false

/-- How far `drain` is from its end. -/
def Drain.toEnd : Drain ε → Nat
  | done => 0
  | unlock true => 1
  | signal true => 2
  | lock true => 3
  | got _ (some _) => 4
  | reading => 5
  | unlock false => 6
  | signal false => 7
  | lock false => 8
  | got _ none => 9

/-- How far the client is from its next look at the buffer, and behind it. -/
def Client.toEnd : Client ε → Nat
  | ended _ => 0
  | check _ => 1
  | buffer _ => 2
  | idle | unlock _ => 3
  | waiting _ => 4
  | wait _ => 5
  | lock _ => 6

/-- What `drain` has read and not yet written to the buffer. -/
def Drain.pending : Drain ε → Nat
  | got b none => b.length
  | _ => 0

namespace BufReader

variable {r r' : BufReader ε} {op : Op} {err : ε} {n : Nat}

/-- The error is there as soon as `drain` has met it. -/
structure Sound (r : BufReader ε) : Prop extends r.Inv where
  err_isSome : r.err.isSome = r.drain.last

theorem Sound.new : (new : BufReader ε).Sound := ⟨.new, rfl⟩

theorem Sound.step (h : r.Sound) (hstep : r.step source op = some r') : r'.Sound := by
  refine ⟨h.toInv.step hstep, ?_⟩
  have herr := h.err_isSome
  cases step_cases hstep with
  | source hdrain | data hdrain | lock hdrain | signal hdrain =>
    rw [hdrain] at herr
    exact herr
  | error => rfl
  | @unlock last hdrain =>
    rw [hdrain] at herr
    cases last <;> exact herr
  | call | take | empty | told | noError | clientLock | sleep | wake | clientUnlock => exact herr

/-- The client has looked for the error before it was there, and `drain` gives its last signal
    before the client sleeps. -/
def Overslept (r : BufReader ε) : Prop :=
  match r.drain with
  | .signal true => ∃ n, r.client = .lock n
  | .unlock true | .done => (∃ n, r.client = .lock n ∨ r.client = .wait n) ∨ r.Asleep
  | _ => False

/-- A `drain` that does not hold the mutex, and is not at its end, will wake the client. -/
theorem not_overslept_of_drain (hdrain : r.drain.holds = false) (hdone : r.drain ≠ .done) :
    ¬r.Overslept := by
  unfold Overslept
  split
  · next hsignal =>
    rw [hsignal] at hdrain
    cases hdrain
  · next hunlock =>
    rw [hunlock] at hdrain
    cases hdrain
  · next heq => exact absurd heq hdone
  · exact id

/-- A client that has overslept is on its way to sleep, or asleep. -/
theorem Overslept.client (h : r.Inv) (hover : r.Overslept) :
    (∃ n, r.client = .lock n ∨ r.client = .wait n) ∨
      ((∃ n, r.client = .waiting n) ∧ r.Asleep) := by
  have hasleep : r.Asleep → (∃ n, r.client = .waiting n) ∧ r.Asleep := by
    intro hasleep
    refine ⟨?_, hasleep⟩
    rcases h.sleeping with hnil | ⟨-, hwaiting⟩
    · rw [Asleep, hnil] at hasleep
      exact absurd hasleep List.not_mem_nil
    · exact hwaiting
  unfold Overslept at hover
  split at hover
  · obtain ⟨n, hn⟩ := hover
    exact .inl ⟨n, .inl hn⟩
  · exact hover.imp id hasleep
  · exact hover.imp id hasleep
  · exact hover.elim

theorem Overslept.not_ended (h : r.Inv) (hover : r.Overslept) (err : ε) :
    r.client ≠ .ended err := by
  intro hclient
  obtain ⟨n, hn | hn⟩ | ⟨⟨n, hn⟩, -⟩ := hover.client h <;> cases hclient.symm.trans hn

/-- A client that has overslept is never woken. -/
theorem Overslept.step (h : r.Inv) (hover : r.Overslept) (hstep : r.step source op = some r') :
    r'.Overslept := by
  have hdrains := h.drain
  have hon := hover.client h
  cases step_cases hstep with
  | source hdrain | error hdrain | data hdrain | lock hdrain =>
    rw [Overslept, hdrain] at hover
    exact hover.elim
  | @signal last hdrain =>
    rw [Overslept, hdrain] at hover
    cases last with
    | false => exact hover.elim
    | true =>
      obtain ⟨n, hn⟩ := hover
      exact .inl ⟨n, .inl hn⟩
  | @unlock last hdrain =>
    rw [Overslept, hdrain] at hover
    cases last with
    | false => exact hover.elim
    | true => exact hover
  -- the client takes the mutex and sleeps, when it gets it
  | @clientLock _ n hclient hfree =>
    unfold Overslept at hover ⊢
    split at hover
    · next hdrain =>
      rw [hfree, hdrain] at hdrains
      cases hdrains.mpr rfl
    · next hdrain =>
      rw [hdrain]
      exact .inl ⟨n, .inr rfl⟩
    · next hdrain =>
      rw [hdrain]
      exact .inl ⟨n, .inr rfl⟩
    · exact hover.elim
  | @sleep _ n hclient =>
    unfold Overslept at hover ⊢
    split at hover
    · obtain ⟨m, hm⟩ := hover
      cases hclient.symm.trans hm
    · next hdrain =>
      rw [hdrain]
      exact .inr (List.mem_append_right _ List.mem_cons_self)
    · next hdrain =>
      rw [hdrain]
      exact .inr (List.mem_append_right _ List.mem_cons_self)
    · exact hover.elim
  | wake hclient hawake =>
    obtain ⟨m, hm | hm⟩ | ⟨-, hasleep⟩ := hon
    · cases hclient.symm.trans hm
    · cases hclient.symm.trans hm
    · exact absurd hasleep hawake
  | call hclient =>
    obtain ⟨m, hm | hm⟩ | ⟨⟨m, hm⟩, -⟩ := hon <;> cases (congrArg Client.size hm).symm.trans hclient
  | take hclient | empty hclient | told hclient | noError hclient | clientUnlock hclient =>
    obtain ⟨m, hm | hm⟩ | ⟨⟨m, hm⟩, -⟩ := hon <;> cases hclient.symm.trans hm

/-! ## Otherwise the client is told -/

/-- How far the client is from being told, with a source at its end. -/
def toEnd (r : BufReader ε) : Nat :=
  8 * (r.drain.toEnd + r.buf.length + r.drain.pending) + r.client.toEnd

/-- A client that is neither on its way to sleep nor asleep has not overslept. -/
theorem not_overslept_of_awake (hnil : r.cond.sleeping = []) (hclient : r.client.toEnd ≤ 3) :
    ¬r.Overslept := by
  have hlock : ∀ m, r.client ≠ .lock m := by
    intro m hm
    rw [hm] at hclient
    exact absurd hclient (show ¬6 ≤ 3 by decide)
  have hwait : ∀ m, r.client ≠ .wait m := by
    intro m hm
    rw [hm] at hclient
    exact absurd hclient (show ¬5 ≤ 3 by decide)
  have hawake : ¬r.Asleep := by
    rw [Asleep, hnil]
    exact List.not_mem_nil
  unfold Overslept
  split
  · rintro ⟨n, hn⟩
    exact hlock n hn
  · rintro (⟨n, hn | hn⟩ | hasleep)
    · exact hlock n hn
    · exact hwait n hn
    · exact hawake hasleep
  · rintro (⟨n, hn | hn⟩ | hasleep)
    · exact hlock n hn
    · exact hwait n hn
    · exact hawake hasleep
  · exact id

/-- `drain` goes on and does not miss the client, which leaves the mutex alone. -/
theorem Sound.drain_goes (h : r.Sound) (err : ε) (hover : ¬r.Overslept)
    (hclient : r.client.holds = false) (hlock : ∀ n, r.client = .lock n → r.drain.holds = true)
    (hdone : r.drain ≠ .done) :
    ∃ op, (op = .source ∨ op = .drain) ∧ ∃ r', r.step (.ended err) op = some r' ∧
      ¬r'.Overslept ∧ r'.toEnd < r.toEnd := by
  have hdrains := h.drain
  cases hdrain : r.drain with
  | reading =>
    refine ⟨.source, .inl rfl, { r with
      drain := .got [] (some err)
      reads := r.reads ++ [([], some err)] }, ?_, id, ?_⟩
    · simp only [BufReader.step, sourceStep, hdrain, Source.ended]
    · simp [toEnd, hdrain, Drain.toEnd, Drain.pending]
  | got b res =>
    cases res with
    | none =>
      refine ⟨.drain, .inr rfl, { r with buf := r.buf ++ b, drain := .lock false }, ?_, id, ?_⟩
      · simp only [BufReader.step, drainStep, hdrain]
      · simp only [toEnd, hdrain, Drain.toEnd, Drain.pending, List.length_append]
        omega
    | some e =>
      refine ⟨.drain, .inr rfl, { r with err := some e, drain := .lock true }, ?_, id, ?_⟩
      · simp only [BufReader.step, drainStep, hdrain]
      · simp [toEnd, hdrain, Drain.toEnd, Drain.pending]
  | lock last =>
    have hfree := h.owner_eq_none (by rw [hdrain]; rfl) hclient
    refine ⟨.drain, .inr rfl, { r with
      cond := ⟨some .drain, r.cond.sleeping⟩
      drain := .signal last }, ?_, ?_, ?_⟩
    · simp only [BufReader.step, drainStep, hdrain, Cond.lock, hfree, if_true, Option.map_some]
    · cases last with
      | false => exact id
      | true =>
        -- a client that wants the mutex waits until `drain` has left it
        rintro ⟨n, hn⟩
        have hholds := hlock n hn
        rw [hdrain] at hholds
        cases hholds
    · cases last <;> simp [toEnd, hdrain, Drain.toEnd, Drain.pending]
  | signal last =>
    refine ⟨.drain, .inr rfl, { r with
      cond := r.cond.signal
      drain := .unlock last }, ?_, ?_, ?_⟩
    · simp only [BufReader.step, drainStep, hdrain]
    · cases last with
      | false => exact id
      | true =>
        rw [Overslept, hdrain] at hover
        rintro (⟨n, hn | hn⟩ | hasleep)
        · exact hover ⟨n, hn⟩
        · rw [show r.client = .wait n from hn] at hclient
          cases hclient
        · -- the only one that can be asleep has been woken
          rcases h.sleeping with hnil | ⟨hone, -⟩
          · simp [Asleep, Cond.signal, hnil] at hasleep
          · simp [Asleep, Cond.signal, hone] at hasleep
    · cases last <;> simp [toEnd, hdrain, Drain.toEnd, Drain.pending]
  | unlock last =>
    have howner := hdrains.mpr (by rw [hdrain]; rfl)
    refine ⟨.drain, .inr rfl, { r with
      cond := ⟨none, r.cond.sleeping⟩
      drain := if last then .done else .reading }, ?_, ?_, ?_⟩
    · simp only [BufReader.step, drainStep, hdrain, Cond.unlock, howner, if_true, Option.map_some]
    · rw [Overslept, hdrain] at hover
      cases last with
      | false => exact id
      | true => exact hover
    · cases last <;> simp [toEnd, hdrain, Drain.toEnd, Drain.pending]
  | done => exact absurd hdrain hdone

/-- A client in a call of `Read`, or between two calls, comes nearer to the end, or it waits for
    `drain`. -/
theorem Sound.client_goes (h : r.Sound) (source : Source ε) (hn : 0 < n) (hover : ¬r.Overslept)
    (hended : ∀ err, r.client ≠ .ended err)
    (hholds : (∃ m, r.client = .lock m) → r.drain.holds = false)
    (hrests : r.client.holds = false → (∀ m, r.client ≠ .lock m) → r.drain = .done) :
    ∃ r', r.step source (.read n) = some r' ∧ ¬r'.Overslept ∧ r'.toEnd < r.toEnd := by
  have hclients := h.client
  cases hclient : r.client with
  | ended err => exact absurd hclient (hended err)
  | idle =>
    have hnil := h.sleeping_eq_nil fun m hm => by cases hclient.symm.trans hm
    refine ⟨{ r with client := .buffer n }, ?_, ?_, ?_⟩
    · simp only [BufReader.step, readStep, hclient, if_pos hn]
    · exact not_overslept_of_awake hnil (show 2 ≤ 3 by decide)
    · simp only [toEnd, hclient, Client.toEnd]
      omega
  | buffer m =>
    have hm := h.positive m (by rw [hclient]; rfl)
    have hnil := h.sleeping_eq_nil fun m hm => by cases hclient.symm.trans hm
    by_cases hbuf : r.buf.take m = []
    · refine ⟨{ r with client := .check m }, ?_, ?_, ?_⟩
      · simp only [BufReader.step, readStep, hclient, if_neg (not_not.mpr hbuf)]
      · exact not_overslept_of_awake hnil (show 1 ≤ 3 by decide)
      · simp only [toEnd, hclient, Client.toEnd]
        omega
    · refine ⟨{ r with
        buf := r.buf.drop m
        yielded := r.yielded ++ r.buf.take m
        client := .idle }, ?_, ?_, ?_⟩
      · simp only [BufReader.step, readStep, hclient, if_pos hbuf]
      · exact not_overslept_of_awake hnil (show 3 ≤ 3 by decide)
      · have hpos : 0 < r.buf.length := by
          apply List.length_pos_iff.mpr
          intro hempty
          rw [hempty, List.take_nil] at hbuf
          exact hbuf rfl
        simp only [toEnd, hclient, Client.toEnd, List.length_drop]
        omega
  | check m =>
    -- `drain` is done, so there is an error to return
    have hdone := hrests (by rw [hclient]; rfl) fun m hm => by cases hclient.symm.trans hm
    have herr := h.err_isSome
    rw [hdone] at herr
    obtain ⟨err, herr⟩ := Option.isSome_iff_exists.mp herr
    have hnil := h.sleeping_eq_nil fun m hm => by cases hclient.symm.trans hm
    refine ⟨{ r with client := .ended err }, ?_, ?_, ?_⟩
    · simp only [BufReader.step, readStep, hclient, herr]
    · exact not_overslept_of_awake hnil (show 0 ≤ 3 by decide)
    · simp only [toEnd, hclient, Client.toEnd]
      omega
  | lock m =>
    have hdrain := hholds ⟨m, hclient⟩
    have hfree := h.owner_eq_none hdrain (by rw [hclient]; rfl)
    refine ⟨{ r with
      cond := ⟨some .client, r.cond.sleeping⟩
      client := .wait m }, ?_, ?_, ?_⟩
    · simp only [BufReader.step, readStep, hclient, Cond.lock, hfree, if_true, Option.map_some]
    · refine not_overslept_of_drain (by exact hdrain) ?_
      -- with `drain` done the client would be too late already
      intro hdone
      rw [Overslept, show r.drain = .done from hdone] at hover
      exact hover (.inl ⟨m, .inl hclient⟩)
    · simp only [toEnd, hclient, Client.toEnd]
      omega
  | wait m =>
    have howner := hclients.mpr (by rw [hclient]; rfl)
    have hdrain : r.drain.holds = false := by
      have hdrains := h.drain
      rw [howner] at hdrains
      exact Bool.eq_false_iff.mpr fun hd => by cases hdrains.mpr hd
    refine ⟨{ r with
      cond := ⟨none, r.cond.sleeping ++ [.client]⟩
      client := .waiting m }, ?_, ?_, ?_⟩
    · simp only [BufReader.step, readStep, hclient, Cond.wait, howner, if_true, Option.map_some]
    · refine not_overslept_of_drain (by exact hdrain) ?_
      intro hdone
      rw [Overslept, show r.drain = .done from hdone] at hover
      exact hover (.inl ⟨m, .inr hclient⟩)
    · simp only [toEnd, hclient, Client.toEnd]
      omega
  | waiting m =>
    -- `drain` is done, and its last signal has woken the client
    have hdone := hrests (by rw [hclient]; rfl) fun m hm => by cases hclient.symm.trans hm
    have hasleep : ¬r.Asleep := by
      rw [Overslept, hdone] at hover
      exact fun hasleep => hover (.inr hasleep)
    have hfree := h.owner_eq_none (by rw [hdone]; rfl) (by rw [hclient]; rfl)
    have hnil : r.cond.sleeping = [] := by
      rcases h.sleeping with hnil | ⟨hone, -⟩
      · exact hnil
      · exact absurd (by rw [Asleep, hone]; exact List.mem_cons_self) hasleep
    refine ⟨{ r with
      cond := ⟨some .client, r.cond.sleeping⟩
      client := .unlock m }, ?_, ?_, ?_⟩
    · have hawake : Goroutine.client ∉ r.cond.sleeping := hasleep
      simp only [BufReader.step, readStep, hclient, Cond.wake, if_neg hawake, Cond.lock, hfree,
        if_true, Option.map_some]
    · exact not_overslept_of_awake hnil (show 3 ≤ 3 by decide)
    · simp only [toEnd, hclient, Client.toEnd]
      omega
  | unlock m =>
    have howner := hclients.mpr (by rw [hclient]; rfl)
    have hnil := h.sleeping_eq_nil fun m hm => by cases hclient.symm.trans hm
    refine ⟨{ r with
      cond := ⟨none, r.cond.sleeping⟩
      client := .buffer m }, ?_, ?_, ?_⟩
    · simp only [BufReader.step, readStep, hclient, Cond.unlock, howner, if_true, Option.map_some]
    · exact not_overslept_of_awake hnil (show 2 ≤ 3 by decide)
    · simp only [toEnd, hclient, Client.toEnd]
      omega

/-- As long as the client has not overslept, a step of `drain` or of the client brings it nearer to
    the end, with a source at its end. -/
theorem Sound.progress (h : r.Sound) (err : ε) (hn : 0 < n) (hover : ¬r.Overslept) :
    (∃ err, r.client = .ended err) ∨
      ∃ op, (op = .source ∨ op = .drain ∨ op = .read n) ∧ ∃ r',
        r.step (.ended err) op = some r' ∧ ¬r'.Overslept ∧ r'.toEnd < r.toEnd := by
  by_cases hended : ∃ err, r.client = .ended err
  · exact .inl hended
  refine .inr ?_
  have hnot : ∀ err, r.client ≠ .ended err := fun err herr => hended ⟨err, herr⟩
  -- a client in front of the mutex, or with it, goes first
  by_cases hfirst : r.client.holds = true ∨ (∃ m, r.client = .lock m) ∧ r.drain.holds = false
  · have hfree : (∃ m, r.client = .lock m) → r.drain.holds = false := by
      rintro ⟨m, hm⟩
      rcases hfirst with hholds | ⟨-, hdrain⟩
      · rw [hm] at hholds
        cases hholds
      · exact hdrain
    have hrests : r.client.holds = false → (∀ m, r.client ≠ .lock m) → r.drain = .done := by
      intro hholds hlock
      rcases hfirst with hholds' | ⟨⟨m, hm⟩, -⟩
      · rw [hholds] at hholds'
        cases hholds'
      · exact absurd hm (hlock m)
    obtain ⟨r', hstep, hr'⟩ := h.client_goes (.ended err) hn hover hnot hfree hrests
    exact ⟨_, .inr (.inr rfl), r', hstep, hr'⟩
  · obtain ⟨hclient, hlock⟩ := not_or.mp hfirst
    have hclient : r.client.holds = false := Bool.eq_false_iff.mpr hclient
    have hlock : ∀ m, r.client = .lock m → r.drain.holds = true := fun m hm =>
      Bool.of_not_eq_false fun hdrain => hlock ⟨⟨m, hm⟩, hdrain⟩
    by_cases hdone : r.drain = .done
    · -- then the client is told
      have hnone : ∀ m, r.client ≠ .lock m := by
        intro m hm
        have hdrain := hlock m hm
        rw [hdone] at hdrain
        cases hdrain
      obtain ⟨r', hstep, hr'⟩ := h.client_goes (.ended err) hn hover hnot
        (fun ⟨m, hm⟩ => absurd hm (hnone m)) fun _ _ => hdone
      exact ⟨_, .inr (.inr rfl), r', hstep, hr'⟩
    · obtain ⟨op, hop, hr'⟩ := h.drain_goes err hover hclient hlock hdone
      exact ⟨op, hop.imp id .inl, hr'⟩

end BufReader

end Docker.Wakeup
