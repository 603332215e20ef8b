import DockerEngine.Native.Output
import DockerEngine.Native.Readers

/-!
# What the adapters lose

The goroutines of `bufReader` and of `Pv` look at the error first, and drop the bytes that came
with it. The client of a `bufReader` looks at the buffer first and at the error second, and
finds an error that was set in between together with the bytes that came before it.

- `BufReader.Inv`, `Pv.Inv`: where the bytes are
- `adapters_lossless`: the runs in which all bytes of the source are handed on
- `drainStep_ofPipe`, `readStep_ofPipe`: the `bufReader` of a pipe is one of these
-/

namespace Docker.Readers

open Go

variable {ε : Type u}

/-- `drain` has set the error. -/
def Drain.isOver : Drain ε → Bool
  | signalling last => last
  | done => true
  | _ => false

/-- The client is about to look at the error. -/
def Client.isChecking : Client ε → Bool
  | check _ => true
  | _ => false

namespace BufReader

/-- The bytes that `drain` has not written to the buffer yet. -/
def held (r : BufReader ε) : List UInt8 :=
  match r.drain with
  | .got b none => b
  | _ => []

/-- The error that `drain` has found. -/
def found (r : BufReader ε) : Option ε :=
  match r.drain with
  | .got _ err => err
  | _ => r.err

/-- Where the bytes are that came without an error, and what is known about the first error. -/
structure Inv (r : BufReader ε) : Prop where
  passed : r.reads.passed = r.yielded ++ r.buf ++ r.held
  error : r.reads.error = r.found
  err : r.err.isSome = r.drain.isOver
  ended : ∀ err, r.client = .ended err → r.err = some err

/-- The steps of a `bufReader`. -/
inductive Moves (r : BufReader ε) : Op ε → BufReader ε → Prop where
  | source {b : List UInt8} {err : Option ε} (hdrain : r.drain = .reading) :
      Moves r (.source b err) { r with drain := .got b err, reads := r.reads ++ [(b, err)] }
  | error {b : List UInt8} {err : ε} (hdrain : r.drain = .got b (some err)) :
      Moves r .drain { r with err := some err, drain := .signalling true }
  | data {b : List UInt8} (hdrain : r.drain = .got b none) :
      Moves r .drain { r with buf := r.buf ++ b, drain := .signalling false }
  | signal {last : Bool} (hdrain : r.drain = .signalling last) :
      Moves r .drain
        { r with client := r.client.signal, drain := if last then .done else .reading }
  | take {k n : Nat} (hclient : r.client = .buffer n) :
      Moves r (.read k)
        { r with buf := r.buf.drop n, yielded := r.yielded ++ r.buf.take n, client := .idle }
  | told {k n : Nat} {err : ε} (hclient : r.client = .check n) (herr : r.err = some err) :
      Moves r (.read k) { r with client := .ended err }
  /-- Every other step of the client. -/
  | goes {k : Nat} {client : Client ε} (hcheck : ∀ n, r.client = .check n → r.err = none)
      (hended : ∀ err, r.client ≠ .ended err) (hended' : ∀ err, client ≠ .ended err) :
      Moves r (.read k) { r with client }

theorem step_cases {r r' : BufReader ε} {op : Op ε} (h : r.step op = some r') :
    r.Moves op r' := by
  cases op with
  | source b err =>
    simp only [step, sourceStep] at h
    split at h
    · next hdrain =>
      split at h
      · cases h; exact .source hdrain
      · simp at h
    · simp at h
  | drain =>
    simp only [step, drainStep] at h
    split at h
    · simp at h
    · next hdrain => cases h; exact .error hdrain
    · next hdrain => cases h; exact .data hdrain
    · next hdrain => cases h; exact .signal hdrain
    · simp at h
  | read n =>
    simp only [step, readStep] at h
    split at h
    · next hclient =>
      split at h
      · cases h
        exact .goes (by simp [hclient]) (by simp [hclient]) (by simp)
      · simp at h
    · next hclient =>
      split at h
      · cases h; exact .take hclient
      · cases h
        exact .goes (by simp [hclient]) (by simp [hclient]) (by simp)
    · next hclient =>
      split at h
      · next herr => cases h; exact .told hclient herr
      · next herr =>
        cases h
        exact .goes (fun _ _ => herr) (by simp [hclient]) (by simp)
    · next hclient =>
      cases h
      exact .goes (by simp [hclient]) (by simp [hclient]) (by simp)
    · simp at h
    · simp at h

@[simp] theorem signal_eq_ended {client : Client ε} {err : ε} :
    client.signal = .ended err ↔ client = .ended err := by
  cases client <;> simp [Client.signal]

theorem Inv.new : (new : BufReader ε).Inv where
  passed := rfl
  error := rfl
  err := rfl
  ended _ h := by simp [BufReader.new] at h

/-- As long as `drain` is not over, no error was set. -/
theorem Inv.err_eq_none {r : BufReader ε} (h : r.Inv) (hover : r.drain.isOver = false) :
    r.err = none := by
  have herr := h.err
  rw [hover] at herr
  simpa using herr

theorem Inv.step {r r' : BufReader ε} {op : Op ε} (h : r.Inv) (hstep : r.step op = some r') :
    r'.Inv := by
  have hpassed := h.passed
  have herror := h.error
  cases step_cases hstep with
  | @source b err hdrain =>
    have hnone := h.err_eq_none (by simp [hdrain, Drain.isOver])
    simp only [held, found, hdrain, hnone, List.append_nil] at hpassed herror
    refine ⟨?_, ?_, ?_, h.ended⟩
    · cases err <;> simp [held, hpassed]
    · simp [found, herror]
    · simp [hnone, Drain.isOver]
  | @error b err hdrain =>
    -- the bytes that came with the error are dropped; they were never counted as held
    have hnone := h.err_eq_none (by simp [hdrain, Drain.isOver])
    simp only [held, found, hdrain, List.append_nil] at hpassed herror
    refine ⟨by simpa [held] using hpassed, herror, rfl, ?_⟩
    intro err' hended
    have herr := h.ended err' hended
    rw [hnone] at herr
    simp at herr
  | @data b hdrain =>
    have hnone := h.err_eq_none (by simp [hdrain, Drain.isOver])
    simp only [held, found, hdrain] at hpassed herror
    refine ⟨?_, ?_, ?_, h.ended⟩
    · simpa [held] using hpassed
    · simp [found, herror, hnone]
    · simp [hnone, Drain.isOver]
  | @signal last hdrain =>
    have herr := h.err
    simp only [held, found, hdrain, Drain.isOver] at hpassed herror herr
    refine ⟨?_, ?_, ?_, ?_⟩
    · cases last <;> simpa [held] using hpassed
    · cases last <;> exact herror
    · cases last <;> exact herr
    · intro err hended
      exact h.ended err (signal_eq_ended.mp hended)
  | @take k n hclient =>
    refine ⟨?_, herror, h.err, by simp⟩
    rw [hpassed]
    simp [held]
  | @told k n err hclient herr => exact ⟨hpassed, herror, h.err, by simp [herr]⟩
  | goes hcheck hended hended' =>
    exact ⟨hpassed, herror, h.err, fun err heq => absurd heq (hended' err)⟩

/-- Once the client was told the error, `drain` has nothing in hand. -/
theorem Inv.over_of_ended {r : BufReader ε} (h : r.Inv) {err : ε} (hended : r.client = .ended err) :
    r.held = [] ∧ r.found = r.err := by
  have hover : r.drain.isOver = true := by
    rw [← h.err, h.ended err hended]
    rfl
  unfold held found
  cases hdrain : r.drain with
  | got b err => simp [hdrain, Drain.isOver] at hover
  | _ => exact ⟨rfl, rfl⟩

/-- A step that loses nothing: the source returns an error without bytes, and the client finds
    an error only when the buffer is still empty. -/
def Clean (r : BufReader ε) : Op ε → Prop
  | .source b err => err ≠ none → b = []
  | .drain => True
  | .read _ => r.client.isChecking = true → r.err ≠ none → r.buf = []

instance (r : BufReader ε) (op : Op ε) : Decidable (r.Clean op) :=
  match op with
  | .source b err => inferInstanceAs (Decidable (err ≠ none → b = []))
  | .drain => inferInstanceAs (Decidable True)
  | .read _ => inferInstanceAs (Decidable (r.client.isChecking = true → r.err ≠ none → r.buf = []))

/-- The source returned bytes with an error, or the client was told an error before the bytes. -/
def Lost (r : BufReader ε) : Prop :=
  ¬r.reads.Separate ∨ (∃ err, r.client = .ended err) ∧ r.buf ≠ []

/-- When the client was told the error, the bytes that are missing are those that were lost. -/
theorem Inv.yielded_iff {r : BufReader ε} (h : r.Inv) {err : ε} (hended : r.client = .ended err) :
    r.yielded = r.reads.bytes ↔ ¬r.Lost := by
  have hpassed := h.passed
  rw [(h.over_of_ended hended).1, List.append_nil] at hpassed
  have hlost : ¬r.Lost ↔ r.reads.Separate ∧ r.buf = [] := by
    simp [Lost, hended]
  rw [hlost, ← Reads.passed_eq_bytes]
  constructor
  · intro hyielded
    have hle := Reads.passed_length_le r.reads
    have hbuf : r.buf = [] := by
      rw [hpassed, ← hyielded, List.length_append] at hle
      exact List.eq_nil_of_length_eq_zero (by omega)
    exact ⟨by rw [hpassed, hbuf, List.append_nil, hyielded], hbuf⟩
  · rintro ⟨hbytes, hbuf⟩
    rw [← hbytes, hpassed, hbuf, List.append_nil]

/-- What is lost stays lost. -/
theorem Lost.step {r r' : BufReader ε} {op : Op ε} (h : r.Lost) (hstep : r.step op = some r') :
    r'.Lost := by
  cases step_cases hstep with
  | source hdrain =>
    exact h.imp_left fun hreads hseparate => hreads hseparate.of_append
  | error hdrain => exact h
  | data hdrain => exact h.imp_right fun ⟨hended, hbuf⟩ => ⟨hended, by simp [hbuf]⟩
  | signal hdrain =>
    refine h.imp_right fun ⟨⟨err, hended⟩, hbuf⟩ => ⟨⟨err, ?_⟩, hbuf⟩
    exact signal_eq_ended.mpr hended
  | take hclient =>
    refine h.imp_right fun ⟨⟨err, hended⟩, _⟩ => ?_
    simp [hclient] at hended
  | told hclient herr =>
    refine h.imp_right fun ⟨⟨err, hended⟩, _⟩ => ?_
    simp [hclient] at hended
  | goes hcheck hended hended' =>
    exact h.imp_right fun ⟨⟨err, heq⟩, _⟩ => absurd heq (hended err)

/-- A step that is not clean loses something. -/
theorem lost_of_not_clean {r r' : BufReader ε} {op : Op ε} (hstep : r.step op = some r')
    (hclean : ¬r.Clean op) : r'.Lost := by
  cases step_cases hstep with
  | @source b err hdrain =>
    -- bytes come together with an error
    left
    intro hseparate
    exact hclean (hseparate (b, err) (by simp))
  | error hdrain => exact absurd trivial hclean
  | data hdrain => exact absurd trivial hclean
  | signal hdrain => exact absurd trivial hclean
  | take hclient => exact absurd (by simp [Clean, hclient, Client.isChecking]) hclean
  | told hclient herr =>
    -- the error is found while there are bytes in the buffer
    right
    exact ⟨⟨_, rfl⟩, fun hbuf => hclean fun _ _ => hbuf⟩
  | goes hcheck hended hended' =>
    refine absurd ?_ hclean
    cases hclient : r.client with
    | check n => simp [Clean, hcheck n hclient]
    | _ => simp [Clean, hclient, Client.isChecking]

/-- A clean step loses nothing. -/
theorem Inv.not_lost_step {r r' : BufReader ε} {op : Op ε} (h : r.Inv) (hlost : ¬r.Lost)
    (hclean : r.Clean op) (hstep : r.step op = some r') : ¬r'.Lost := by
  simp only [Lost, not_or, not_and, not_not] at hlost ⊢
  obtain ⟨hseparate, hbuf⟩ := hlost
  cases step_cases hstep with
  | source hdrain => exact ⟨hseparate.append hclean, hbuf⟩
  | error hdrain => exact ⟨hseparate, hbuf⟩
  | data hdrain =>
    -- bytes still arrive, so no error was set and the client was not told one
    refine ⟨hseparate, ?_⟩
    rintro ⟨err, hended⟩
    have hnone := h.err_eq_none (by simp [hdrain, Drain.isOver])
    have herr := h.ended err hended
    rw [hnone] at herr
    simp at herr
  | signal hdrain =>
    refine ⟨hseparate, ?_⟩
    rintro ⟨err, hended⟩
    exact hbuf ⟨err, signal_eq_ended.mp hended⟩
  | take hclient => exact ⟨hseparate, by simp⟩
  | told hclient herr =>
    have hempty : r.buf = [] := hclean (by simp [hclient, Client.isChecking]) (by simp [herr])
    exact ⟨hseparate, fun _ => hempty⟩
  | goes hcheck hended hended' =>
    refine ⟨hseparate, ?_⟩
    rintro ⟨err, heq⟩
    exact absurd heq (hended' err)

variable {r : BufReader ε}

theorem Inv.of_reachable (h : (bufSystem ε).Reachable r) : r.Inv := by
  apply h.invariant
  · rintro r rfl
    exact Inv.new
  · intro r op r' hr _ hstep
    exact hr.step hstep

/-- The runs that lose nothing are those whose steps are clean. -/
theorem via_iff (h : (bufSystem ε).Reachable r) :
    (bufSystem ε).ReachableVia Clean r ↔ ¬r.Lost := by
  apply h.via_iff
  · rintro r rfl
    simp [Lost, BufReader.new, Reads.Separate]
  · intro r op r' hr hlost hclean hstep
    exact (Inv.of_reachable hr).not_lost_step hlost hclean hstep
  · intro r op r' hclean hstep
    exact lost_of_not_clean hstep hclean
  · intro r op r' hlost hstep
    exact hlost.step hstep

end BufReader

namespace Pv

/-- Where the bytes are, and what was told about them. -/
structure Inv (p : Pv ε) : Prop where
  passed : p.reads.passed = p.yielded ++ p.pipe.getD []
  error : p.reads.error = p.closed
  closed : p.closed ≠ none → p.pipe = none
  ended : ∀ err, p.ended = some err → p.closed = some err
  totalBytes : p.totalBytes = p.reads.passed.length

/-- The source returns an error without bytes. -/
def Clean (_ : Pv ε) : Op ε → Prop
  | .source b err => err ≠ none → b = []
  | .drain => True
  | .read _ => True

instance (p : Pv ε) (op : Op ε) : Decidable (p.Clean op) :=
  match op with
  | .source b err => inferInstanceAs (Decidable (err ≠ none → b = []))
  | .drain => inferInstanceAs (Decidable True)
  | .read _ => inferInstanceAs (Decidable True)

/-- The steps of `Pv`. -/
inductive Moves (p : Pv ε) : Op ε → Pv ε → Prop where
  | error {b : List UInt8} {err : ε} (hpipe : p.pipe = none) (hclosed : p.closed = none) :
      Moves p (.source b (some err))
        { p with closed := some err, reads := p.reads ++ [(b, some err)] }
  | data {b : List UInt8} {info : GoString} (hpipe : p.pipe = none) (hclosed : p.closed = none) :
      Moves p (.source b none)
        { p with
          totalBytes := p.totalBytes + b.length
          info
          pipe := some b
          reads := p.reads ++ [(b, none)] }
  | take {n : Nat} {data : List UInt8} (hpipe : p.pipe = some data) (hended : p.ended = none) :
      Moves p (.read n)
        { p with
          pipe := if data.drop n = [] then none else some (data.drop n)
          yielded := p.yielded ++ data.take n }
  | told {n : Nat} {err : ε} (hpipe : p.pipe = none) (hclosed : p.closed = some err) :
      Moves p (.read n) { p with ended := some err }

theorem step_cases {p p' : Pv ε} {op : Op ε} (h : p.step op = some p') : p.Moves op p' := by
  cases op with
  | source b err =>
    simp only [step, sourceStep] at h
    split at h
    · next hguard =>
      obtain ⟨hpipe, hclosed, _⟩ := hguard
      split at h
      · cases h; exact .error hpipe hclosed
      · cases h; exact .data hpipe hclosed
    · simp at h
  | drain => simp [step] at h
  | read n =>
    simp only [step, readStep] at h
    split at h
    · next hguard =>
      split at h
      · next hpipe => cases h; exact .take hpipe hguard.2
      · next hpipe =>
        obtain ⟨err, hclosed, rfl⟩ := Option.map_eq_some_iff.mp h
        exact .told hpipe hclosed
    · simp at h

theorem Inv.new : (new : Pv ε).Inv where
  passed := rfl
  error := rfl
  closed h := absurd rfl h
  ended _ h := by simp [Pv.new] at h
  totalBytes := rfl

theorem Inv.step {p p' : Pv ε} {op : Op ε} (h : p.Inv) (hstep : p.step op = some p') :
    p'.Inv := by
  have hpassed := h.passed
  have herror := h.error
  cases step_cases hstep with
  | @error b err hpipe hclosed =>
    refine ⟨by simpa using hpassed, by simp [herror, hclosed], fun _ => hpipe, ?_, ?_⟩
    · intro err' hended
      have hclosed' := h.ended err' hended
      rw [hclosed] at hclosed'
      simp at hclosed'
    · simpa using h.totalBytes
  | @data b info hpipe hclosed =>
    refine ⟨?_, by simp [herror], by simp [hclosed], h.ended, ?_⟩
    · simp [hpassed, hpipe]
    · simp [h.totalBytes]
  | @take n data hpipe hended =>
    -- a write is in progress, so the pipe is not closed
    have hnone : p.closed = none := by
      by_contra hne
      simp [h.closed hne] at hpipe
    refine ⟨?_, herror, by simp [hnone], h.ended, h.totalBytes⟩
    rw [hpassed, hpipe]
    by_cases hdrop : data.drop n = []
    · -- the client has taken everything, and the write ends
      have htake : data.take n = data := by
        have happend := List.take_append_drop n data
        rwa [hdrop, List.append_nil] at happend
      simp [hdrop, htake]
    · simp [hdrop]
  | @told n err hpipe hclosed =>
    refine ⟨hpassed, herror, h.closed, ?_, h.totalBytes⟩
    intro err' hended
    cases hended
    exact hclosed

variable {p : Pv ε}

theorem Inv.of_reachable (h : (pvSystem ε).Reachable p) : p.Inv := by
  apply h.invariant
  · rintro p rfl
    exact Inv.new
  · intro p op p' hp _ hstep
    exact hp.step hstep

/-- The runs that lose nothing are those whose steps are clean. -/
theorem via_iff (h : (pvSystem ε).Reachable p) :
    (pvSystem ε).ReachableVia Clean p ↔ p.reads.Separate := by
  have hiff : (pvSystem ε).ReachableVia Clean p ↔ ¬¬p.reads.Separate := by
    apply h.via_iff
    · rintro p rfl
      simp [Pv.new, Reads.Separate]
    · intro p op p' _ hseparate hclean hstep
      rw [not_not] at hseparate ⊢
      cases step_cases hstep with
      | error hpipe hclosed => exact hseparate.append hclean
      | data hpipe hclosed => exact hseparate.append hclean
      | take hpipe hended => exact hseparate
      | told hpipe hclosed => exact hseparate
    · intro p op p' hclean hstep
      cases step_cases hstep with
      | @error b err hpipe hclosed =>
        exact fun hseparate => hclean (hseparate (b, some err) (by simp))
      | data hpipe hclosed => exact absurd (by simp [Clean]) hclean
      | take hpipe hended => exact absurd trivial hclean
      | told hpipe hclosed => exact absurd trivial hclean
    · intro p op p' hlost hstep
      cases step_cases hstep with
      | error hpipe hclosed => exact fun hseparate => hlost hseparate.of_append
      | data hpipe hclosed => exact fun hseparate => hlost hseparate.of_append
      | take hpipe hended => exact hlost
      | told hpipe hclosed => exact hlost
  rwa [not_not] at hiff

/-- When the client was told the error, the bytes that are missing are those that came with it. -/
theorem Inv.yielded_iff (h : p.Inv) {err : ε} (hended : p.ended = some err) :
    p.yielded = p.reads.bytes ↔ p.reads.Separate := by
  have hpipe : p.pipe = none := h.closed (by simp [h.ended err hended])
  have hpassed := h.passed
  rw [hpipe, Option.getD_none, List.append_nil] at hpassed
  rw [← hpassed, Reads.passed_eq_bytes]

end Pv

/-- In every run that ends with an error both adapters report the error of the source, and they
    have handed on what the source returned exactly when the steps were clean. -/
theorem adapters_lossless :
    (∀ (r : BufReader ε) err, (bufSystem ε).Reachable r → r.client = .ended err →
      r.reads.error = some err ∧
        (r.yielded = r.reads.bytes ↔ (bufSystem ε).ReachableVia BufReader.Clean r)) ∧
    ∀ (p : Pv ε) err, (pvSystem ε).Reachable p → p.ended = some err →
      p.reads.error = some err ∧
        (p.yielded = p.reads.bytes ↔ (pvSystem ε).ReachableVia Pv.Clean p) := by
  constructor
  · intro r err h hended
    have hinv := BufReader.Inv.of_reachable h
    rw [BufReader.via_iff h, hinv.error, (hinv.over_of_ended hended).2]
    exact ⟨hinv.ended err hended, hinv.yielded_iff hended⟩
  · intro p err h hended
    have hinv := Pv.Inv.of_reachable h
    rw [Pv.via_iff h, hinv.error]
    exact ⟨hinv.ended err hended, hinv.yielded_iff hended⟩

/-! ## A pipe as the source -/

/-- `drain` of a pipe; the pipe returns its end, or the error of a closed pipe, without bytes. -/
def Drain.ofPipe : Output.Drain → Drain Unit
  | .reading => reading
  | .got b => got b none
  | .failed => got [] (some ())
  | .signalling last => signalling last
  | .done => done

def Client.ofPipe : Output.Client → Client Unit
  | .idle => idle
  | .buffer n => buffer n
  | .check n => check n
  | .lock n => lock n
  | .waiting n => waiting n
  | .ended => ended ()

/-- The `bufReader` of a pipe, of which `reads` was read. -/
def BufReader.ofPipe (r : Output.BufReader) (reads : Reads Unit) : BufReader Unit where
  buf := r.buf
  err := if r.err then some () else none
  drain := .ofPipe r.drain
  client := .ofPipe r.client
  reads := reads
  yielded := r.yielded

/-- What `drain` does with a pipe is a clean step. -/
theorem drainStep_ofPipe {r r' : Output.BufReader} {reads : Reads Unit}
    (h : r.drainStep = some r') (hsent : reads.bytes = r.pipe.sent) :
    ∃ op reads', (BufReader.ofPipe r reads).step op = some (.ofPipe r' reads') ∧
      (BufReader.ofPipe r reads).Clean op ∧ reads'.bytes = r'.pipe.sent := by
  unfold Output.BufReader.drainStep at h
  cases hdrain : r.drain with
  | reading =>
    have hsource {b : List UInt8} {err : Option Unit} (hb : b.length ≤ 1024) :
        (BufReader.ofPipe r reads).step (.source b err) =
          some { BufReader.ofPipe r (reads ++ [(b, err)]) with drain := .got b err } := by
      simp [BufReader.step, BufReader.sourceStep, BufReader.ofPipe, hdrain, Drain.ofPipe, hb]
    have hend : Reads.bytes (reads ++ [([], some ())]) = r.pipe.sent := by
      simpa [Reads.bytes] using hsent
    simp only [hdrain] at h
    -- a closed pipe is an error of the source, and so is its end; other reads return data
    split at h
    · cases h
      exact ⟨.source [] (some ()), _, hsource (by simp), by simp [BufReader.Clean], hend⟩
    · split at h
      · next b pipe htake =>
        cases h
        obtain ⟨hb, hpipe⟩ := Pipe.take_eq_some htake
        have hlength : b.length ≤ 1024 := by
          rw [hb]
          exact List.length_take_le _ _
        have hsent' : Reads.bytes (reads ++ [(b, none)]) = pipe.sent := by
          simpa [Reads.bytes, hpipe] using hsent
        exact ⟨.source b none, _, hsource hlength, by simp [BufReader.Clean], hsent'⟩
      · split at h
        · cases h
          exact ⟨.source [] (some ()), _, hsource (by simp), by simp [BufReader.Clean], hend⟩
        · simp at h
  | got b =>
    simp only [hdrain] at h
    cases h
    refine ⟨.drain, reads, ?_, trivial, hsent⟩
    simp [BufReader.step, BufReader.drainStep, BufReader.ofPipe, hdrain, Drain.ofPipe]
  | failed =>
    simp only [hdrain] at h
    cases h
    refine ⟨.drain, reads, ?_, trivial, hsent⟩
    simp [BufReader.step, BufReader.drainStep, BufReader.ofPipe, hdrain, Drain.ofPipe]
  | signalling last =>
    simp only [hdrain] at h
    cases h
    -- `Signal` finds the client asleep on both sides, or on neither
    have hsignal : Client.ofPipe r.client.signal = (Client.ofPipe r.client).signal := by
      cases r.client <;> rfl
    refine ⟨.drain, reads, ?_, trivial, hsent⟩
    cases last <;>
      simp [BufReader.step, BufReader.drainStep, BufReader.ofPipe, hdrain, Drain.ofPipe, hsignal]
  | done => simp [hdrain] at h

theorem readStep_ofPipe {r r' : Output.BufReader} {n : Nat} (h : r.readStep n = some r')
    (hn : 0 < n) (reads : Reads Unit) :
    (BufReader.ofPipe r reads).step (.read n) = some (.ofPipe r' reads) := by
  unfold Output.BufReader.readStep at h
  cases hclient : r.client with
  | idle =>
    simp only [hclient] at h
    cases h
    simp [BufReader.step, BufReader.readStep, BufReader.ofPipe, hclient, Client.ofPipe, hn]
  | buffer k =>
    simp only [hclient] at h
    split at h
    · next htake =>
      cases h
      simp [BufReader.step, BufReader.readStep, BufReader.ofPipe, hclient, Client.ofPipe, htake]
    · next htake =>
      cases h
      simp [BufReader.step, BufReader.readStep, BufReader.ofPipe, hclient, Client.ofPipe, htake]
  | check k =>
    simp only [hclient] at h
    cases h
    cases herr : r.err <;>
      simp [BufReader.step, BufReader.readStep, BufReader.ofPipe, hclient, Client.ofPipe, herr]
  | lock k =>
    simp only [hclient] at h
    cases h
    simp [BufReader.step, BufReader.readStep, BufReader.ofPipe, hclient, Client.ofPipe]
  | waiting k => simp [hclient] at h
  | ended => simp [hclient] at h

/-! ## A source of two bytes -/

def eof : GoString := str "EOF"

/-- The bytes and the end are handed on one by one. -/
def bufRun : List (Op GoString) :=
  [.source [1, 2] none, .drain, .drain, .read 1, .read 1, .read 1, .read 1,
    .source [] (some eof), .drain, .read 1, .read 1, .read 1]

def pvRun : List (Op GoString) :=
  [.source [1, 2] none, .read 1, .read 1, .source [] (some eof), .read 1]

theorem adapters_lossless_two :
    (∃ r, (bufSystem GoString).Reachable r ∧ r.client = .ended eof ∧ r.reads.error = some eof ∧
      r.yielded = r.reads.bytes ∧ r.yielded = [1, 2]) ∧
    ∃ p, (pvSystem GoString).Reachable p ∧ p.ended = some eof ∧ p.reads.error = some eof ∧
      p.yielded = p.reads.bytes ∧ p.yielded = [1, 2] := by
  have hr : (bufSystem GoString).ReachableVia BufReader.Clean BufReader.new := .init rfl
  have hp : (pvSystem GoString).ReachableVia Pv.Clean Pv.new := .init rfl
  have hr' := hr.runVia bufRun rfl
  have hp' := hp.runVia pvRun rfl
  have hreach : (bufSystem GoString).Reachable _ := hr'.mono fun _ _ _ => trivial
  have hreach' : (pvSystem GoString).Reachable _ := hp'.mono fun _ _ _ => trivial
  obtain ⟨herror, hyielded⟩ := adapters_lossless.1 _ eof hreach rfl
  obtain ⟨herror', hyielded'⟩ := adapters_lossless.2 _ eof hreach' rfl
  exact ⟨⟨_, hreach, rfl, herror, hyielded.mpr hr', rfl⟩,
    ⟨_, hreach', rfl, herror', hyielded'.mpr hp', rfl⟩⟩

/-- The source returns its last bytes together with the end, and both adapters drop them; and a
    `bufReader` drops bytes that were returned before, when the client looks at the empty buffer
    first, and at the error when both have arrived. -/
theorem adapters_drop :
    (∃ r, (bufSystem GoString).run .new
        [.source [1, 2] (some eof), .drain, .read 1, .read 1, .read 1] = some r ∧
      r.client = .ended eof ∧ r.reads.bytes = [1, 2] ∧ r.yielded = []) ∧
    (∃ p, (pvSystem GoString).run .new [.source [1, 2] (some eof), .read 1] = some p ∧
      p.ended = some eof ∧ p.reads.bytes = [1, 2] ∧ p.yielded = []) ∧
    ∃ r, (bufSystem GoString).run .new
        [.read 1, .read 1, .source [1, 2] none, .drain, .drain, .source [] (some eof), .drain,
          .read 1] = some r ∧
      r.client = .ended eof ∧ r.reads.bytes = [1, 2] ∧ r.yielded = [] :=
  ⟨⟨_, rfl, rfl, rfl, rfl⟩, ⟨_, rfl, rfl, rfl, rfl⟩, ⟨_, rfl, rfl, rfl, rfl⟩⟩

end Docker.Readers
