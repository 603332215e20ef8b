import DockerEngine.Native.Output

/-!
# What a pipe of `StdoutPipe` yields

While its client keeps reading, a pipe passes on all that the process has written, in order:
what the client has, the three queues and the hands of the copier and of `drain` make up
`written` at any time (`Flow.conserved`). Bytes are lost at three points only, which
`Orderly` excludes: the broadcaster is closed while the copier has something left, which
takes a tty; `Read` finds the buffer empty and then the error, with the last bytes stored in
between; `Read` goes to sleep after the last signal. And with a tty a newline comes out as two
bytes, which `Orderly` excludes as well.

- `output_delivered`: in all other runs the client gets what was written
- `output_truncated`: four runs in which it does not
-/

namespace Docker.Output

/-! ## What is on its way -/

def Drain.held : Drain → List UInt8
  | got b => b
  | _ => []

/-- `Read` has returned an error to `drain`. -/
def Drain.isOver : Drain → Bool
  | failed | signalling true | done => true
  | _ => false

namespace Copier

/-- The writers that get the chunk next. -/
def todo : Copier → List Writer
  | writing _ todo _ | offered _ _ todo _ => todo
  | _ => []

/-- The writer that has the chunk and those that get it next. -/
def ahead : Copier → List Writer
  | writing _ todo _ => todo
  | offered _ i todo _ => .pipe i :: todo
  | _ => []

def failed : Copier → List Writer
  | writing _ _ failed | offered _ _ _ failed => failed
  | _ => []

/-- What the copier holds for a writer. -/
def owes : Copier → Writer → List UInt8
  | writing chunk todo _, writer | offered chunk _ todo _, writer =>
    if writer ∈ todo then chunk else []
  | _, _ => []

/-- Everything has been copied. -/
def isOver : Copier → Bool
  | closing _ | done => true
  | _ => false

theorem owes_of_notMem {c : Copier} {writer : Writer} (h : writer ∉ c.todo) :
    c.owes writer = [] := by
  cases c with
  | writing chunk todo failed => exact if_neg h
  | offered chunk i todo failed => exact if_neg h
  | _ => rfl

end Copier

/-- The pipe that has the chunk. -/
def Copier.target : Copier → Option Nat
  | offered _ i _ _ => some i
  | _ => none

/-- The writer `Close` is at. -/
def Monitor.next : Monitor → Option Writer
  | closing (writer :: _) => some writer
  | _ => none

def Client.atCheck : Client → Bool
  | check _ => true
  | _ => false

def Client.atLock : Client → Bool
  | lock _ => true
  | _ => false

/-- The steps that lose nothing of pipe `i`, and add nothing. With a tty, the process writes no
    newline while the terminal changes newlines; and `monitor` closes the pipe after the copier
    has begun its last write to it, and that write gets to its end. A `Read` that found the
    buffer empty does not find the error with bytes in the buffer, and does not go to sleep
    when `drain` is done. -/
def Orderly (i : Nat) (s : State) : Op → Prop
  | .write b => s.tty = true → s.onlcr = true → 10 ∉ b
  | .monitor => s.tty = true → s.monitor.next = some (.pipe i) →
      s.queue = [] ∧ .pipe i ∉ s.copier.todo
  | .copy _ => s.tty = true → s.copier.target = some i →
      ∀ r ∈ s.readers[i]?, r.pipe.writerClosed = true → r.pipe.data = []
  | .read j _ => j = i → ∀ r ∈ s.readers[i]?,
      (r.client.atCheck = true → r.err = true → r.buf = []) ∧
      (r.client.atLock = true → r.drain ≠ .done)
  | _ => True

instance (i : Nat) (s : State) (op : Op) : Decidable (Orderly i s op) :=
  match op with
  | .write _ => inferInstanceAs (Decidable (_ → _ → _))
  | .monitor => inferInstanceAs (Decidable (_ → _ → _ ∧ _))
  | .copy _ => inferInstanceAs (Decidable (_ → _ → ∀ r ∈ s.readers[i]?, _ → _))
  | .read _ _ => inferInstanceAs (Decidable (_ → ∀ r ∈ s.readers[i]?, (_ → _ → _) ∧ (_ → _)))
  | .setOnlcr _ | .exit | .drain _ | .closeReader _ => inferInstanceAs (Decidable True)

theorem crlf_eq {b : List UInt8} (h : 10 ∉ b) : crlf b = b := by
  induction b with
  | nil => rfl
  | cons c b ih =>
    rw [List.mem_cons, not_or] at h
    calc crlf (c :: b)
      _ = (if c = 10 then [13, 10] else [c]) ++ crlf b := List.flatMap_cons
      _ = c :: b := by rw [if_neg (Ne.symm h.1), ih h.2, List.singleton_append]

/-- A terminal leaves a write without newlines as it is. -/
theorem output_eq {i : Nat} {s : State} {b : List UInt8} (hok : Orderly i s (.write b)) :
    s.output b = b := by
  unfold State.output
  split
  · next hmode => exact crlf_eq (hok hmode.1 hmode.2)
  · rfl

/-! ## The order of the goroutines -/

structure Ordered (s : State) : Prop where
  writers : s.writers.Nodup
  ahead : s.copier.ahead.Nodup
  copied : s.copier.isOver = true → s.exited = true ∧ s.queue = []
  closing : ∀ todo, s.copier = .closing todo → s.tty = true
  monitor : s.monitor ≠ .waiting → s.exited = true ∧ (s.tty = false → s.copier = .done)
  drained : ∀ (j : Nat) r, s.readers[j]? = some r → r.drain.isOver = true → r.pipe.isOpen = false

/-- What pipe `i` and its client have got, while the client keeps reading. -/
structure Flow (i : Nat) (s : State) (r : BufReader) : Prop where
  conserved : r.yielded ++ r.buf ++ r.drain.held ++ r.pipe.data ++ s.copier.owes (.pipe i) ++
    s.queue = s.written
  /-- Only the write in progress has bytes in the pipe. -/
  data : r.pipe.data ≠ [] → ∃ chunk todo failed, s.copier = .offered chunk i todo failed
  closed : r.pipe.writerClosed = true → s.exited = true ∧ s.queue = [] ∧
    .pipe i ∉ s.copier.todo ∧ (s.tty = false → s.copier = .done)
  stopped : r.drain.isOver = true → r.pipe.data = [] ∧ r.pipe.writerClosed = true
  err : r.err = true ↔ r.drain = .signalling true ∨ r.drain = .done
  ended : r.client = .ended → r.err = true ∧ r.buf = []
  awake : ∀ n, r.client = .waiting n → r.drain ≠ .done
  listed : .pipe i ∈ s.writers ∧ .pipe i ∉ s.copier.failed
  monitored : (∀ todo, s.monitor = .closing todo → .pipe i ∈ todo ∨ r.pipe.writerClosed = true) ∧
    (s.monitor = .closed → r.pipe.writerClosed = true)

theorem State.closeWriter_eq (s : State) (writer : Writer) :
    ∃ readers, s.closeWriter writer = { s with readers } := by
  cases writer with
  | log => exact ⟨s.readers, rfl⟩
  | pipe i => exact ⟨_, rfl⟩

/-! ## What the copier and the monitor do -/

inductive CopyStep (s : State) : State → Prop where
  | read {n : Nat} (hc : s.copier = .reading) (htake : s.queue.take n ≠ []) :
      CopyStep s { s with
        queue := s.queue.drop n
        copier := .writing (s.queue.take n) s.writers [] }
  | finish (hc : s.copier = .reading) (hqueue : s.queue = []) (hexited : s.exited = true) :
      CopyStep s { s with copier := if s.tty then .closing s.writers else .done }
  | log {chunk : List UInt8} {todo failed : List Writer}
      (hc : s.copier = .writing chunk (.log :: todo) failed) :
      CopyStep s { s with copier := .writing chunk todo failed }
  | offer {chunk : List UInt8} {i : Nat} {todo failed : List Writer} {r : BufReader}
      (hc : s.copier = .writing chunk (.pipe i :: todo) failed) (hr : s.readers[i]? = some r)
      (hopen : r.pipe.isOpen = true) :
      CopyStep s { s with
        readers := s.readers.set i { r with pipe := { r.pipe with data := chunk } }
        copier := .offered chunk i todo failed }
  | refuse {chunk : List UInt8} {i : Nat} {todo failed : List Writer}
      (hc : s.copier = .writing chunk (.pipe i :: todo) failed)
      (hclosed : ∀ r, s.readers[i]? = some r → r.pipe.isOpen = false) :
      CopyStep s { s with copier := .writing chunk todo (failed ++ [.pipe i]) }
  | evict {chunk : List UInt8} {failed : List Writer} (hc : s.copier = .writing chunk [] failed) :
      CopyStep s { s with writers := s.writers.filter (· ∉ failed), copier := .reading }
  | taken {chunk : List UInt8} {i : Nat} {todo failed : List Writer} {r : BufReader}
      (hc : s.copier = .offered chunk i todo failed) (hr : s.readers[i]? = some r)
      (hdata : r.pipe.data = []) : CopyStep s { s with copier := .writing chunk todo failed }
  | abort {chunk : List UInt8} {i : Nat} {todo failed : List Writer} {r : BufReader}
      (hc : s.copier = .offered chunk i todo failed) (hr : s.readers[i]? = some r)
      (hdata : r.pipe.data ≠ []) (hclosed : r.pipe.isOpen = false) :
      CopyStep s { s with
        readers := s.readers.set i { r with pipe := { r.pipe with data := [] } }
        copier := .writing chunk todo (failed ++ [.pipe i]) }
  | missing {chunk : List UInt8} {i : Nat} {todo failed : List Writer}
      (hc : s.copier = .offered chunk i todo failed) (hr : s.readers[i]? = none) :
      CopyStep s { s with copier := .writing chunk todo (failed ++ [.pipe i]) }
  | close {writer : Writer} {todo : List Writer} (hc : s.copier = .closing (writer :: todo)) :
      CopyStep s { s.closeWriter writer with copier := .closing todo }
  | closed (hc : s.copier = .closing []) : CopyStep s { s with copier := .done }

theorem offerTo_cases (s : State) {chunk : List UInt8} {i : Nat} {todo failed : List Writer}
    (hc : s.copier = .writing chunk (.pipe i :: todo) failed) :
    CopyStep s (s.offerTo chunk i todo failed) := by
  unfold State.offerTo
  split
  · next hoffer =>
    obtain ⟨r, hr, hmap⟩ := Option.bind_eq_some_iff.mp hoffer
    obtain ⟨pipe, hpipe, rfl⟩ := Option.map_eq_some_iff.mp hmap
    obtain ⟨hopen, rfl⟩ := Pipe.offer_eq_some hpipe
    exact .offer hc hr hopen
  · next hnone =>
    apply CopyStep.refuse hc
    intro r hr
    simpa [hr, Pipe.offer] using hnone

theorem endWrite_cases {s s' : State} {chunk : List UInt8} {i : Nat} {todo failed : List Writer}
    (hc : s.copier = .offered chunk i todo failed)
    (h : s.endWrite chunk i todo failed = some s') : CopyStep s s' := by
  unfold State.endWrite at h
  split at h
  · next hr =>
    cases h
    exact .missing hc hr
  · next r hr =>
    split at h
    · next hdata =>
      cases h
      exact .taken hc hr hdata
    · next hdata =>
      split at h
      · simp at h
      · next hclosed =>
        cases h
        exact .abort hc hr hdata (Bool.eq_false_iff.mpr hclosed)

theorem copyStep_cases {s s' : State} {n : Nat} (h : s.copyStep n = some s') : CopyStep s s' := by
  unfold State.copyStep at h
  split at h
  · next hc =>
    split at h
    · next htake =>
      cases h
      exact .read hc htake
    · split at h
      · next hend =>
        cases h
        exact .finish hc hend.1 hend.2
      · simp at h
  · next hc =>
    cases h
    exact .log hc
  · next hc =>
    cases h
    exact offerTo_cases s hc
  · next hc =>
    cases h
    exact .evict hc
  · next hc => exact endWrite_cases hc h
  · next hc =>
    cases h
    exact .close hc
  · next hc =>
    cases h
    exact .closed hc
  · simp at h

inductive MonitorStep (s : State) : State → Prop where
  | wait (hm : s.monitor = .waiting) (hexited : s.exited = true)
      (hcopied : s.tty = true ∨ s.copier = .done) :
      MonitorStep s { s with monitor := .closing s.writers }
  | close {writer : Writer} {todo : List Writer} (hm : s.monitor = .closing (writer :: todo)) :
      MonitorStep s { s.closeWriter writer with monitor := .closing todo }
  | closed (hm : s.monitor = .closing []) : MonitorStep s { s with monitor := .closed }

theorem monitorStep_cases {s s' : State} (h : s.monitorStep = some s') : MonitorStep s s' := by
  unfold State.monitorStep at h
  split at h
  · next hm =>
    split at h
    · next hwait =>
      cases h
      exact .wait hm hwait.1 hwait.2
    · simp at h
  · next hm =>
    cases h
    exact .close hm
  · next hm =>
    cases h
    exact .closed hm
  · simp at h

/-! ## Steps of one reader -/

namespace BufReader

/-- `drain` stops because of an end that is closed, and then has nothing in its hands. -/
theorem drainStep_over {r r' : BufReader} (h : r.drainStep = some r')
    (hr : r.drain.isOver = true → r.pipe.isOpen = false) :
    r'.drain.isOver = true → r'.pipe.isOpen = false := by
  intro hover
  unfold drainStep at h
  split at h
  · split at h
    · next hclosed =>
      cases h
      simp [Pipe.isOpen, hclosed]
    · split at h
      · cases h
        simp [Drain.isOver] at hover
      · split at h
        · next hend =>
          cases h
          simp only [Pipe.atEnd, Bool.and_eq_true] at hend
          simp [Pipe.isOpen, hend.2]
        · simp at h
  · cases h
    simp [Drain.isOver] at hover
  · next hdrain =>
    cases h
    exact hr (by rw [hdrain]; rfl)
  · next last hdrain =>
    cases h
    cases last with
    | true => exact hr (by rw [hdrain]; rfl)
    | false => simp [Drain.isOver] at hover
  · simp at h

end BufReader

namespace Flow

variable {i : Nat} {s s' : State} {r r' : BufReader}

/-- `drain` moves bytes on, and stops when the writer has closed the pipe. -/
theorem drainStep (h : Flow i s r) (hopen : r.pipe.readerClosed = false)
    (hstep : r.drainStep = some r') : Flow i s r' := by
  have hover := h.stopped
  have herr := h.err
  have hconserved := h.conserved
  unfold BufReader.drainStep at hstep
  -- the bytes go from the pipe to the hands of `drain`, and from there to the buffer
  split at hstep
  · next hdrain =>
    rw [hdrain] at hconserved herr
    rw [if_neg (by simp [hopen])] at hstep
    split at hstep
    · next b pipe htake =>
      obtain ⟨rfl, rfl⟩ := Pipe.take_eq_some htake
      cases hstep
      refine { h with conserved := ?_, data := ?_, stopped := ?_, err := ?_, awake := ?_ }
      · simpa [Drain.held] using hconserved
      · exact fun hne => h.data fun hnil => hne (by simp [hnil])
      · simp [Drain.isOver]
      · simpa using herr
      · simp
    · split at hstep
      · next htake hend =>
        cases hstep
        have hclosed : r.pipe.data = [] ∧ r.pipe.writerClosed = true := by
          simpa [Pipe.atEnd] using hend
        refine { h with conserved := ?_, stopped := fun _ => hclosed, err := ?_, awake := ?_ }
        · simpa [Drain.held] using hconserved
        · simpa using herr
        · simp
      · simp at hstep
  · next b hdrain =>
    cases hstep
    rw [hdrain] at hconserved herr
    refine { h with conserved := ?_, stopped := ?_, err := ?_, ended := ?_, awake := ?_ }
    · simpa [Drain.held] using hconserved
    · simp [Drain.isOver]
    · simpa using herr
    · intro hended
      have := (h.ended hended).1
      simp [herr] at this
    · simp
  · next hdrain =>
    cases hstep
    rw [hdrain] at hconserved
    refine { h with
      conserved := hconserved
      stopped := fun _ => hover (by rw [hdrain]; rfl)
      err := by simp
      ended := fun hended => ⟨rfl, (h.ended hended).2⟩
      awake := by simp }
  · next last hdrain =>
    cases hstep
    rw [hdrain] at hconserved herr hover
    -- the signal wakes the client, if it sleeps, and does not end it
    have hended : r.client.signal = .ended → r.client = .ended := by
      cases r.client <;> simp [Client.signal]
    have hawake : ∀ n, r.client.signal ≠ .waiting n := by
      cases r.client <;> simp [Client.signal]
    cases last with
    | true =>
      exact { h with
        conserved := hconserved
        stopped := fun _ => hover rfl
        err := by simpa using herr
        ended := fun hclient => h.ended (hended hclient)
        awake := fun n hclient => absurd hclient (hawake n) }
    | false =>
      exact { h with
        conserved := hconserved
        stopped := by simp [Drain.isOver]
        err := by simpa using herr
        ended := fun hclient => h.ended (hended hclient)
        awake := fun n hclient => absurd hclient (hawake n) }
  · simp at hstep

theorem readStep (h : Flow i s r) {n : Nat}
    (hcheck : ∀ n, r.client = .check n → r.err = true → r.buf = [])
    (hlock : ∀ n, r.client = .lock n → r.drain ≠ .done)
    (hstep : r.readStep n = some r') : Flow i s r' := by
  have hconserved := h.conserved
  unfold BufReader.readStep at hstep
  split at hstep
  · next hclient =>
    cases hstep
    exact { h with ended := by simp, awake := by simp }
  · next m hclient =>
    split at hstep
    · next htake =>
      cases hstep
      refine { h with conserved := ?_, ended := by simp, awake := by simp }
      rw [← hconserved, ← List.take_append_drop m r.buf]
      simp
    · cases hstep
      exact { h with ended := by simp, awake := by simp }
  · next m hclient =>
    -- the end is told when there is one and the buffer is empty
    cases hstep
    by_cases herr : r.err = true
    · exact { h with
        ended := fun _ => ⟨herr, hcheck m hclient herr⟩
        awake := by simp [herr] }
    · exact { h with ended := by simp [herr], awake := by simp [herr] }
  · next m hclient =>
    cases hstep
    exact { h with ended := by simp, awake := fun _ _ => hlock m hclient }
  · simp at hstep
  · simp at hstep

/-! ### Steps of the copier and of the monitor -/

/-- `Close` on a writer, when nothing is left for it. -/
theorem closeWriter (h : Flow i s r) {writer : Writer} (hr : s.readers[i]? = some r)
    (hclose : writer = .pipe i → s.exited = true ∧ s.queue = [] ∧ .pipe i ∉ s.copier.todo ∧
      (s.tty = false → s.copier = .done))
    (hr' : (s.closeWriter writer).readers[i]? = some r') :
    Flow i (s.closeWriter writer) r' ∧ (writer = .pipe i → r'.pipe.writerClosed = true) ∧
      (r.pipe.writerClosed = true → r'.pipe.writerClosed = true) := by
  cases writer with
  | log =>
    cases hr.symm.trans hr'
    exact ⟨h, by simp, id⟩
  | pipe j =>
    rw [State.closeWriter, List.getElem?_modify, hr] at hr'
    by_cases hj : j = i
    · subst hj
      simp only [if_pos, Option.map_eq_map, Option.map_some, Option.some.injEq] at hr'
      subst hr'
      refine ⟨{ h with closed := fun _ => hclose rfl, stopped := ?_, monitored := ?_ }, ?_, ?_⟩
      · exact fun hover => ⟨(h.stopped hover).1, rfl⟩
      · exact ⟨fun _ _ => .inr rfl, fun _ => rfl⟩
      · exact fun _ => rfl
      · exact fun _ => rfl
    · simp only [if_neg hj, Option.map_eq_map, Option.map_some, Option.some.injEq] at hr'
      subst hr'
      exact ⟨{ h with }, by simp [hj], id⟩

/-- A step of the copier that has nothing to do with pipe `i`. -/
theorem copierStep (h : Flow i s r) {c : Copier} (readers : List BufReader)
    (hdata : r.pipe.data = []) (hdone : s.copier ≠ .done)
    (howes : c.owes (.pipe i) = s.copier.owes (.pipe i))
    (htodo : .pipe i ∈ c.todo → .pipe i ∈ s.copier.todo)
    (hfailed : .pipe i ∈ c.failed → .pipe i ∈ s.copier.failed) :
    Flow i { s with copier := c, readers } r where
  conserved := by
    rw [← h.conserved, ← howes]
  data hne := absurd hdata hne
  closed hclosed := by
    obtain ⟨hexited, hqueue, hmem, htty⟩ := h.closed hclosed
    exact ⟨hexited, hqueue, mt htodo hmem, fun hno => absurd (htty hno) hdone⟩
  stopped := h.stopped
  err := h.err
  ended := h.ended
  awake := h.awake
  listed := ⟨h.listed.1, mt hfailed h.listed.2⟩
  monitored := h.monitored

theorem data_eq_nil (h : Flow i s r)
    (hc : ∀ chunk todo failed, s.copier ≠ .offered chunk i todo failed) : r.pipe.data = [] := by
  by_contra hne
  obtain ⟨chunk, todo, failed, hoffered⟩ := h.data hne
  exact hc chunk todo failed hoffered

/-- A write to pipe `i` begins: the copier hands over what it owes the pipe. -/
theorem offer (h : Flow i s r) (ho : Ordered s) {chunk : List UInt8} {todo failed : List Writer}
    (hc : s.copier = .writing chunk (.pipe i :: todo) failed) (readers : List BufReader) :
    Flow i { s with readers, copier := .offered chunk i todo failed }
      { r with pipe := { r.pipe with data := chunk } } := by
  have hahead := ho.ahead
  have hconserved := h.conserved
  have hlisted := h.listed
  have hclosed := h.closed
  rw [hc] at hahead hconserved hlisted hclosed
  have hnotMem : .pipe i ∉ todo := (List.nodup_cons.mp hahead).1
  have hdata : r.pipe.data = [] := h.data_eq_nil (by simp [hc])
  have hwriter : r.pipe.writerClosed = false := by
    by_contra hne
    simpa [Copier.todo] using (hclosed (by simpa using hne)).2.2.1
  exact { h with
    conserved := by
      rw [← hconserved]
      simp [Copier.owes, hdata, hnotMem]
    data := fun _ => ⟨chunk, todo, failed, rfl⟩
    closed := by simp [hwriter]
    stopped := fun hover => by simpa [hwriter] using (h.stopped hover).2
    listed := hlisted }

/-- The copier goes on to the next writer, after one that is not pipe `i`. -/
theorem next (h : Flow i s r) {chunk : List UInt8} {writer : Writer}
    {todo failed failed' : List Writer} (hc : s.copier = .writing chunk (writer :: todo) failed)
    (hw : writer ≠ .pipe i) (hfailed : .pipe i ∈ failed' → .pipe i ∈ failed) {c : Copier}
    (hwriting : c = .writing chunk todo failed' ∨ ∃ j, c = .offered chunk j todo failed')
    (readers : List BufReader) : Flow i { s with copier := c, readers } r := by
  have hdata : r.pipe.data = [] := h.data_eq_nil (by simp [hc])
  apply h.copierStep readers hdata
  · simp [hc]
  · obtain rfl | ⟨j, rfl⟩ := hwriting <;> simp [hc, Copier.owes, hw.symm]
  · rw [hc]
    obtain rfl | ⟨j, rfl⟩ := hwriting <;> exact List.mem_cons_of_mem _
  · rw [hc]
    obtain rfl | ⟨j, rfl⟩ := hwriting <;> exact hfailed

/-- A write to a pipe ends. -/
theorem written (h : Flow i s r) {chunk : List UInt8} {j : Nat} {todo failed failed' : List Writer}
    (hc : s.copier = .offered chunk j todo failed) (hdata : r.pipe.data = [])
    (hfailed : .pipe i ∈ failed' → .pipe i ∈ failed) (readers : List BufReader) :
    Flow i { s with copier := .writing chunk todo failed', readers } r := by
  apply h.copierStep readers hdata
  · simp [hc]
  · simp [hc, Copier.owes]
  · simp [hc, Copier.todo]
  · simpa [hc, Copier.failed] using hfailed

/-- The copier finds no end of the pipe closed when it comes to it: a pipe that is closed is not
    ahead of the copier. -/
theorem not_refused (h : Flow i s r) (hopen : r.pipe.readerClosed = false) {chunk : List UInt8}
    {todo failed : List Writer} (hc : s.copier = .writing chunk (.pipe i :: todo) failed)
    (hclosed : r.pipe.isOpen = false) : False := by
  have hwriter : r.pipe.writerClosed = true := by
    simpa [Pipe.isOpen, hopen] using hclosed
  have hmem := (h.closed hwriter).2.2.1
  simp [hc, Copier.todo] at hmem

/-- A write to the pipe is not cut short, unless the monitor of a container with a terminal
    closes the pipe under it. -/
theorem not_aborted (h : Flow i s r) (hopen : r.pipe.readerClosed = false) {n : Nat}
    (hok : Orderly i s (.copy n)) (hr : s.readers[i]? = some r) {chunk : List UInt8}
    {todo failed : List Writer} (hc : s.copier = .offered chunk i todo failed)
    (hdata : r.pipe.data ≠ []) (hclosed : r.pipe.isOpen = false) : False := by
  have hwriter : r.pipe.writerClosed = true := by
    simpa [Pipe.isOpen, hopen] using hclosed
  cases htty : s.tty with
  | true => exact hdata (hok htty (by rw [hc]; rfl) r hr hwriter)
  | false =>
    have hdone := (h.closed hwriter).2.2.2 htty
    simp [hc] at hdone

theorem copyStep (h : Flow i s r) (ho : Ordered s) (hopen : r.pipe.readerClosed = false) {n : Nat}
    (hok : Orderly i s (.copy n)) (hr : s.readers[i]? = some r)
    (hstep : s.copyStep n = some s') (hr' : s'.readers[i]? = some r') : Flow i s' r' := by
  have hconserved := h.conserved
  have hlisted := h.listed
  cases copyStep_cases hstep with
  -- a chunk is owed to all writers on the list, so to this one
  | read hc htake =>
    cases hr.symm.trans hr'
    have hdata : r.pipe.data = [] := h.data_eq_nil (by simp [hc])
    rw [hc] at hconserved
    refine { h with conserved := ?_, data := by simp [hdata], closed := ?_, listed := ?_ }
    · rw [← hconserved]
      simp [Copier.owes, hlisted.1]
    · intro hclosed
      simp [(h.closed hclosed).2.1] at htake
    · exact ⟨hlisted.1, by simp [Copier.failed]⟩
  | finish hc hqueue hexited =>
    cases hr.symm.trans hr'
    have hdata : r.pipe.data = [] := h.data_eq_nil (by simp [hc])
    rw [hc] at hconserved
    refine { h with conserved := ?_, data := by simp [hdata], closed := ?_, listed := ?_ }
    · rw [← hconserved]
      cases s.tty <;> rfl
    · intro _
      refine ⟨hexited, hqueue, ?_, by simp +contextual⟩
      cases s.tty <;> simp [Copier.todo]
    · refine ⟨hlisted.1, ?_⟩
      cases s.tty <;> simp [Copier.failed]
  | log hc =>
    cases hr.symm.trans hr'
    exact h.next hc (by simp) id (.inl rfl) s.readers
  -- what happens at the writer of another reader is nothing to this one
  | @offer chunk j todo failed rj hc hrj hj =>
    by_cases hji : j = i
    · subst hji
      cases hr.symm.trans hrj
      rw [List.getElem?_set_self (List.getElem?_eq_some_iff.mp hr).1] at hr'
      cases hr'
      exact h.offer ho hc _
    · rw [List.getElem?_set_ne hji] at hr'
      cases hr.symm.trans hr'
      exact h.next hc (by simpa using hji) id (.inr ⟨j, rfl⟩) _
  | @refuse chunk j todo failed hc hclosed =>
    cases hr.symm.trans hr'
    have hji : j ≠ i := by
      rintro rfl
      exact h.not_refused hopen hc (hclosed r hr)
    exact h.next hc (by simpa using hji) (by simp [hji.symm]) (.inl rfl) s.readers
  | evict hc =>
    cases hr.symm.trans hr'
    have hdata : r.pipe.data = [] := h.data_eq_nil (by simp [hc])
    rw [hc] at hconserved hlisted
    refine { h with conserved := ?_, data := by simp [hdata], closed := ?_, listed := ?_ }
    · rw [← hconserved]
      simp [Copier.owes]
    · intro hclosed
      obtain ⟨hexited, hqueue, -, htty⟩ := h.closed hclosed
      refine ⟨hexited, hqueue, by simp [Copier.todo], fun hno => ?_⟩
      simp [hc] at htty
      simp [htty] at hno
    · -- this writer has not failed, so it stays on the list
      refine ⟨List.mem_filter.mpr ⟨hlisted.1, ?_⟩, by simp [Copier.failed]⟩
      simpa [Copier.failed] using hlisted.2
  | @taken chunk j todo failed rj hc hrj hdata =>
    cases hr.symm.trans hr'
    have hdata' : r.pipe.data = [] := by
      by_cases hji : j = i
      · subst hji
        cases hr.symm.trans hrj
        exact hdata
      · exact h.data_eq_nil (by simp [hc, hji])
    exact h.written hc hdata' id s.readers
  | @abort chunk j todo failed rj hc hrj hdata hclosed =>
    have hji : j ≠ i := by
      rintro rfl
      cases hr.symm.trans hrj
      exact h.not_aborted hopen hok hr hc hdata hclosed
    rw [List.getElem?_set_ne hji] at hr'
    cases hr.symm.trans hr'
    exact h.written hc (h.data_eq_nil (by simp [hc, hji])) (by simp [hji.symm]) _
  | @missing chunk j todo failed hc hrj =>
    cases hr.symm.trans hr'
    have hji : j ≠ i := by
      rintro rfl
      simp [hr] at hrj
    exact h.written hc (h.data_eq_nil (by simp [hc, hji])) (by simp [hji.symm]) s.readers
  -- the broadcaster is closed by the copier of a terminal, with nothing left to write
  | @close writer todo hc =>
    obtain ⟨hexited, hqueue⟩ := ho.copied (by rw [hc]; rfl)
    obtain ⟨h', -⟩ := h.closeWriter hr
      (fun _ => ⟨hexited, hqueue, by simp [hc, Copier.todo], by simp [ho.closing _ hc]⟩) hr'
    obtain ⟨readers, hs⟩ := s.closeWriter_eq writer
    rw [hs] at h' ⊢
    apply h'.copierStep readers
    · exact h'.data_eq_nil (by simp [hc])
    · simp [hc]
    · simp [hc, Copier.owes]
    · simp [Copier.todo]
    · simp [Copier.failed]
  | closed hc =>
    cases hr.symm.trans hr'
    apply h.copierStep s.readers
    · exact h.data_eq_nil (by simp [hc])
    · simp [hc]
    · simp [hc, Copier.owes]
    · simp [Copier.todo]
    · simp [Copier.failed]

theorem monitorStep (h : Flow i s r) (ho : Ordered s) (hok : Orderly i s .monitor)
    (hr : s.readers[i]? = some r) (hstep : s.monitorStep = some s')
    (hr' : s'.readers[i]? = some r') : Flow i s' r' := by
  have hmonitored := h.monitored
  cases monitorStep_cases hstep with
  -- the monitor takes the list as it is now, and closes one writer after the other
  | wait hm _ _ =>
    cases hr.symm.trans hr'
    refine { h with monitored := ⟨fun todo htodo => ?_, by simp⟩ }
    cases htodo
    exact .inl h.listed.1
  | @close writer todo hm =>
    obtain ⟨hexited, hdone⟩ := ho.monitor (by simp [hm])
    have hclose : writer = .pipe i → s.exited = true ∧ s.queue = [] ∧ .pipe i ∉ s.copier.todo ∧
        (s.tty = false → s.copier = .done) := by
      rintro rfl
      cases htty : s.tty with
      | true =>
        obtain ⟨hqueue, hmem⟩ := hok htty (by rw [hm]; rfl)
        exact ⟨hexited, hqueue, hmem, by simp⟩
      | false =>
        have hcopier := hdone htty
        exact ⟨hexited, (ho.copied (by rw [hcopier]; rfl)).2, by simp [hcopier, Copier.todo],
          fun _ => hcopier⟩
    obtain ⟨h', hclosed, hkept⟩ := h.closeWriter hr hclose hr'
    obtain ⟨readers, hs⟩ := s.closeWriter_eq writer
    rw [hs] at h' ⊢
    refine { h' with monitored := ⟨fun todo' htodo => ?_, by simp⟩ }
    cases htodo
    rcases hmonitored.1 _ hm with hmem | hwriter
    · rcases List.mem_cons.mp hmem with hi | hmem
      · exact .inr (hclosed hi.symm)
      · exact .inl hmem
    · exact .inr (hkept hwriter)
  | closed hm =>
    cases hr.symm.trans hr'
    refine { h with monitored := ⟨by simp, fun _ => ?_⟩ }
    simpa using hmonitored.1 _ hm

end Flow

namespace Ordered

variable {s s' : State}

theorem started (h : State.Started s) : Ordered s where
  writers := h.nodup
  ahead := by simp [h.copier, Copier.ahead]
  copied := by simp [h.copier, Copier.isOver]
  closing := by simp [h.copier]
  monitor := by simp [h.monitor]
  drained j r hr hover := by
    obtain rfl | hclosed := h.readers r (List.mem_of_getElem? hr)
    · simp [BufReader.new, Drain.isOver] at hover
    · exact hclosed

/-- The readers after one of them has changed. -/
theorem set (h : Ordered s) {i : Nat} {r : BufReader}
    (hr : r.drain.isOver = true → r.pipe.isOpen = false) :
    Ordered { s with readers := s.readers.set i r } where
  writers := h.writers
  ahead := h.ahead
  copied := h.copied
  closing := h.closing
  monitor := h.monitor
  drained j r' hr' := by
    rw [List.getElem?_set] at hr'
    split at hr'
    · split at hr'
      · cases hr'
        exact hr
      · simp at hr'
    · exact h.drained j r' hr'

theorem closeWriter (h : Ordered s) (writer : Writer) : Ordered (s.closeWriter writer) := by
  cases writer with
  | log => exact h
  | pipe i =>
    refine { h with drained := fun j r hr => ?_ }
    rw [State.closeWriter, List.getElem?_modify] at hr
    obtain ⟨r₀, hr₀, rfl⟩ := Option.map_eq_some_iff.mp hr
    intro hover
    split
    · simp [Pipe.isOpen, Pipe.closeWriter]
    · next hij =>
      rw [if_neg hij] at hover
      exact h.drained j r₀ hr₀ hover

/-- The copier goes on, before its end. -/
theorem copier (h : Ordered s) {c : Copier} (hahead : c.ahead.Nodup) (hover : c.isOver = false)
    (hdone : s.copier ≠ .done) : Ordered { s with copier := c } where
  writers := h.writers
  ahead := hahead
  copied := by simp [hover]
  closing todo hc := by
    cases hc
    simp [Copier.isOver] at hover
  monitor hm := ⟨(h.monitor hm).1, fun htty => absurd ((h.monitor hm).2 htty) hdone⟩
  drained := h.drained

theorem copyStep (h : Ordered s) {n : Nat} (hstep : s.copyStep n = some s') : Ordered s' := by
  have hahead := h.ahead
  cases copyStep_cases hstep with
  -- each writer is ahead of the copier once at most in a chunk
  | @read m hc htake =>
    have h' := h.copier (c := .writing (s.queue.take m) s.writers []) h.writers rfl (by simp [hc])
    exact { h' with copied := by simp [Copier.isOver] }
  | finish hc hqueue hexited =>
    refine { h with ahead := ?_, copied := ?_, closing := ?_, monitor := ?_ }
    · cases s.tty <;> simp [Copier.ahead]
    · exact fun _ => ⟨hexited, hqueue⟩
    · cases s.tty <;> simp
    · exact fun _ => ⟨hexited, by simp +contextual⟩
  | log hc | refuse hc _ =>
    rw [hc] at hahead
    exact h.copier (List.nodup_cons.mp hahead).2 rfl (by simp [hc])
  | @offer chunk i todo failed r hc hr hopen =>
    rw [hc] at hahead
    have h' := h.copier (c := .offered chunk i todo failed) hahead rfl (by simp [hc])
    apply h'.set
    intro hover
    simp [h.drained i r hr hover] at hopen
  | evict hc =>
    have h' := h.copier (c := .reading) (by simp [Copier.ahead]) rfl (by simp [hc])
    exact { h' with writers := h.writers.filter _ }
  | taken hc _ _ | missing hc _ =>
    rw [hc] at hahead
    exact h.copier (List.nodup_cons.mp hahead).2 rfl (by simp [hc])
  | @abort chunk i todo failed r hc hr _ _ =>
    rw [hc] at hahead
    have h' := h.copier (c := .writing chunk todo (failed ++ [.pipe i]))
      (List.nodup_cons.mp hahead).2 rfl (by simp [hc])
    exact h'.set (h.drained i r hr)
  | @close writer todo hc =>
    obtain ⟨readers, hs⟩ := s.closeWriter_eq writer
    have h' := h.closeWriter writer
    rw [hs] at h' ⊢
    have htty : s.tty = true := h.closing _ hc
    have hend := h.copied (by rw [hc]; rfl)
    exact { h' with
      ahead := by simp [Copier.ahead]
      copied := fun _ => hend
      closing := fun _ _ => htty
      monitor := fun hm => ⟨(h.monitor hm).1, by simp [htty]⟩ }
  | closed hc =>
    have hend := h.copied (by rw [hc]; rfl)
    exact { h with
      ahead := by simp [Copier.ahead]
      copied := fun _ => hend
      closing := by simp
      monitor := fun _ => ⟨hend.1, fun _ => rfl⟩ }

theorem monitorStep (h : Ordered s) (hstep : s.monitorStep = some s') : Ordered s' := by
  cases monitorStep_cases hstep with
  | wait hm hexited hcopied =>
    refine { h with monitor := fun _ => ⟨hexited, fun (htty : s.tty = false) => ?_⟩ }
    simpa [htty] using hcopied
  | @close writer todo hm =>
    have h' := h.closeWriter writer
    have hmonitor := h.monitor (by simp [hm])
    obtain ⟨readers, hs⟩ := s.closeWriter_eq writer
    rw [hs] at h' ⊢
    exact { h' with monitor := fun _ => hmonitor }
  | closed hm =>
    have hmonitor := h.monitor (by simp [hm])
    exact { h with monitor := fun _ => hmonitor }

end Ordered

/-! ## Every state of a run -/

theorem stepReader_eq_some {s s' : State} {i : Nat} {f : BufReader → Option BufReader}
    (h : s.stepReader i f = some s') :
    ∃ r r', s.readers[i]? = some r ∧ f r = some r' ∧
      s' = { s with readers := s.readers.set i r' } := by
  obtain ⟨r', hbind, rfl⟩ := Option.map_eq_some_iff.mp h
  obtain ⟨r, hr, hf⟩ := Option.bind_eq_some_iff.mp hbind
  exact ⟨r, r', hr, hf, rfl⟩

/-- Reader `i` is there after a step, and its client has not closed it. -/
def Keeps (i : Nat) (s s' : State) : Prop :=
  ∀ r, s.readers[i]? = some r →
    ∃ r', s'.readers[i]? = some r' ∧ r'.pipe.readerClosed = r.pipe.readerClosed

namespace Keeps

variable {s s' : State} (i : Nat)

theorem of_eq (h : s'.readers = s.readers) : Keeps i s s' := by
  intro r hr
  exact ⟨r, h ▸ hr, rfl⟩

theorem set {j : Nat} {r r' : BufReader} (hr : s.readers[j]? = some r)
    (hs : s'.readers = s.readers.set j r')
    (h : r'.pipe.readerClosed = r.pipe.readerClosed) : Keeps i s s' := by
  intro r₀ hr₀
  rw [hs]
  by_cases hj : j = i
  · subst hj
    cases hr.symm.trans hr₀
    exact ⟨r', List.getElem?_set_self (List.getElem?_eq_some_iff.mp hr).1, h⟩
  · exact ⟨r₀, by rw [List.getElem?_set_ne hj, hr₀], rfl⟩

theorem closeWriter (writer : Writer) (hs : s'.readers = (s.closeWriter writer).readers) :
    Keeps i s s' := by
  intro r hr
  rw [hs]
  cases writer with
  | log => exact ⟨r, hr, rfl⟩
  | pipe j =>
    rw [State.closeWriter, List.getElem?_modify, hr]
    by_cases hj : j = i
    · exact ⟨_, congrArg _ (if_pos hj), rfl⟩
    · exact ⟨r, congrArg _ (if_neg hj), rfl⟩

theorem copyStep {n : Nat} (h : s.copyStep n = some s') : Keeps i s s' := by
  cases copyStep_cases h with
  | offer _ hr _ => exact set i hr rfl rfl
  | abort _ hr _ _ => exact set i hr rfl rfl
  | close _ => exact closeWriter i _ rfl
  | _ => exact of_eq i rfl

theorem monitorStep (h : s.monitorStep = some s') : Keeps i s s' := by
  cases monitorStep_cases h with
  | close _ => exact closeWriter i _ rfl
  | _ => exact of_eq i rfl

end Keeps

theorem readerClosed_drainStep {r r' : BufReader} (h : r.drainStep = some r') :
    r'.pipe.readerClosed = r.pipe.readerClosed := by
  unfold BufReader.drainStep at h
  split at h
  · split at h
    · cases h
      rfl
    · split at h
      · next htake =>
        obtain ⟨-, rfl⟩ := Pipe.take_eq_some htake
        cases h
        rfl
      · split at h
        · cases h
          rfl
        · simp at h
  all_goals cases h <;> rfl

theorem readStep_eq_some {r r' : BufReader} {n : Nat} (h : r.readStep n = some r') :
    r'.pipe = r.pipe ∧ r'.drain = r.drain := by
  unfold BufReader.readStep at h
  split at h
  · cases h
    exact ⟨rfl, rfl⟩
  · split at h <;> cases h <;> exact ⟨rfl, rfl⟩
  · cases h
    exact ⟨rfl, rfl⟩
  · cases h
    exact ⟨rfl, rfl⟩
  · simp at h
  · simp at h

/-- `Flow` of a reader, unless its client has closed it. -/
structure Inv (i : Nat) (s : State) : Prop where
  ordered : Ordered s
  flow : ∃ r, s.readers[i]? = some r ∧ (r.pipe.readerClosed = false → Flow i s r)

namespace Inv

variable {i : Nat} {s s' : State}

theorem keeps (h : Inv i s) (hkeeps : Keeps i s s') (ho : Ordered s')
    (hflow : ∀ r r', s.readers[i]? = some r → s'.readers[i]? = some r' →
      r.pipe.readerClosed = false → Flow i s r → Flow i s' r') : Inv i s' := by
  obtain ⟨r, hr, hf⟩ := h.flow
  obtain ⟨r', hr', hclosed⟩ := hkeeps r hr
  refine ⟨ho, r', hr', fun hopen => ?_⟩
  rw [hclosed] at hopen
  exact hflow r r' hr hr' hopen (hf hopen)

/-- A step of one reader. -/
theorem stepReader (h : Inv i s) {j : Nat} {f : BufReader → Option BufReader}
    (hstep : s.stepReader j f = some s')
    (hover : ∀ r r', f r = some r' → (r.drain.isOver = true → r.pipe.isOpen = false) →
      r'.drain.isOver = true → r'.pipe.isOpen = false)
    (hflow : ∀ r r', j = i → s.readers[i]? = some r → f r = some r' →
      (r.pipe.readerClosed = false → Flow i s r) → r'.pipe.readerClosed = false → Flow i s r') :
    Inv i s' := by
  obtain ⟨r, r', hr, hf, rfl⟩ := stepReader_eq_some hstep
  refine ⟨h.ordered.set (hover r r' hf (h.ordered.drained j r hr)), ?_⟩
  obtain ⟨r₀, hr₀, hflow₀⟩ := h.flow
  by_cases hj : j = i
  · subst hj
    cases hr.symm.trans hr₀
    refine ⟨r', List.getElem?_set_self (List.getElem?_eq_some_iff.mp hr).1, fun hopen => ?_⟩
    exact { hflow r r' rfl hr hf hflow₀ hopen with }
  · refine ⟨r₀, (List.getElem?_set_ne hj).trans hr₀, fun hopen => ?_⟩
    exact { hflow₀ hopen with }

theorem step (h : Inv i s) {op : Op} (hok : Orderly i s op) (hstep : s.step op = some s') :
    Inv i s' := by
  cases op with
  | write b =>
    rw [State.step] at hstep
    split at hstep
    · simp at hstep
    -- the process writes only before it exits, and the copier ends only after that
    · next hexited =>
      cases hstep
      have hover : s.copier.isOver ≠ true := fun hover => hexited (h.ordered.copied hover).1
      refine h.keeps (Keeps.of_eq i rfl) ?_ ?_
      · exact { h.ordered with copied := fun hc => absurd hc hover }
      · intro r r' hr hr' _ hf
        cases hr.symm.trans hr'
        refine { hf with conserved := ?_, closed := ?_ }
        · show _ ++ (s.queue ++ s.output b) = s.written ++ b
          rw [← hf.conserved, output_eq hok, ← List.append_assoc]
        · exact fun hclosed => absurd (hf.closed hclosed).1 hexited
  | setOnlcr onlcr =>
    rw [State.step] at hstep
    split at hstep
    · simp at hstep
    · cases hstep
      refine h.keeps (Keeps.of_eq i rfl) { h.ordered with } ?_
      intro r r' hr hr' _ hf
      cases hr.symm.trans hr'
      exact { hf with }
  | exit =>
    rw [State.step] at hstep
    split at hstep
    · simp at hstep
    · cases hstep
      refine h.keeps (Keeps.of_eq i rfl) ?_ ?_
      · refine { h.ordered with copied := ?_, monitor := ?_ }
        · exact fun hc => ⟨rfl, (h.ordered.copied hc).2⟩
        · exact fun hm => ⟨rfl, (h.ordered.monitor hm).2⟩
      · intro r r' hr hr' _ hf
        cases hr.symm.trans hr'
        exact { hf with closed := fun hclosed => ⟨rfl, (hf.closed hclosed).2⟩ }
  | copy n =>
    apply h.keeps (Keeps.copyStep i hstep) (h.ordered.copyStep hstep)
    intro r r' hr hr' hopen hf
    exact hf.copyStep h.ordered hopen hok hr hstep hr'
  | monitor =>
    apply h.keeps (Keeps.monitorStep i hstep) (h.ordered.monitorStep hstep)
    intro r r' hr hr' hopen hf
    exact hf.monitorStep h.ordered hok hr hstep hr'
  | drain j =>
    apply h.stepReader hstep fun r r' => BufReader.drainStep_over
    intro r r' _ _ hf hflow hopen
    rw [readerClosed_drainStep hf] at hopen
    exact (hflow hopen).drainStep hopen hf
  | read j n =>
    apply h.stepReader hstep
    · intro r r' hf hr
      obtain ⟨hpipe, hdrain⟩ := readStep_eq_some hf
      rwa [hpipe, hdrain]
    · intro r r' hj hr hf hflow hopen
      rw [(readStep_eq_some hf).1] at hopen
      obtain ⟨hcheck, hlock⟩ := hok hj r hr
      apply (hflow hopen).readStep ?_ ?_ hf
      · exact fun n hclient => hcheck (by rw [hclient]; rfl)
      · exact fun n hclient => hlock (by rw [hclient]; rfl)
  | closeReader j =>
    apply h.stepReader hstep
    · intro r r' hf _ _
      cases hf
      simp [Pipe.isOpen, Pipe.closeReader]
    · intro r r' _ _ hf _ hopen
      cases hf
      simp [Pipe.closeReader] at hopen

theorem started (h : (outputSystem i).init s) : Inv i s := by
  obtain ⟨hs, hmem, hr⟩ := h
  refine ⟨.started hs, _, hr, fun _ => ?_⟩
  exact {
    conserved := by simp [BufReader.new, Pipe.new, Drain.held, hs.copier, Copier.owes, hs.queue,
      hs.written]
    data := by simp [BufReader.new, Pipe.new]
    closed := by simp [BufReader.new, Pipe.new]
    stopped := by simp [BufReader.new, Drain.isOver]
    err := by simp [BufReader.new]
    ended := by simp [BufReader.new]
    awake := by simp [BufReader.new]
    listed := ⟨hmem, by simp [hs.copier, Copier.failed]⟩
    monitored := by simp [hs.monitor] }

end Inv

/-! ## When nothing moves any more -/

/-- The process has exited, and neither the goroutines nor the client of pipe `i` can do
    anything. -/
structure Quiet (i : Nat) (s : State) : Prop where
  exited : s.exited = true
  copy : ∀ n, s.step (.copy n) = none
  monitor : s.step .monitor = none
  drain : ∀ j, s.step (.drain j) = none
  read : ∀ n, s.step (.read i n) = none

namespace Quiet

variable {i : Nat} {s : State}

theorem reader (h : Quiet i s) {j : Nat} {r : BufReader} (hr : s.readers[j]? = some r) :
    r.drainStep = none := by
  have hdrain := h.drain j
  simpa [State.step, State.stepReader, hr] using hdrain

/-- A `drain` that cannot go on has met an end of its pipe that is closed, or waits for
    bytes. -/
theorem drain_cases {r : BufReader} (h : r.drainStep = none) :
    r.drain = .done ∨ (r.drain = .reading ∧ r.pipe.data = [] ∧ r.pipe.isOpen = true) := by
  unfold BufReader.drainStep at h
  split at h
  · next hdrain =>
    split at h
    · simp at h
    · next hopen =>
      split at h
      · simp at h
      · next htake =>
        have hdata : r.pipe.data = [] := by
          simpa [Pipe.take] using htake
        split at h
        · simp at h
        · next hend =>
          refine .inr ⟨hdrain, hdata, ?_⟩
          simpa [Pipe.atEnd, Pipe.isOpen, hdata, hopen] using hend
  · simp at h
  · simp at h
  · simp at h
  · next hdrain => exact .inl hdrain

theorem copied (h : Quiet i s) (ho : Ordered s) : s.copier = .done := by
  have hcopy := h.copy 1
  simp only [State.step] at hcopy
  unfold State.copyStep at hcopy
  split at hcopy
  · split at hcopy
    · simp at hcopy
    · next htake =>
      have hqueue : s.queue = [] := by simpa using htake
      simp [hqueue, h.exited] at hcopy
  · simp at hcopy
  · simp at hcopy
  · simp at hcopy
  · next chunk j todo failed hc =>
    exfalso
    unfold State.endWrite at hcopy
    split at hcopy
    · simp at hcopy
    · next r hr =>
      split at hcopy
      · simp at hcopy
      · next hdata =>
        split at hcopy
        · next hopen =>
          -- `drain` would take the bytes, or has met a closed end
          obtain hdone | ⟨-, hnil, -⟩ := drain_cases (h.reader hr)
          · have hclosed := ho.drained j r hr (by rw [hdone]; rfl)
            simp [hclosed] at hopen
          · exact hdata hnil
        · simp at hcopy
  · simp at hcopy
  · simp at hcopy
  · next hc => exact hc

theorem monitored (h : Quiet i s) (ho : Ordered s) : s.monitor = .closed := by
  have hmonitor := h.monitor
  have hcopied := h.copied ho
  simp only [State.step] at hmonitor
  unfold State.monitorStep at hmonitor
  split at hmonitor
  · simp [h.exited, hcopied] at hmonitor
  · simp at hmonitor
  · simp at hmonitor
  · next hm => exact hm

/-- The client has got the end of the file. -/
theorem ended (h : Quiet i s) (ho : Ordered s) {r : BufReader} (hr : s.readers[i]? = some r)
    (hf : Flow i s r) : r.client = .ended := by
  have hclosed : r.pipe.writerClosed = true := hf.monitored.2 (h.monitored ho)
  have hdone : r.drain = .done := by
    obtain hdone | ⟨-, -, hopen⟩ := drain_cases (h.reader hr)
    · exact hdone
    · simp [Pipe.isOpen, hclosed] at hopen
  have hread : r.readStep 0 = none := by
    have hread := h.read 0
    simpa [State.step, State.stepReader, hr] using hread
  unfold BufReader.readStep at hread
  split at hread
  · simp at hread
  · split at hread <;> simp at hread
  · simp at hread
  · simp at hread
  · next n hclient => exact absurd hdone (hf.awake n hclient)
  · next hclient => exact hclient

end Quiet

namespace Flow

variable {i : Nat} {s : State} {r : BufReader}

theorem front (h : Flow i s r) : r.yielded <+: s.written := by
  rw [← h.conserved]
  simp only [List.append_assoc]
  exact List.prefix_append _ _

/-- At the end of the file nothing is on its way. -/
theorem yielded_eq (h : Flow i s r) (hended : r.client = .ended) :
    s.exited = true ∧ r.yielded = s.written := by
  obtain ⟨herr, hbuf⟩ := h.ended hended
  have hdrain : r.drain.isOver = true ∧ r.drain.held = [] := by
    obtain hd | hd := h.err.mp herr
    · rw [hd]
      exact ⟨rfl, rfl⟩
    · rw [hd]
      exact ⟨rfl, rfl⟩
  obtain ⟨hdata, hclosed⟩ := h.stopped hdrain.1
  obtain ⟨hexited, hqueue, hmem, -⟩ := h.closed hclosed
  refine ⟨hexited, ?_⟩
  rw [← h.conserved, hbuf, hdrain.2, hdata, Copier.owes_of_notMem hmem, hqueue]
  simp

end Flow

/-- A container with one pipe, about to run. -/
def onePipe (tty : Bool) : State :=
  ⟨tty, true, [], false, [], .reading, .waiting, [.log, .pipe 0], [.new]⟩

theorem onePipe_init (tty : Bool) : (outputSystem 0).init (onePipe tty) := by
  cases tty <;> exact ⟨⟨rfl, rfl, rfl, rfl, rfl, rfl, by decide, by decide⟩, by decide, rfl⟩

/-- The copier reads up to four bytes and hands them to both writers. -/
def copyChunk : List Op := [.copy 4, .copy 4, .copy 4, .drain 0, .copy 4, .copy 4]

/-- `monitor` waits and closes both writers. -/
def closeAll : List Op := [.monitor, .monitor, .monitor, .monitor]

end Docker.Output
