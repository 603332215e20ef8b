import DockerEngine.Native.Untar

/-!
# When `AddLayer` gets stuck

The goroutine never closes its end of the pipe, and `AddLayer` does not wait for the
goroutine after an error of the archive.

- `addLayer_not_stuck`: no state is stuck while the archive has no error, and the command leaves
  nothing of it in the pipe
- `Abandoned.writeStuck`, `sendStuck_of_returned`: the two states that are stuck
-/

namespace Docker.Untar

open Go

/-- `io.Copy` has returned. -/
def Main.copied : Main → Bool
  | .read | .write => false
  | .close _ | .wait | .returned _ => true

def Main.closed : Main → Bool
  | .read | .write | .close _ => false
  | .wait | .returned _ => true

def Main.isReturned : Main → Bool
  | .read | .write | .close _ | .wait => false
  | .returned _ => true

/-- `Untar` has returned. -/
def Worker.untarred : Worker → Bool
  | .spawned | .running => false
  | .send _ | .ended => true

def Main.left : Main → Nat
  | .write => 4
  | .read => 3
  | .close _ => 2
  | .wait => 1
  | .returned _ => 0

def Worker.left : Worker → Nat
  | .spawned => 5
  | .running => 2
  | .send _ => 1
  | .ended => 0

def Copier.left : Copier → Nat
  | .writing chunk => 3 + 3 * chunk.length
  | .reading => 2
  | .absent | .done => 0

namespace State

/-- What is to come out of the pipe, as `io.Copy` writes it. -/
def pieces (s : State) : List (List UInt8) := (s.pipe.data :: s.chunks).filter (· ≠ [])

/-- `io.Copy` is in a write of which nobody will take another byte. -/
def WriteStuck (s : State) : Prop :=
  s.main = .write ∧ s.pipe.data ≠ [] ∧
    ∀ es s', untarSystem.run s es = some s' → s'.pipe = s.pipe

/-- The goroutine sends what nobody will receive. -/
def SendStuck (s : State) : Prop :=
  ∃ err, s.worker = .send err ∧ ∀ es s', untarSystem.run s es = some s' → s'.worker = .send err

/-- Nothing is left to come, or what one read of a copy that is at its read gets. -/
def Drained (s : State) : Prop :=
  s.pieces = [] ∨
    s.copier = .reading ∧ s.pieces.length ≤ 1 ∧ ∀ piece ∈ s.pieces, piece.length ≤ copyBuffer

/-- The archive has no error, and the command starts and stays until the archive is taken. -/
def Cooperates (s : State) : Op → Prop
  | .start err => s.archiveErr = none ∧ (err = none ∨ s.pieces = [])
  | .exit _ => s.archiveErr = none ∧ s.Drained
  | _ => s.archiveErr = none

/-- What is left of a run: the bytes by how far they have come, and the steps. -/
def left (s : State) : Nat :=
  5 * (s.chunks.flatten.length + s.pipe.data.length) + 2 * s.chunks.length + s.main.left +
    s.worker.left + s.copier.left + s.buffer.length + (if s.exit = none then 1 else 0)

instance (s : State) : Decidable s.Drained := inferInstanceAs (Decidable (_ ∨ _))

instance (s : State) : (op : Op) → Decidable (s.Cooperates op)
  | .start _ | .exit _ => inferInstanceAs (Decidable (_ ∧ _))
  | .read | .written | .close | .receive | .take | .eof | .fill | .consume _ | .waited =>
    inferInstanceAs (Decidable (_ = _))

end State

variable {s s' : State}

/-! ## What a step can do -/

theorem read_cases (h : s.read = some s') :
    s.main = .read ∧
      (s.chunks = [] ∧ s' = { s with main := .close s.archiveErr } ∨
        ∃ chunk chunks, s.chunks = chunk :: chunks ∧
          (chunk = [] ∧ s' = { s with chunks } ∨
            chunk ≠ [] ∧ s.pipe.isOpen = true ∧
              s' = { s with chunks, pipe := { s.pipe with data := chunk }, main := .write } ∨
            chunk ≠ [] ∧ s.pipe.isOpen = false ∧
              s' = { s with
                chunks
                main := .close (some (str "io: read/write on closed pipe")) })) := by
  unfold State.read at h
  split at h
  · next hmain hchunks =>
    exact ⟨hmain, .inl ⟨hchunks, (Option.some.inj h).symm⟩⟩
  · next chunk chunks hmain hchunks =>
    refine ⟨hmain, .inr ⟨chunk, chunks, hchunks, ?_⟩⟩
    split at h
    · next hnil => exact .inl ⟨hnil, (Option.some.inj h).symm⟩
    · next hne =>
      split at h
      · next pipe hoffer =>
        obtain ⟨hopen, rfl⟩ := Pipe.offer_eq_some hoffer
        exact .inr (.inl ⟨hne, hopen, (Option.some.inj h).symm⟩)
      · next hoffer =>
        refine .inr (.inr ⟨hne, ?_, (Option.some.inj h).symm⟩)
        simpa [Pipe.offer] using hoffer
  · simp at h

theorem close_cases (h : s.close = some s') :
    ∃ err, s.main = .close err ∧
      s' = { s with
        pipe := s.pipe.closeWriter
        main := if err.isSome then .returned err else .wait } := by
  unfold State.close at h
  split at h
  · next err hmain =>
    refine ⟨err, hmain, ?_⟩
    cases err <;> exact (Option.some.inj h).symm
  · simp at h

theorem fill_cases (h : s.fill = some s') :
    ∃ chunk, s.copier = .writing chunk ∧
      (s.exit.isSome = true ∧ s' = { s with copier := .done } ∨
        s.exit = none ∧ s.buffer.length < pipeBuffer ∧
          s' = { s with
            buffer := s.buffer ++ chunk.take (pipeBuffer - s.buffer.length)
            copier :=
              if chunk.drop (pipeBuffer - s.buffer.length) = [] then .reading
              else .writing (chunk.drop (pipeBuffer - s.buffer.length)) }) := by
  unfold State.fill at h
  split at h
  · next chunk hcopier =>
    refine ⟨chunk, hcopier, ?_⟩
    split at h
    · next hexit => exact .inl ⟨hexit, (Option.some.inj h).symm⟩
    · next hexit =>
      split at h
      · next hroom =>
        exact .inr ⟨by simpa using hexit, hroom, (Option.some.inj h).symm⟩
      · simp at h
  · simp at h

theorem written_cases (h : s.step .written = some s') :
    (s.main = .write ∧ s.pipe.data = []) ∧ s' = { s with main := .read } := by
  simp only [State.step, Option.ite_none_right_eq_some, Option.some.injEq] at h
  exact ⟨h.1, h.2.symm⟩

theorem eof_cases (h : s.step .eof = some s') :
    (s.copier = .reading ∧ s.pipe.atEnd = true) ∧ s' = { s with copier := .done } := by
  simp only [State.step, Option.ite_none_right_eq_some, Option.some.injEq] at h
  exact ⟨h.1, h.2.symm⟩

theorem consume_cases {n : Nat} (h : s.step (.consume n) = some s') :
    (s.worker = .running ∧ s.exit = none ∧ 0 < n ∧ n ≤ s.buffer.length) ∧
      s' = { s with buffer := s.buffer.drop n } := by
  simp only [State.step, Option.ite_none_right_eq_some, Option.some.injEq] at h
  exact ⟨h.1, h.2.symm⟩

theorem exit_cases {err : Option GoString} (h : s.step (.exit err) = some s') :
    (s.worker = .running ∧ s.exit = none) ∧ s' = { s with exit := some err } := by
  simp only [State.step, Option.ite_none_right_eq_some, Option.some.injEq] at h
  exact ⟨h.1, h.2.symm⟩

theorem take_cases (h : s.step .take = some s') :
    s.copier = .reading ∧ s.pipe.data ≠ [] ∧
      s' = { s with
        pipe := { s.pipe with
          sent := s.pipe.sent ++ s.pipe.data.take copyBuffer
          data := s.pipe.data.drop copyBuffer }
        copier := .writing (s.pipe.data.take copyBuffer) } := by
  simp only [State.step, Option.ite_none_right_eq_some, Option.map_eq_some_iff] at h
  obtain ⟨hcopier, ⟨chunk, pipe⟩, htake, rfl⟩ := h
  obtain ⟨rfl, rfl⟩ := Pipe.take_eq_some htake
  refine ⟨hcopier, fun hdata => ?_, rfl⟩
  simp [Pipe.take, hdata] at htake

theorem receive_cases (h : s.step .receive = some s') :
    s.main = .wait ∧
      ∃ err, s.worker = .send err ∧ s' = { s with main := .returned err, worker := .ended } := by
  simp only [State.step] at h
  split at h
  · next err hmain hworker => exact ⟨hmain, err, hworker, (Option.some.inj h).symm⟩
  · simp at h

theorem start_cases {err : Option GoString} (h : s.step (.start err) = some s') :
    s.worker = .spawned ∧
      (err = none ∧ s' = { s with worker := .running, copier := .reading } ∨
        err.isSome = true ∧ s' = { s with worker := .send err }) := by
  simp only [State.step, Option.ite_none_right_eq_some] at h
  obtain ⟨hworker, h⟩ := h
  refine ⟨hworker, ?_⟩
  cases err with
  | none => exact .inl ⟨rfl, (Option.some.inj h).symm⟩
  | some err => exact .inr ⟨rfl, (Option.some.inj h).symm⟩

theorem waited_cases (h : s.step .waited = some s') :
    s.worker = .running ∧ s.copier = .done ∧
      ∃ err, s.exit = some err ∧ s' = { s with worker := .send err } := by
  simp only [State.step] at h
  split at h
  · next err hworker hcopier hexit =>
    exact ⟨hworker, hcopier, err, hexit, (Option.some.inj h).symm⟩
  · simp at h

/-! ## The stuck states -/

/-- `io.Copy` is in a write, and the copy to the command has ended. -/
structure Abandoned (pipe : Pipe) (s : State) : Prop where
  pipe_eq : s.pipe = pipe
  data : s.pipe.data ≠ []
  main : s.main = .write
  worker : s.worker ≠ .spawned
  copier : s.copier = .done

theorem Abandoned.step {pipe : Pipe} {op : Op} (h : Abandoned pipe s)
    (hstep : s.step op = some s') : Abandoned pipe s' := by
  obtain ⟨hpipe, hdata, hmain, hworker, hcopier⟩ := h
  cases op with
  | read => simp [read_cases hstep] at hmain
  | written => simp [State.step, hdata] at hstep
  | close =>
    obtain ⟨err, hclose, -⟩ := close_cases hstep
    simp [hmain] at hclose
  | receive => simp [receive_cases hstep] at hmain
  | start err => exact absurd (start_cases hstep).1 hworker
  | take => simp [take_cases hstep] at hcopier
  | eof => simp [State.step, hcopier] at hstep
  | fill =>
    obtain ⟨chunk, hfill, -⟩ := fill_cases hstep
    simp [hcopier] at hfill
  | consume n =>
    obtain ⟨-, rfl⟩ := consume_cases hstep
    exact ⟨hpipe, hdata, hmain, hworker, hcopier⟩
  | exit err =>
    obtain ⟨-, rfl⟩ := exit_cases hstep
    exact ⟨hpipe, hdata, hmain, hworker, hcopier⟩
  | waited =>
    obtain ⟨-, -, err, -, rfl⟩ := waited_cases hstep
    exact ⟨hpipe, hdata, hmain, nofun, hcopier⟩

/-- When the copy to the command has ended, what is in the pipe stays there. -/
theorem Abandoned.writeStuck (h : Abandoned s.pipe s) : s.WriteStuck :=
  ⟨h.main, h.data, fun _ _ hrun =>
    (untarSystem.run_invariant (fun _ _ _ h hstep => h.step hstep) h hrun).pipe_eq⟩

/-- When `AddLayer` has returned, what the goroutine sends is not received. -/
theorem sendStuck_of_returned {err err' : Option GoString} (hmain : s.main = .returned err)
    (hworker : s.worker = .send err') : s.SendStuck := by
  refine ⟨err', hworker, fun es s' hrun => ?_⟩
  refine (untarSystem.run_invariant (P := fun s => s.main = .returned err ∧ s.worker = .send err')
    ?_ ⟨hmain, hworker⟩ hrun).2
  rintro s op s' ⟨hmain, hworker⟩ hstep
  change s.step op = some s' at hstep
  cases op with
  | read => simp [read_cases hstep] at hmain
  | written => simp [State.step, hmain] at hstep
  | close =>
    obtain ⟨err, hclose, -⟩ := close_cases hstep
    simp [hmain] at hclose
  | receive => simp [receive_cases hstep] at hmain
  | start err => simp [start_cases hstep] at hworker
  | take =>
    obtain ⟨-, -, rfl⟩ := take_cases hstep
    exact ⟨hmain, hworker⟩
  | eof =>
    obtain ⟨-, rfl⟩ := eof_cases hstep
    exact ⟨hmain, hworker⟩
  | fill =>
    obtain ⟨chunk, -, ⟨-, rfl⟩ | ⟨-, -, rfl⟩⟩ := fill_cases hstep
    · exact ⟨hmain, hworker⟩
    · exact ⟨hmain, hworker⟩
  | consume n => simp [State.step, hworker] at hstep
  | exit err => simp [State.step, hworker] at hstep
  | waited => simp [waited_cases hstep] at hworker

/-! ## Every run ends -/

/-- Every step brings the run nearer to its end. -/
theorem left_lt {op : Op} (h : s.step op = some s') : s'.left < s.left := by
  cases op with
  | read =>
    obtain ⟨hmain, ⟨-, rfl⟩ | ⟨chunk, chunks, hchunks, ⟨rfl, rfl⟩ | ⟨-, -, rfl⟩ | ⟨-, -, rfl⟩⟩⟩ :=
      read_cases h
    -- no chunk is left, the chunk is empty, it is written, or the reader has gone
    · simp [State.left, Main.left, hmain]
    · simp [State.left, hchunks]
    · simp only [State.left, Main.left, hmain, hchunks, List.flatten_cons, List.length_append,
        List.length_cons]
      omega
    · simp only [State.left, Main.left, hmain, hchunks, List.flatten_cons, List.length_append,
        List.length_cons]
      omega
  | written =>
    obtain ⟨⟨hmain, -⟩, rfl⟩ := written_cases h
    simp [State.left, Main.left, hmain]
  | close =>
    obtain ⟨err, hmain, rfl⟩ := close_cases h
    cases err <;> simp [State.left, Main.left, Pipe.closeWriter, hmain]
  | receive =>
    obtain ⟨hmain, err, hworker, rfl⟩ := receive_cases h
    simp only [State.left, Main.left, Worker.left, hmain, hworker]
    omega
  | start err =>
    obtain ⟨hworker, ⟨-, rfl⟩ | ⟨-, rfl⟩⟩ := start_cases h
    · simp only [State.left, Worker.left, Copier.left, hworker]
      omega
    · simp [State.left, Worker.left, hworker]
  | take =>
    obtain ⟨hcopier, hdata, rfl⟩ := take_cases h
    have hlen : 0 < s.pipe.data.length := List.length_pos_iff.mpr hdata
    simp only [State.left, Copier.left, copyBuffer, hcopier, List.length_take, List.length_drop]
    omega
  | eof =>
    obtain ⟨⟨hcopier, -⟩, rfl⟩ := eof_cases h
    simp [State.left, Copier.left, hcopier]
  | fill =>
    obtain ⟨chunk, hcopier, ⟨-, rfl⟩ | ⟨hexit, hroom, rfl⟩⟩ := fill_cases h
    · simp only [State.left, Copier.left, hcopier]
      omega
    · -- the buffer takes the chunk as a whole, or what there is room for
      by_cases hfits : chunk.length ≤ pipeBuffer - s.buffer.length
      · simp only [State.left, Copier.left, hcopier, List.drop_eq_nil_iff, hfits, if_true,
          List.length_append, List.length_take]
        omega
      · simp only [State.left, Copier.left, hcopier, List.drop_eq_nil_iff, hfits, if_false,
          List.length_append, List.length_take, List.length_drop]
        omega
  | consume n =>
    obtain ⟨⟨-, -, hn, hle⟩, rfl⟩ := consume_cases h
    simp only [State.left, List.length_drop]
    omega
  | exit err =>
    obtain ⟨⟨-, hexit⟩, rfl⟩ := exit_cases h
    simp [State.left, hexit]
  | waited =>
    obtain ⟨hworker, -, err, -, rfl⟩ := waited_cases h
    simp [State.left, Worker.left, hworker]

/-! ## Runs that cooperate -/

structure Inv (s : State) : Prop where
  archiveErr : s.archiveErr = none
  data : s.main ≠ .write → s.pipe.data = []
  reader : s.pipe.readerClosed = false
  writer : s.pipe.writerClosed = s.main.closed
  copied : s.main.copied = true → s.chunks = []
  noErr : ∀ err, s.main = .close err → err = none
  done : s.copier = .done → s.pieces = []
  exit : s.exit.isSome = true → s.Drained
  running : s.worker = .running → s.copier ≠ .absent
  untarred : s.worker.untarred = true → s.pieces = []
  returned : s.main.isReturned = true ↔ s.worker = .ended

theorem State.Fresh.inv (h : s.Fresh) (harchive : s.archiveErr = none) : Inv s := by
  obtain ⟨hpipe, hmain, hworker, hcopier, -, hexit⟩ := h
  constructor <;> simp [hpipe, hmain, hworker, hcopier, hexit, harchive, Pipe.new, Main.closed,
    Main.copied, Main.isReturned, Worker.untarred]

namespace Inv

variable (h : Inv s)
include h

theorem pieces_copied (hmain : s.main.copied = true) : s.pieces = [] := by
  have hwrite : s.main ≠ .write := by
    intro hwrite
    simp [hwrite, Main.copied] at hmain
  simp [State.pieces, h.data hwrite, h.copied hmain]

theorem read (hstep : s.read = some s') : Inv s' := by
  obtain ⟨hmain, hread⟩ := read_cases hstep
  have hdata : s.pipe.data = [] := h.data (by simp [hmain])
  have hwriter : s.pipe.writerClosed = false := by rw [h.writer, hmain, Main.closed]
  have hworker : s.worker ≠ .ended := by simp [← h.returned, hmain, Main.isReturned]
  obtain ⟨hchunks, rfl⟩ | ⟨chunk, chunks, hchunks, ⟨rfl, rfl⟩ | ⟨hne, -, rfl⟩ | ⟨-, hclosed, -⟩⟩ :=
    hread
  · exact { h with
      data := fun _ => hdata
      writer := hwriter
      copied := fun _ => hchunks
      noErr := fun err herr => by cases herr; exact h.archiveErr
      returned := by simp [Main.isReturned, hworker] }
  · -- the bytes that the command has to get stay the same
    have hpieces : State.pieces { s with chunks } = s.pieces := by
      simp [State.pieces, hchunks, hdata]
    exact { h with
      copied := by simp [hmain, Main.copied]
      done := fun hdone => by rw [hpieces, h.done hdone]
      exit := fun hexit => by simpa only [State.Drained, hpieces] using h.exit hexit
      untarred := fun hw => by rw [hpieces, h.untarred hw] }
  · have hpieces : State.pieces
        { s with chunks, pipe := { s.pipe with data := chunk }, main := .write } = s.pieces := by
      simp [State.pieces, hchunks, hdata]
    exact { h with
      data := fun hmain => absurd rfl hmain
      writer := hwriter
      copied := nofun
      noErr := nofun
      done := fun hdone => by rw [hpieces, h.done hdone]
      exit := fun hexit => by simpa only [State.Drained, hpieces] using h.exit hexit
      untarred := fun hw => by rw [hpieces, h.untarred hw]
      returned := by simp [Main.isReturned, hworker] }
  · simp [Pipe.isOpen, hwriter, h.reader] at hclosed

theorem written (hstep : s.step .written = some s') : Inv s' := by
  obtain ⟨⟨hmain, hdata⟩, rfl⟩ := written_cases hstep
  exact { h with
    data := fun _ => hdata
    writer := by rw [h.writer, hmain]; rfl
    copied := nofun
    noErr := nofun
    returned := by rw [← h.returned, hmain]; rfl }

theorem close (hstep : s.close = some s') : Inv s' := by
  obtain ⟨err, hmain, rfl⟩ := close_cases hstep
  obtain rfl := h.noErr err hmain
  exact { h with
    data := fun _ => h.data (by simp [hmain])
    writer := rfl
    copied := fun _ => h.copied (by simp [hmain, Main.copied])
    noErr := nofun
    returned := by rw [← h.returned, hmain]; rfl }

theorem receive (hstep : s.step .receive = some s') : Inv s' := by
  obtain ⟨hmain, err, hworker, rfl⟩ := receive_cases hstep
  exact { h with
    data := fun _ => h.data (by simp [hmain])
    writer := by rw [h.writer, hmain]; rfl
    copied := fun _ => h.copied (by simp [hmain, Main.copied])
    noErr := nofun
    running := nofun
    untarred := fun _ => h.untarred (by simp [hworker, Worker.untarred])
    returned := by simp [Main.isReturned] }

theorem start {err : Option GoString} (hok : s.Cooperates (.start err))
    (hstep : s.step (.start err) = some s') : Inv s' := by
  obtain ⟨hworker, ⟨-, rfl⟩ | ⟨herr, rfl⟩⟩ := start_cases hstep
  · exact { h with
      done := nofun
      exit := fun hexit => (h.exit hexit).imp id fun hlast => ⟨rfl, hlast.2⟩
      running := nofun
      untarred := nofun
      returned := by simp [h.returned, hworker] }
  -- nobody will read, but nothing is to come
  · have hpieces : s.pieces = [] := hok.2.resolve_left (by rintro rfl; simp at herr)
    exact { h with
      running := nofun
      untarred := fun _ => hpieces
      returned := by simp [h.returned, hworker] }

theorem take (hstep : s.step .take = some s') : Inv s' := by
  obtain ⟨hcopier, hdata, rfl⟩ := take_cases hstep
  have hmain : s.main = .write := by
    by_contra hmain
    exact hdata (h.data hmain)
  have hpieces : s.pieces = s.pipe.data :: s.chunks.filter (· ≠ []) := by
    simp [State.pieces, hdata]
  exact { h with
    data := fun hne => absurd hmain hne
    done := nofun
    exit := fun hexit => by
      -- what is left is the piece that this read gets
      obtain hnil | ⟨-, hlen, hsize⟩ := h.exit hexit
      · simp [hpieces] at hnil
      · rw [hpieces] at hlen hsize
        have hfits : s.pipe.data.length ≤ copyBuffer := hsize _ (by simp)
        have hrest : s.chunks.filter (· ≠ []) = [] := by simpa using hlen
        exact .inl (by simpa [State.pieces, List.drop_of_length_le hfits] using hrest)
    running := nofun
    untarred := fun hw => by simp [h.untarred hw] at hpieces }

theorem eof (hstep : s.step .eof = some s') : Inv s' := by
  obtain ⟨⟨hcopier, hend⟩, rfl⟩ := eof_cases hstep
  -- `io.Copy` closes the pipe when it has written everything
  have hpieces : s.pieces = [] := by
    simp only [Pipe.atEnd, Bool.and_eq_true, h.writer] at hend
    refine h.pieces_copied ?_
    revert hend
    cases s.main <;> simp [Main.closed, Main.copied]
  exact { h with
    done := fun _ => hpieces
    exit := fun _ => .inl hpieces
    running := nofun }

theorem fill (hstep : s.fill = some s') : Inv s' := by
  obtain ⟨chunk, hcopier, ⟨hexit, rfl⟩ | ⟨hexit, -, rfl⟩⟩ := fill_cases hstep
  -- the command has exited, and this copy is not at its read
  · have hpieces : s.pieces = [] := (h.exit hexit).resolve_right fun hlast => by
      simp [hcopier] at hlast
    exact { h with
      done := fun _ => hpieces
      exit := fun _ => .inl hpieces
      running := nofun }
  · exact { h with
      done := by split <;> nofun
      exit := by simp [hexit]
      running := fun _ => by split <;> nofun }

theorem waited (hstep : s.step .waited = some s') : Inv s' := by
  obtain ⟨hworker, hcopier, err, hexit, rfl⟩ := waited_cases hstep
  exact { h with
    running := nofun
    untarred := fun _ => h.done hcopier
    returned := by simp [h.returned, hworker] }

theorem step {op : Op} (hok : s.Cooperates op) (hstep : s.step op = some s') : Inv s' := by
  cases op with
  | read => exact h.read hstep
  | written => exact h.written hstep
  | close => exact h.close hstep
  | receive => exact h.receive hstep
  | start err => exact h.start hok hstep
  | take => exact h.take hstep
  | eof => exact h.eof hstep
  | fill => exact h.fill hstep
  | consume n =>
    obtain ⟨-, rfl⟩ := consume_cases hstep
    exact { h with }
  | exit err =>
    obtain ⟨-, rfl⟩ := exit_cases hstep
    exact { h with exit := fun _ => hok.2 }
  | waited => exact h.waited hstep

/-- `AddLayer` goes on, unless it waits for the reader of the pipe or for the goroutine. -/
theorem main_enabled (hworker : s.worker ≠ .ended) (hdata : s.pipe.data = [])
    (hwait : s.main ≠ .wait) : ∃ op, s.Cooperates op ∧ (s.step op).isSome = true := by
  cases hmain : s.main with
  | read =>
    refine ⟨.read, h.archiveErr, ?_⟩
    rcases hchunks : s.chunks with - | ⟨chunk, chunks⟩
    · simp [State.step, State.read, hmain, hchunks]
    · have hopen : s.pipe.isOpen = true := by
        simp [Pipe.isOpen, h.writer, h.reader, hmain, Main.closed]
      by_cases hnil : chunk = []
      · simp [State.step, State.read, hmain, hchunks, hnil]
      · simp [State.step, State.read, hmain, hchunks, hnil, Pipe.offer, hopen]
  | write => exact ⟨.written, h.archiveErr, by simp [State.step, hmain, hdata]⟩
  | close err =>
    obtain rfl := h.noErr err hmain
    exact ⟨.close, h.archiveErr, by simp [State.step, State.close, hmain]⟩
  | wait => exact absurd hmain hwait
  | returned err => exact absurd (h.returned.mp (by rw [hmain]; rfl)) hworker

/-- The copy to the command goes on, if need be when the command has read or has exited. -/
theorem fill_enabled {chunk : List UInt8} (hworker : s.worker = .running)
    (hcopier : s.copier = .writing chunk) :
    ∃ op, s.Cooperates op ∧ (s.step op).isSome = true := by
  by_cases hexit : s.exit = none
  · by_cases hroom : s.buffer.length < pipeBuffer
    · exact ⟨.fill, h.archiveErr, by simp [State.step, State.fill, hcopier, hexit, hroom]⟩
    · refine ⟨.consume 1, h.archiveErr, ?_⟩
      have hbuffer : 1 ≤ s.buffer.length := by
        unfold pipeBuffer at hroom
        omega
      simp [State.step, hworker, hexit, hbuffer]
  · have hexit : s.exit.isSome = true := Option.isSome_iff_ne_none.mpr hexit
    exact ⟨.fill, h.archiveErr, by simp [State.step, State.fill, hcopier, hexit]⟩

/-- Until the goroutine has delivered its error, something can happen. -/
theorem enabled (hworker : s.worker ≠ .ended) :
    ∃ op, s.Cooperates op ∧ (s.step op).isSome = true := by
  by_cases hmain : s.pipe.data = [] ∧ s.main ≠ .wait
  · exact h.main_enabled hworker hmain.1 hmain.2
  -- `AddLayer` is in a write or waits for the goroutine, so the other side goes on
  have hdata : s.main = .wait → s.pipe.data = [] := fun hwait => h.data (by simp [hwait])
  cases hw : s.worker with
  | spawned => exact ⟨.start none, ⟨h.archiveErr, .inl rfl⟩, by simp [State.step, hw]⟩
  | running =>
    cases hc : s.copier with
    | absent => exact absurd hc (h.running hw)
    | reading =>
      by_cases hnil : s.pipe.data = []
      · have hwait : s.main = .wait := by_contra fun hwait => hmain ⟨hnil, hwait⟩
        have hclosed : s.pipe.writerClosed = true := by rw [h.writer, hwait]; rfl
        exact ⟨.eof, h.archiveErr, by simp [State.step, hc, Pipe.atEnd, hnil, hclosed]⟩
      · exact ⟨.take, h.archiveErr, by simp [State.step, hc, Pipe.take, hnil]⟩
    | writing chunk => exact h.fill_enabled hw hc
    | done =>
      cases hexit : s.exit with
      | none =>
        exact ⟨.exit none, ⟨h.archiveErr, .inl (h.done hc)⟩, by simp [State.step, hw, hexit]⟩
      | some err => exact ⟨.waited, h.archiveErr, by simp [State.step, hw, hc, hexit]⟩
  | send err =>
    have hpieces : s.pieces = [] := h.untarred (by rw [hw]; rfl)
    have hwait : s.main = .wait := by
      by_contra hwait
      refine hmain ⟨?_, hwait⟩
      by_contra hdata
      simp [State.pieces, hdata] at hpieces
    exact ⟨.receive, h.archiveErr, by simp [State.step, hw, hwait]⟩
  | ended => exact absurd hw hworker

/-- From a state of a run that cooperates, `AddLayer` can go on until it has the error of the
    goroutine. -/
theorem finish : ∃ es s', untarSystem.run s es = some s' ∧ Inv s' ∧ s'.worker = .ended := by
  refine untarSystem.run_to State.left (fun s h => ?_) h
  by_cases hworker : s.worker = .ended
  · exact .inl hworker
  · obtain ⟨op, hok, hsome⟩ := h.enabled hworker
    obtain ⟨s', hstep⟩ := Option.isSome_iff_exists.mp hsome
    exact .inr ⟨op, s', hstep, h.step hok hstep, left_lt hstep⟩

theorem not_writeStuck : ¬ s.WriteStuck := by
  rintro ⟨-, hdata, hstuck⟩
  obtain ⟨es, s', hrun, h', hworker⟩ := h.finish
  have hpieces : s'.pieces = [] := h'.untarred (by rw [hworker]; rfl)
  rw [← hstuck es s' hrun] at hdata
  simp [State.pieces, hdata] at hpieces

theorem not_sendStuck : ¬ s.SendStuck := by
  rintro ⟨err, -, hstuck⟩
  obtain ⟨es, s', hrun, -, hworker⟩ := h.finish
  rw [hstuck es s' hrun] at hworker
  cases hworker

end Inv

/-- A fresh `AddLayer` is not stuck, whatever the archive. -/
theorem State.Fresh.not_stuck (h : s.Fresh) : ¬ s.WriteStuck ∧ ¬ s.SendStuck := by
  obtain ⟨-, hmain, hworker, -⟩ := h
  refine ⟨fun hstuck => ?_, fun ⟨err, hsend, _⟩ => ?_⟩
  · simpa [hmain] using hstuck.1
  · simp [hworker] at hsend

theorem State.Cooperates.archiveErr {op : Op} (h : s.Cooperates op) : s.archiveErr = none := by
  cases op with
  | start | exit => exact h.1
  | _ => exact h

/-- When the archive has no error and the command takes all of it, neither side is left behind
    by the other. -/
theorem addLayer_not_stuck (h : untarSystem.ReachableVia State.Cooperates s) :
    ¬ s.WriteStuck ∧ ¬ s.SendStuck := by
  have hinv : s.Fresh ∨ Inv s := by
    refine h.invariant (P := fun s => s.Fresh ∨ Inv s) (fun s hs => .inl hs) ?_
    rintro s op s' (hs | hs) hok hstep
    · exact .inr ((hs.inv hok.archiveErr).step hok hstep)
    · exact .inr (hs.step hok hstep)
  obtain hs | hs := hinv
  · exact hs.not_stuck
  · exact ⟨hs.not_writeStuck, hs.not_sendStuck⟩

/-- An archive of two reads, of which the command has got the first. -/
theorem addLayer_not_stuck_two :
    let s : State := ⟨[], none, ⟨[1, 2], [3], false, false⟩, .write, .running, .reading, [], none⟩
    untarSystem.ReachableVia State.Cooperates s ∧ ¬ s.WriteStuck ∧ ¬ s.SendStuck := by
  intro s
  have hreach : untarSystem.ReachableVia State.Cooperates s := by
    refine System.ReachableVia.runVia
      (s := ⟨[[1, 2], [3]], none, .new, .read, .spawned, .absent, [], none⟩)
      (.init ⟨rfl, rfl, rfl, rfl, rfl, rfl⟩)
      [.read, .start none, .take, .written, .read, .fill, .consume 1, .consume 1] ?_
    decide
  exact ⟨hreach, addLayer_not_stuck hreach⟩

/-- The command exits before it has read anything, and the second piece of the archive stays in
    the pipe; or the archive ends with an error, and `AddLayer` leaves the goroutine behind. -/
theorem stuck_reachable :
    (∃ s, untarSystem.Reachable s ∧ s.WriteStuck) ∧ ∃ s, untarSystem.Reachable s ∧ s.SendStuck := by
  constructor
  · let s : State := ⟨[[1], [2]], none, .new, .read, .spawned, .absent, [], none⟩
    refine ⟨_, System.Reachable.run (s := s) (.init ⟨rfl, rfl, rfl, rfl, rfl, rfl⟩)
      [.start none, .read, .take, .written, .exit none, .fill, .read] rfl, Abandoned.writeStuck ?_⟩
    exact ⟨rfl, nofun, rfl, nofun, rfl⟩
  · let s : State :=
      ⟨[], some (str "unexpected EOF"), .new, .read, .spawned, .absent, [], none⟩
    exact ⟨_, System.Reachable.run (s := s) (.init ⟨rfl, rfl, rfl, rfl, rfl, rfl⟩)
      [.start none, .read, .close, .eof, .exit none, .waited] rfl, sendStuck_of_returned rfl rfl⟩

end Docker.Untar
