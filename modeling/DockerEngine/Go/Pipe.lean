import Mathlib.Tactic.Common

/-!
# Synchronous pipes (Go's `io.Pipe`)

A write hands its bytes to the reader and returns when the reader has taken them all, so
the pipe holds nothing but the rest of the write in progress (`data`). A write to a pipe
whose either end is closed fails; the reader is told the end when the writer has closed and
everything was taken. `sent` is a ghost: all bytes the reader has taken so far.

`offer` and `take` are the parts of a write and of a read that interleave; `write` is a
whole write, with a reader that keeps reading or closes its end on the way.
-/

structure Pipe where
  sent : List UInt8
  /-- The rest of the write in progress. -/
  data : List UInt8
  writerClosed : Bool
  readerClosed : Bool
  deriving DecidableEq, Repr

namespace Pipe

/-- `io.Pipe`. -/
def new : Pipe := ⟨[], [], false, false⟩

/-- Neither end is closed. -/
def isOpen (p : Pipe) : Bool := !p.writerClosed && !p.readerClosed

/-- A write begins, or fails at once. -/
def offer (p : Pipe) (b : List UInt8) : Option Pipe :=
  if p.isOpen then some { p with data := b } else none

/-- A read of at most `n` bytes gets some; `none` when there are none. -/
def take (p : Pipe) (n : Nat) : Option (List UInt8 × Pipe) :=
  if p.data = [] then none
  else some (p.data.take n, { p with sent := p.sent ++ p.data.take n, data := p.data.drop n })

/-- A read gets the end of the stream. -/
def atEnd (p : Pipe) : Bool := p.data.isEmpty && p.writerClosed

def closeWriter (p : Pipe) : Pipe := { p with writerClosed := true }

def closeReader (p : Pipe) : Pipe := { p with readerClosed := true }

/-- A whole write: it succeeded, and what became of the pipe. With `cut = some n` the reader
    closes its end when it has taken `n` bytes of it. -/
def write (p : Pipe) (b : List UInt8) (cut : Option Nat) : Bool × Pipe :=
  match p.offer b with
  | none => (false, p)
  | some p =>
    match cut with
    | none => (true, { p with sent := p.sent ++ b, data := [] })
    | some n =>
      (b.length ≤ n, { p with sent := p.sent ++ b.take n, data := [], readerClosed := true })

theorem isOpen_iff {p : Pipe} :
    p.isOpen = true ↔ p.writerClosed = false ∧ p.readerClosed = false := by
  simp [isOpen]

theorem offer_eq_some {p p' : Pipe} {b : List UInt8} (h : p.offer b = some p') :
    p.isOpen = true ∧ p' = { p with data := b } := by
  unfold offer at h
  split at h
  · next hopen => cases h; exact ⟨hopen, rfl⟩
  · simp at h

theorem take_eq_some {p p' : Pipe} {n : Nat} {b : List UInt8} (h : p.take n = some (b, p')) :
    b = p.data.take n ∧ p' = { p with sent := p.sent ++ b, data := p.data.drop n } := by
  unfold take at h
  split at h
  · simp at h
  · cases h; exact ⟨rfl, rfl⟩

/-- A pipe with a closed end refuses writes. -/
theorem write_closed {p : Pipe} (h : p.isOpen = false) (b : List UInt8) (cut : Option Nat) :
    p.write b cut = (false, p) := by
  simp [write, offer, h]

/-- A pipe whose reader stays takes the whole write. -/
theorem write_open {p : Pipe} (h : p.isOpen = true) (b : List UInt8) :
    p.write b none = (true, { p with sent := p.sent ++ b, data := [] }) := by
  simp [write, offer, h]

/-- When the reader closes on the way, its end is closed afterwards. -/
theorem write_cut {p : Pipe} (h : p.isOpen = true) (b : List UInt8) (n : Nat) :
    (p.write b (some n)).2.readerClosed = true := by
  simp [write, offer, h]

end Pipe
