import DockerEngine.Go.LinkedList
import DockerEngine.Go.Str

/-!
# The broadcaster (`writeBroadcaster` in `utils.go`)

What a writer answers to a `Write` is not the broadcaster's business, so every `Write` comes
with the answers that its writers give. `offers` is a ghost: the calls of `Write` on the
writers, in order. `Close` is left out.
-/

namespace Docker

open Go

variable {W : Type u} [DecidableEq W]

/-- A `writeBroadcaster`. -/
structure WriteBroadcaster (W : Type u) where
  writers : LinkedList W
  offers : List (W × List UInt8)

/-- What the writers return: how many bytes they have written, and an error. -/
abbrev Answer (W : Type u) := W → Int × Option GoString

/-- The condition under which a writer is evicted. -/
def Answer.fails (answer : Answer W) (p : List UInt8) (writer : W) : Bool :=
  let (n, err) := answer writer
  err ≠ none || n ≠ p.length

namespace WriteBroadcaster

/-- `newWriteBroadcaster`. -/
def new : WriteBroadcaster W := ⟨LinkedList.new, []⟩

def addWriter (b : WriteBroadcaster W) (writer : W) : WriteBroadcaster W :=
  { b with writers := b.writers.pushBack writer }

def removeWriter (b : WriteBroadcaster W) (writer : W) : WriteBroadcaster W :=
  match b.writers.elements.find? fun e => e.value = writer with
  | some e => { b with writers := b.writers.remove e }
  | none => b

/-- One round of the first loop of `Write`, with the elements that failed so far. -/
def writeTo (p : List UInt8) (answer : Answer W)
    (acc : List (W × List UInt8) × List (Element W)) (e : Element W) :
    List (W × List UInt8) × List (Element W) :=
  let (offers, failed) := acc
  -- on error, evict the writer
  (offers ++ [(e.value, p)], if answer.fails p e.value then failed ++ [e] else failed)

def write (b : WriteBroadcaster W) (p : List UInt8) (answer : Answer W) :
    (Nat × Option GoString) × WriteBroadcaster W :=
  let (offers, failed) := b.writers.elements.foldl (writeTo p answer) (b.offers, [])
  ((p.length, none), ⟨failed.foldl LinkedList.remove b.writers, offers⟩)

/-- The payloads `writer` was offered. -/
def offered (b : WriteBroadcaster W) (writer : W) : List (List UInt8) :=
  b.offers.filterMap fun offer => if offer.1 = writer then some offer.2 else none

end WriteBroadcaster

/-- A call on the broadcaster. -/
inductive BroadcastOp (W : Type u) where
  | addWriter (writer : W)
  | removeWriter (writer : W)
  | write (p : List UInt8) (answer : Answer W)

namespace WriteBroadcaster

def step (b : WriteBroadcaster W) : BroadcastOp W → WriteBroadcaster W
  | .addWriter writer => b.addWriter writer
  | .removeWriter writer => b.removeWriter writer
  | .write p answer => (b.write p answer).2

/-- The broadcaster after the calls `ops`. -/
def run (ops : List (BroadcastOp W)) : WriteBroadcaster W := ops.foldl step new

end WriteBroadcaster

end Docker
