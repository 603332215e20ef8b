import DockerEngine.ForStd.System
import DockerEngine.Go.Cond
import DockerEngine.Native.Readers

/-!
# The wake-ups of `bufReader` (`utils.go`)

The same goroutine and the same client as in `Docker.Readers`, with the mutex `l` and the
condition `wait` as they are: `drain` holds the mutex from its `Lock` to its `Unlock`, and the
client from its `Lock` until `Wait` has put it to sleep, and again from the moment it is awake.
The source is a script of what its calls of `Read` return.
-/

namespace Docker.Wakeup

open Go

variable {ε : Type u}

/-- What the calls of `Read` on the source return, one after the other: finitely many results
    and then a call that never returns, or infinitely many. `drain` reads 1024 bytes. -/
structure Source (ε : Type u) where
  next : Nat → Option (List UInt8 × Option ε)
  fits : ∀ k b err, next k = some (b, err) → b.length ≤ 1024

/-- A source at its end, which returns this error from every `Read`. -/
def Source.ended (err : ε) : Source ε := ⟨fun _ => some ([], some err), by simp⟩

/-- A source that has this to be read. -/
def Source.having (b : List UInt8) : Source ε where
  next := fun _ => some (b.take 1024, none)
  fits := by
    rintro k b' err ⟨⟩
    exact List.length_take_le 1024 b

/-- The holders of the mutex. -/
inductive Goroutine where
  | drain
  | client
  deriving DecidableEq, Repr

inductive Drain (ε : Type u) where
  | reading
  | got (b : List UInt8) (err : Option ε)
  | lock (last : Bool)
  | signal (last : Bool)
  | unlock (last : Bool)
  | done
  deriving DecidableEq, Repr

/-- In `wait` the client holds the mutex and calls `Wait`, in `waiting` it is asleep or has to
    take the mutex again, and in `unlock` it holds it and is about to go round the loop. -/
inductive Client (ε : Type u) where
  | idle
  | buffer (n : Nat)
  | check (n : Nat)
  | lock (n : Nat)
  | wait (n : Nat)
  | waiting (n : Nat)
  | unlock (n : Nat)
  | ended (err : ε)
  deriving DecidableEq, Repr

structure BufReader (ε : Type u) where
  buf : List UInt8
  err : Option ε
  /-- `l` and `wait`. -/
  cond : Cond Goroutine
  drain : Drain ε
  client : Client ε
  reads : Reads ε
  yielded : List UInt8
  deriving DecidableEq, Repr

/-- The source returns from a `Read`, `drain` goes on, or the client does. -/
inductive Op where
  | source
  | drain
  | read (n : Nat)
  deriving DecidableEq, Repr

namespace BufReader

/-- `newBufReader`. -/
def new : BufReader ε := ⟨[], none, .new, .reading, .idle, [], []⟩

def sourceStep (source : Source ε) (r : BufReader ε) : Option (BufReader ε) :=
  match r.drain, source.next r.reads.length with
  | .reading, some (b, err) =>
    some { r with drain := .got b err, reads := r.reads ++ [(b, err)] }
  | _, _ => none

def drainStep (r : BufReader ε) : Option (BufReader ε) :=
  match r.drain with
  | .got _ (some err) => some { r with err := some err, drain := .lock true }
  | .got b none => some { r with buf := r.buf ++ b, drain := .lock false }
  | .lock last => (r.cond.lock .drain).map fun cond => { r with cond, drain := .signal last }
  | .signal last => some { r with cond := r.cond.signal, drain := .unlock last }
  | .unlock last =>
    (r.cond.unlock .drain).map fun cond =>
      { r with cond, drain := if last then .done else .reading }
  | .reading | .done => none

/-- The client calls `Read` with `n` bytes, or goes on with its call. -/
def readStep (r : BufReader ε) (n : Nat) : Option (BufReader ε) :=
  match r.client with
  | .idle | .ended _ => if 0 < n then some { r with client := .buffer n } else none
  | .buffer n =>
    if r.buf.take n ≠ [] then
      some { r with
        buf := r.buf.drop n
        yielded := r.yielded ++ r.buf.take n
        client := .idle }
    else some { r with client := .check n }
  | .check n =>
    match r.err with
    | some err => some { r with client := .ended err }
    | none => some { r with client := .lock n }
  | .lock n => (r.cond.lock .client).map fun cond => { r with cond, client := .wait n }
  | .wait n => (r.cond.wait .client).map fun cond => { r with cond, client := .waiting n }
  | .waiting n => (r.cond.wake .client).map fun cond => { r with cond, client := .unlock n }
  | .unlock n => (r.cond.unlock .client).map fun cond => { r with cond, client := .buffer n }

def step (source : Source ε) (r : BufReader ε) : Op → Option (BufReader ε)
  | .source => r.sourceStep source
  | .drain => r.drainStep
  | .read n => r.readStep n

end BufReader

/-- All runs of a `bufReader` over a source. -/
def system (source : Source ε) : System (BufReader ε) Op where
  init r := r = .new
  step := BufReader.step source

end Docker.Wakeup
