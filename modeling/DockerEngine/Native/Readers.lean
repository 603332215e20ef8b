import DockerEngine.ForStd.System
import DockerEngine.Go.Reads
import DockerEngine.Go.Str

/-!
# The two adapters of an `io.Reader` (`bufReader` in `utils.go`, `Pv` in `future.go`)

Both have a goroutine that reads the source and a client that reads what it hands on; here
the source may return whatever an `io.Reader` may. The operations of the buffer are taken as
atomic. The client keeps reading until it is told an error. `reads` and `yielded` are ghosts.
-/

namespace Docker.Readers

open Go

variable {ε : Type u}

/-- The source returns from a `Read`, the goroutine goes on, or the client: it calls `Read` with
    `n` bytes, or goes on with its call. -/
inductive Op (ε : Type u) where
  | source (b : List UInt8) (err : Option ε)
  | drain
  | read (n : Nat)
  deriving DecidableEq, Repr

/-! ## `bufReader` -/

/-- Where `drain` is: in `Read`, with what `Read` returned, at the signal (the last one after
    an error), or at its end. -/
inductive Drain (ε : Type u) where
  | reading
  | got (b : List UInt8) (err : Option ε)
  | signalling (last : Bool)
  | done
  deriving DecidableEq, Repr

/-- Where the client is: between two calls of `Read`; in `Read`, at the buffer, at the check of
    the error, in front of the lock, in `Wait`; or behind the call that returned the error. -/
inductive Client (ε : Type u) where
  | idle
  | buffer (n : Nat)
  | check (n : Nat)
  | lock (n : Nat)
  | waiting (n : Nat)
  | ended (err : ε)
  deriving DecidableEq, Repr

/-- `wait.Signal()`: a client that waits goes back to the buffer. -/
def Client.signal : Client ε → Client ε
  | waiting n => buffer n
  | client => client

structure BufReader (ε : Type u) where
  buf : List UInt8
  err : Option ε
  drain : Drain ε
  client : Client ε
  /-- What the source returned. -/
  reads : Reads ε
  /-- What the client was given. -/
  yielded : List UInt8
  deriving DecidableEq, Repr

namespace BufReader

/-- `newBufReader`. -/
def new : BufReader ε := ⟨[], none, .reading, .idle, [], []⟩

/-- The source returns from a `Read` of 1024 bytes. -/
def sourceStep (r : BufReader ε) (b : List UInt8) (err : Option ε) : Option (BufReader ε) :=
  match r.drain with
  | .reading =>
    if b.length ≤ 1024 then some { r with drain := .got b err, reads := r.reads ++ [(b, err)] }
    else none
  | _ => none

def drainStep (r : BufReader ε) : Option (BufReader ε) :=
  match r.drain with
  | .reading => none
  | .got _ (some err) => some { r with err := some err, drain := .signalling true }
  | .got b none => some { r with buf := r.buf ++ b, drain := .signalling false }
  | .signalling last =>
    some { r with client := r.client.signal, drain := if last then .done else .reading }
  | .done => none

def readStep (r : BufReader ε) (n : Nat) : Option (BufReader ε) :=
  match r.client with
  | .idle => if 0 < n then some { r with client := .buffer n } else none
  | .buffer n =>
    if r.buf.take n ≠ [] then
      some { r with
        buf := r.buf.drop n
        yielded := r.yielded ++ r.buf.take n
        client := .idle }
    else some { r with client := .check n }
  | .check n =>
    match r.err with
    | some err => some { r with client := .ended err }
    | none => some { r with client := .lock n }
  | .lock n => some { r with client := .waiting n }
  | .waiting _ | .ended _ => none

def step (r : BufReader ε) : Op ε → Option (BufReader ε)
  | .source b err => r.sourceStep b err
  | .drain => r.drainStep
  | .read n => r.readStep n

end BufReader

/-! ## `Pv` -/

/-- The pipe holds the write in progress, which ends when the client has taken all of it. -/
structure Pv (ε : Type u) where
  pipe : Option (List UInt8)
  /-- The argument of `CloseWithError`. -/
  closed : Option ε
  totalBytes : Nat
  /-- What was written to `info`. -/
  info : GoString
  ended : Option ε
  reads : Reads ε
  yielded : List UInt8
  deriving DecidableEq, Repr

namespace Pv

/-- `Pv`. -/
def new : Pv ε := ⟨none, none, 0, [], none, [], []⟩

/-- The source returns from a `Read` of 2048 bytes, and the goroutine goes on up to the write. -/
def sourceStep (p : Pv ε) (b : List UInt8) (err : Option ε) : Option (Pv ε) :=
  if p.pipe = none ∧ p.closed = none ∧ b.length ≤ 2048 then
    match err with
    | some err => some { p with closed := some err, reads := p.reads ++ [(b, some err)] }
    | none =>
      let totalBytes := p.totalBytes + b.length
      some { p with
        totalBytes
        info := p.info ++ (str "--> " ++ itoa totalBytes ++ str " bytes\n")
        pipe := some b
        reads := p.reads ++ [(b, none)] }
  else none

/-- The client reads `n` bytes: it takes from the write in progress, or is told the error. -/
def readStep (p : Pv ε) (n : Nat) : Option (Pv ε) :=
  if 0 < n ∧ p.ended = none then
    match p.pipe with
    | some data =>
      some { p with
        pipe := if data.drop n = [] then none else some (data.drop n)
        yielded := p.yielded ++ data.take n }
    | none => p.closed.map fun err => { p with ended := some err }
  else none

def step (p : Pv ε) : Op ε → Option (Pv ε)
  | .source b err => p.sourceStep b err
  | .drain => none
  | .read n => p.readStep n

end Pv

/-- All runs of a `bufReader`. -/
def bufSystem (ε : Type u) : System (BufReader ε) (Op ε) where
  init r := r = .new
  step := BufReader.step

/-- All runs of `Pv`. -/
def pvSystem (ε : Type u) : System (Pv ε) (Op ε) where
  init p := p = .new
  step := Pv.step

end Docker.Readers
