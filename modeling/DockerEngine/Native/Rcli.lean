import DockerEngine.Go.Flag
import DockerEngine.Go.Outcome

/-!
# The remote command line (`rcli/types.go`)

`call` answers one request: it parses the words, looks up the command among the methods
of the service by reflection, and runs it. `help` is a command of its own and looks up
the command it is asked about in the same way.

The upper and lower case of package `strings` are a parameter with its behaviour on one
byte. The line `call` writes to the log is left out, the slice expression in it is not.
-/

namespace Docker

open Go

/-- `strings.ToUpper` and `strings.ToLower`. -/
structure CaseMap where
  toUpper : GoString → GoString
  toLower : GoString → GoString
  /-- What is no letter stays as it is. -/
  toUpper_dash : toUpper [dash] = [dash]

/-- A service: its help text, and its methods by name. A method gets the words that
    follow the command and returns its error, if it has one. -/
structure Service where
  help : GoString
  method : GoString → Option (List GoString → Option GoString)
  /-- The name of a Go method is an identifier. -/
  identifier : ∀ name, (method name).isSome → dash ∉ name

inductive CallError where
  | flag (e : FlagError)
  | new (text : GoString)
  | method (err : GoString)
  deriving DecidableEq, Repr

/-- The methods of the service a request may invoke. -/
inductive Invocation where
  | help
  | command (name : GoString) (args : List GoString)
  deriving DecidableEq, Repr

/-- The answer to a request: its error, and what was invoked on the way. -/
structure Reply where
  err : Option CallError
  invoked : List Invocation
  deriving DecidableEq, Repr

/-- The functions `getMethod` returns. -/
inductive Cmd where
  | help
  | method (name : GoString) (run : List GoString → Option GoString)

def noSuchCommand (name : GoString) : CallError := .new (str "No such command: " ++ name)

/-- `s[1:]` of a slice. -/
def tailSlice : List GoString → Outcome (List GoString)
  | [] => .panic
  | _ :: rest => .ret rest

section

variable (strings : CaseMap) (service : Service)

def getMethod (name : GoString) : Outcome (Option Cmd) :=
  if name = str "help" then .ret (some .help)
  else
    match name with
    -- name[:1] is out of range
    | [] => .panic
    | c :: rest =>
      let methodName := str "Cmd" ++ strings.toUpper [c] ++ strings.toLower rest
      .ret ((service.method methodName).map (.method methodName))

theorem getMethod_help {name : GoString} (h : getMethod strings service name = .ret (some .help)) :
    name = str "help" := by
  unfold getMethod at h
  split at h
  · assumption
  · split at h
    · simp at h
    · simp only [Outcome.ret.injEq, Option.map_eq_some_iff, reduceCtorEq, and_false,
        exists_false] at h

/-- How often `help` can still be asked about `help`. -/
def Cmd.depth : Cmd → List GoString → Nat
  | .help, arg :: _ => if arg = str "help" then 2 else 1
  | _, _ => 0

/-- Run a command with the words that follow it. `help` drops the error of the command it
    is asked about. -/
def Cmd.run : Cmd → List GoString → Outcome Reply
  | .method name f, args => .ret ⟨(f args).map .method, [.command name args]⟩
  | .help, [] => .ret ⟨none, [.help]⟩
  | .help, arg :: _ =>
    match _h : getMethod strings service arg with
    | .panic => .panic
    | .block => .block
    | .ret none => .ret ⟨some (noSuchCommand arg), []⟩
    | .ret (some cmd) => do
      let reply ← run cmd [str "--help"]
      return ⟨none, reply.invoked⟩
termination_by cmd args => cmd.depth args
decreasing_by
  cases cmd with
  | method name f =>
    simp only [Cmd.depth]
    split <;> omega
  | help =>
    rw [Cmd.depth, Cmd.depth, if_pos (getMethod_help strings service _h), if_neg (by decide)]
    omega

/-- Answer a request. -/
def call (args : List GoString) : Outcome Reply :=
  let args := if args = [] then [str "help"] else args
  match noFlags.parse args with
  -- the flag set writes the help text of the service before it fails
  | .error e => .ret ⟨some (.flag e), [.help]⟩
  | .ok flags => do
    let rest ← tailSlice flags.args
    let cmd := if flags.arg 0 = [] then str "help" else flags.arg 0
    let method ← getMethod strings service cmd
    match method with
    | some method => method.run strings service rest
    | none => return ⟨some (noSuchCommand cmd), []⟩

end

end Docker
