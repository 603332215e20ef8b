import DockerEngine.Go.Str
import Mathlib.Data.List.Basic
import Mathlib.Tactic.Common

/-!
# Command-line flags (Go's package `flag`)

A `FlagSet` knows the defined flags by name. `parse` reads flags from the front of the
arguments until it meets the first argument that is no flag (`-` and the empty string
are none) or drops a `--` terminator, and returns the assignments it made together with
the arguments left.

- `parse_value`, `parse_terminator`, `parse_nonFlag`: the steps of a successful parse
- `parse_empty`: with no flag defined only a terminator can be dropped
-/

namespace Go

def dash : UInt8 := 45

def equals : UInt8 := 61

/-- The terminator of the flags. -/
def dashDash : GoString := [45, 45]

/-- A defined flag. A boolean flag takes no separate argument; `accepts` says which texts
    the flag's `Set` takes without an error. -/
structure Flag where
  isBool : Bool
  accepts : GoString → Bool

/-- A flag made by `flag.String`: every text is a value. -/
def Flag.string : Flag := ⟨false, fun _ => true⟩

abbrev FlagSet := GoString → Option Flag

inductive FlagError where
  | help
  | badSyntax (arg : GoString)
  | notDefined (name : GoString)
  | needsArgument (name : GoString)
  | invalidValue (name value : GoString)
  deriving DecidableEq, Repr

/-- The assignments made in order, and the arguments left (`flags.Args()`). -/
structure Parsed where
  sets : List (GoString × GoString)
  args : List GoString
  deriving DecidableEq, Repr

/-- `flags.Arg(i)`. -/
def Parsed.arg (p : Parsed) (i : Nat) : GoString := p.args.getD i []

/-- The value of a string flag: the last one assigned to it. -/
def Parsed.value (p : Parsed) (name default : GoString) : GoString :=
  ((p.sets.filter fun s => s.1 = name).getLast?.map Prod.snd).getD default

/-- An argument that starts with a dash and has more to it, without its one or two dashes. -/
def flagBody : GoString → Option GoString
  | a :: b :: s => if a = dash then some (if b = dash then s else b :: s) else none
  | _ => none

/-- Cut `name=value` at the first `=`. -/
def cutValue (body : GoString) : GoString × Option GoString :=
  match body.dropWhile (· ≠ equals) with
  | [] => (body, none)
  | _ :: value => (body.takeWhile (· ≠ equals), some value)

/-- How one argument at the front is taken. -/
inductive FlagStep where
  | stop
  | terminator
  | error (e : FlagError)
  | set (name value : GoString)
  | next (name : GoString) (flag : Flag)

/-- An assignment, if the flag accepts the value. -/
def Flag.assign (flag : Flag) (name value : GoString) : FlagStep :=
  if flag.accepts value then .set name value else .error (.invalidValue name value)

def FlagSet.classify (flags : FlagSet) (arg : GoString) : FlagStep :=
  match flagBody arg with
  | none => .stop
  | some [] => .terminator
  | some (c :: body) =>
    if c = dash ∨ c = equals then .error (.badSyntax arg)
    else
      let (name, value) := cutValue (c :: body)
      match flags name, value with
      | none, _ =>
        if name = str "help" ∨ name = str "h" then .error .help else .error (.notDefined name)
      | some flag, some value => flag.assign name value
      | some flag, none => if flag.isBool then flag.assign name (str "true") else .next name flag

/-- One more assignment in front of a parse. -/
def Parsed.cons (name value : GoString) (p : Parsed) : Parsed :=
  { p with sets := (name, value) :: p.sets }

/-- `flags.Parse`. -/
def FlagSet.parse (flags : FlagSet) : List GoString → Except FlagError Parsed
  | [] => .ok ⟨[], []⟩
  | arg :: args =>
    match flags.classify arg with
    | .stop => .ok ⟨[], arg :: args⟩
    | .terminator => .ok ⟨[], args⟩
    | .error e => .error e
    | .set name value => (flags.parse args).map (.cons name value)
    | .next name flag =>
      match args with
      | [] => .error (.needsArgument name)
      | value :: args =>
        if flag.accepts value then (flags.parse args).map (.cons name value)
        else .error (.invalidValue name value)

/-! ## The steps of a parse -/

section

variable (flags : FlagSet)

theorem parse_terminator (args : List GoString) :
    flags.parse (dashDash :: args) = .ok ⟨[], args⟩ := rfl

theorem parse_nonFlag {arg : GoString} (h : flagBody arg = none) (args : List GoString) :
    flags.parse (arg :: args) = .ok ⟨[], arg :: args⟩ := by
  simp only [FlagSet.parse, FlagSet.classify, h]

/-- A flag that is no boolean takes the next argument as its value, whatever it is. -/
theorem parse_value {c : UInt8} {flag : Flag} (hdash : c ≠ dash) (heq : c ≠ equals)
    (hflag : flags [c] = some flag) (hbool : flag.isBool = false) {value : GoString}
    (hacc : flag.accepts value = true) (args : List GoString) :
    flags.parse ([dash, c] :: value :: args) = (flags.parse args).map (.cons [c] value) := by
  have hbody : flagBody [dash, c] = some [c] := by
    simp [flagBody, hdash]
  have hcut : cutValue [c] = ([c], none) := by
    simp [cutValue, heq]
  have hclass : flags.classify [dash, c] = .next [c] flag := by
    simp [FlagSet.classify, hbody, hdash, heq, hcut, hflag, hbool]
  rw [FlagSet.parse, hclass]
  simp only [hacc, if_true]

end

/-! ## No flags defined -/

/-- The flag set without a flag. -/
def noFlags : FlagSet := fun _ => none

/-- What is left of the arguments when no flag is defined: one terminator at most is dropped. -/
def dropTerminator : List GoString → List GoString
  | [] => []
  | arg :: args => if arg = dashDash then args else arg :: args

theorem flagBody_eq_some_nil {arg : GoString} (h : flagBody arg = some []) : arg = dashDash := by
  match arg, h with
  | [a, b], h =>
    simp only [flagBody] at h
    split at h
    · next ha =>
      split at h
      · next hb => rw [ha, hb]; rfl
      · simp at h
    · simp at h
  | a :: b :: c :: s, h =>
    simp only [flagBody] at h
    split at h
    · split at h <;> simp at h
    · simp at h

/-- With no flag defined a parse fails, or it leaves what `dropTerminator` says. -/
theorem parse_empty (args : List GoString) :
    (∃ e arg rest, args = arg :: rest ∧ noFlags.parse args = .error e ∧
      ∃ c body, flagBody arg = some (c :: body)) ∨
    noFlags.parse args = .ok ⟨[], dropTerminator args⟩ := by
  cases args with
  | nil => exact .inr rfl
  | cons arg args =>
    cases hbody : flagBody arg with
    | none =>
      have hne : arg ≠ dashDash := fun e => by rw [e] at hbody; cases hbody
      rw [parse_nonFlag noFlags hbody, dropTerminator, if_neg hne]
      exact .inr rfl
    | some body =>
      cases body with
      | nil =>
        rw [flagBody_eq_some_nil hbody]
        exact .inr rfl
      | cons c body =>
        -- no name is defined, so there is nothing a flag could be taken for
        have herr : ∃ e, noFlags.classify arg = .error e := by
          simp only [FlagSet.classify, hbody, noFlags]
          split
          · exact ⟨_, rfl⟩
          · split <;> exact ⟨_, rfl⟩
        obtain ⟨e, he⟩ := herr
        refine .inl ⟨e, arg, args, rfl, ?_, c, body, hbody⟩
        rw [FlagSet.parse, he]

end Go
