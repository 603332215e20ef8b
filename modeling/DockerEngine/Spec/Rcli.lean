import DockerEngine.Native.Rcli

/-!
# Which requests `call` answers

A request is answered when `call` returns with an error or after invoking exactly one
method of the service. Whether it is depends on the words left after the terminator
alone, and not on the service: `call` trips over an empty list and over `help` asked
about the empty name, and does nothing for `help` asked about `help`.
-/

namespace Docker

open Go

/-- `call` returned an error, or invoked exactly one method. -/
def Answered (result : Outcome Reply) : Prop :=
  ∃ reply, result = .ret reply ∧ (reply.err.isSome ∨ reply.invoked.length = 1)

/-- The words `call` looks at. -/
def commandWords (args : List GoString) : List GoString :=
  dropTerminator (if args = [] then [str "help"] else args)

/-- There is a command, and if it is `help` (or empty, which stands for it) it is not
    asked about the empty name or about itself. -/
def WellAddressed : List GoString → Prop
  | [] => False
  | cmd :: rest =>
    cmd = [] ∨ cmd = str "help" → ∀ name ∈ rest.head?, name ≠ [] ∧ name ≠ str "help"

section

variable (strings : CaseMap) (service : Service)

/-! ## Looking up a method -/

theorem getMethod_nil : getMethod strings service [] = .panic := by
  unfold getMethod
  rw [if_neg (by decide)]

theorem getMethod_self : getMethod strings service (str "help") = .ret (some .help) := by
  unfold getMethod
  rw [if_pos rfl]

/-- A name that is neither empty nor `help` is a method of the service or unknown. -/
theorem getMethod_other {name : GoString} (hnil : name ≠ []) (hhelp : name ≠ str "help") :
    getMethod strings service name = .ret none ∨
    ∃ n f, getMethod strings service name = .ret (some (.method n f)) := by
  unfold getMethod
  rw [if_neg hhelp]
  cases name with
  | nil => exact absurd rfl hnil
  | cons c rest =>
    simp only [Outcome.ret.injEq, Option.map_eq_none_iff, Option.map_eq_some_iff]
    cases service.method (str "Cmd" ++ strings.toUpper [c] ++ strings.toLower rest) with
    | none => exact .inl rfl
    | some f => exact .inr ⟨_, f, f, rfl, rfl⟩

/-- No method can be called `Cmd--help`. -/
theorem getMethod_flag : getMethod strings service (str "--help") = .ret none := by
  -- the first byte is a dash in upper case too, and identifiers have no dash
  have hdash : dash ∈ str "Cmd" ++ strings.toUpper [dash] ++ strings.toLower (str "-help") := by
    rw [strings.toUpper_dash]
    simp
  cases hm : service.method
      (str "Cmd" ++ strings.toUpper [dash] ++ strings.toLower (str "-help")) with
  | some f => exact absurd hdash (service.identifier _ (by rw [hm]; rfl))
  | none =>
    unfold getMethod
    rw [if_neg (by decide)]
    show Outcome.ret ((service.method (str "Cmd" ++ strings.toUpper [dash] ++
      strings.toLower (str "-help"))).map _) = _
    rw [hm]
    rfl

/-! ## Running a command -/

theorem run_method (name : GoString) (f : List GoString → Option GoString) (args : List GoString) :
    (Cmd.method name f).run strings service args =
      .ret ⟨(f args).map .method, [.command name args]⟩ := by
  rw [Cmd.run]

theorem run_help_nil : Cmd.help.run strings service [] = .ret ⟨none, [.help]⟩ := by
  rw [Cmd.run]

theorem run_help_cons (name : GoString) (rest : List GoString) :
    Cmd.help.run strings service (name :: rest) =
      match getMethod strings service name with
      | .panic => .panic
      | .block => .block
      | .ret none => .ret ⟨some (noSuchCommand name), []⟩
      | .ret (some cmd) =>
        (cmd.run strings service [str "--help"]).bind fun reply => .ret ⟨none, reply.invoked⟩ := by
  rw [Cmd.run]
  split
  · next h => rw [h]
  · next h => rw [h]
  · next h => rw [h]
  · next h => rw [h]; rfl

/-- `help` asked about the empty name panics. -/
theorem run_help_empty (rest : List GoString) :
    Cmd.help.run strings service ([] :: rest) = .panic := by
  rw [run_help_cons, getMethod_nil]

/-- `help` asked about itself does nothing: it asks about `--help` and drops the error. -/
theorem run_help_self (rest : List GoString) :
    Cmd.help.run strings service (str "help" :: rest) = .ret ⟨none, []⟩ := by
  rw [run_help_cons, getMethod_self]
  show (Cmd.help.run strings service [str "--help"]).bind _ = _
  rw [run_help_cons, getMethod_flag]
  rfl

/-- `help` answers exactly when it is asked about nothing or about another name. -/
theorem run_help_answered (rest : List GoString) :
    Answered (Cmd.help.run strings service rest) ↔
      ∀ name ∈ rest.head?, name ≠ [] ∧ name ≠ str "help" := by
  cases rest with
  | nil =>
    rw [run_help_nil]
    constructor
    · intro _ name hname
      exact absurd hname (by simp)
    · intro _
      exact ⟨_, rfl, .inr rfl⟩
  | cons name rest =>
    rw [List.head?_cons]
    constructor
    · rintro ⟨reply, hrun, hreply⟩ n hn
      cases hn
      constructor
      -- the empty name panics, and `help` drops the error of `--help`
      · rintro rfl
        rw [run_help_empty] at hrun
        simp at hrun
      · rintro rfl
        rw [run_help_self] at hrun
        cases hrun
        simp at hreply
    · intro h
      obtain ⟨hnil, hhelp⟩ := h name rfl
      rcases getMethod_other strings service hnil hhelp with hget | ⟨n, f, hget⟩
      · rw [run_help_cons, hget]
        exact ⟨_, rfl, .inl rfl⟩
      · rw [run_help_cons, hget]
        show Answered ((Cmd.method n f).run strings service [str "--help"] |>.bind _)
        rw [run_method]
        exact ⟨_, rfl, .inr rfl⟩

/-! ## Answering a request -/

/-- `call` after its flags were parsed. -/
theorem call_of_parse {args words : List GoString}
    (hparse : noFlags.parse (if args = [] then [str "help"] else args) = .ok ⟨[], words⟩) :
    call strings service args = (tailSlice words).bind fun rest =>
      (getMethod strings service
          (if words.getD 0 [] = [] then str "help" else words.getD 0 [])).bind
        fun method => match method with
          | some method => method.run strings service rest
          | none => .ret ⟨some (noSuchCommand
              (if words.getD 0 [] = [] then str "help" else words.getD 0 [])), []⟩ := by
  simp only [call, hparse]
  rfl

/-- A request is answered, with an error or by exactly one method of the service, if and
    only if its words are well addressed. -/
theorem call_answered (args : List GoString) :
    Answered (call strings service args) ↔ WellAddressed (commandWords args) := by
  rcases parse_empty (if args = [] then [str "help"] else args) with
    ⟨e, arg, rest, hargs, hparse, c, body, hbody⟩ | hparse
  · -- a bad flag is an error, and it is no name for `help` or a terminator
    have hterm : arg ≠ dashDash := fun heq => by rw [heq] at hbody; cases hbody
    have hnil : arg ≠ [] := fun heq => by rw [heq] at hbody; cases hbody
    have hhelp : arg ≠ str "help" := fun heq => by rw [heq] at hbody; cases hbody
    have hcall : call strings service args = .ret ⟨some (.flag e), [.help]⟩ := by
      simp only [call, hparse]
    rw [hcall, commandWords, hargs, dropTerminator, if_neg hterm]
    constructor
    · intro _ h
      exact absurd h (not_or.mpr ⟨hnil, hhelp⟩)
    · intro _
      exact ⟨_, rfl, .inl rfl⟩
  · rw [call_of_parse strings service hparse, ← commandWords]
    cases commandWords args with
    | nil =>
      constructor
      · rintro ⟨reply, hreply, -⟩
        cases hreply
      · exact False.elim
    | cons cmd rest =>
      show Answered ((getMethod strings service (if cmd = [] then str "help" else cmd)).bind _) ↔ _
      -- an empty command is `help`, and `help` is looked up in the service like all others
      by_cases hcmd : cmd = [] ∨ cmd = str "help"
      · have hname : (if cmd = [] then str "help" else cmd) = str "help" := by
          rcases hcmd with rfl | rfl
          · exact if_pos rfl
          · exact if_neg (by decide)
        rw [hname, getMethod_self]
        show Answered (Cmd.help.run strings service rest) ↔ _
        rw [run_help_answered]
        exact ⟨fun h _ => h, fun h => h hcmd⟩
      · obtain ⟨hnil, hhelp⟩ := not_or.mp hcmd
        rw [if_neg hnil]
        refine iff_of_true ?_ (fun h => absurd h hcmd)
        rcases getMethod_other strings service hnil hhelp with hget | ⟨n, f, hget⟩
        · rw [hget]
          exact ⟨_, rfl, .inl rfl⟩
        · rw [hget]
          show Answered ((Cmd.method n f).run strings service rest)
          rw [run_method]
          exact ⟨_, rfl, .inr rfl⟩

end

/-! ## Three requests -/

/-- Upper and lower case of ASCII letters. -/
def asciiCase : CaseMap where
  toUpper := List.map fun c => if 97 ≤ c ∧ c ≤ 122 then c - 32 else c
  toLower := List.map fun c => if 65 ≤ c ∧ c ≤ 90 then c + 32 else c
  toUpper_dash := by decide

/-- A service with one command. -/
def psService : Service where
  help := str "Usage: docker COMMAND"
  method := fun name => if name = str "CmdPs" then some fun _ => none else none
  identifier := by
    intro name h
    split at h
    · next heq =>
      subst heq
      decide
    · simp at h

/-- A lone terminator and `help` with an empty name are panics, and `help help` neither
    fails nor invokes anything. -/
theorem call_unanswered :
    call asciiCase psService [str "--"] = .panic ∧
    call asciiCase psService [str "help", []] = .panic ∧
    call asciiCase psService [[], []] = .panic ∧
    call asciiCase psService [str "help", str "help"] = .ret ⟨none, []⟩ ∧
    ¬ ∀ args, Answered (call asciiCase psService args) := by
  have hpanic : call asciiCase psService [str "--"] = .panic := rfl
  refine ⟨hpanic, run_help_empty asciiCase psService [], run_help_empty asciiCase psService [],
    run_help_self asciiCase psService [], fun h => ?_⟩
  obtain ⟨reply, hreply, -⟩ := h [str "--"]
  rw [hpanic] at hreply
  simp at hreply

end Docker
