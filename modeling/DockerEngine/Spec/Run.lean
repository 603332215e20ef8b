import DockerEngine.Native.Run
import DockerEngine.Spec.Serve
import DockerEngine.Spec.SysInit

/-!
# From the words of a client to the program of a container

Three programs hand the same command line on: the client, which may be called by an alias, the
daemon, which reads the flags of `run`, and `SysInit` inside the container.

- `cmdRun_words`: a request is read back from its words, and nothing else is ever read
- `clientMain_alias`: an alias asks for the same as the name it stands for
- `run_executes`: the program that the client asked for is executed, with its arguments
-/

namespace Docker

open Go

/-! ## The words of a request -/

namespace RunRequest

/-- What all requests of `CmdRun` have in common. -/
structure Valid (r : RunRequest) : Prop where
  image : r.image ≠ []
  memory : IsInt64 r.memory
  ports : ∀ port ∈ r.ports, IsInt64 port

/-- The words, behind `run`, that ask for it. -/
def words (r : RunRequest) : List GoString :=
  [str "-u", r.user, str "-c", r.comment, str "-m", itoa r.memory]
    ++ r.ports.flatMap (fun port => [str "-p", itoa port])
    ++ (if r.attach then [str "-a"] else []) ++ (if r.stdin then [str "-i"] else [])
    ++ (if r.tty then [str "-t"] else []) ++ [str "--", r.image, r.command] ++ r.args

/-- The assignments that are read from the words. -/
def sets (r : RunRequest) : List (GoString × GoString) :=
  [(str "u", r.user), (str "c", r.comment), (str "m", itoa r.memory)]
    ++ r.ports.map (fun port => (str "p", itoa port))
    ++ (if r.attach then [(str "a", str "true")] else [])
    ++ (if r.stdin then [(str "i", str "true")] else [])
    ++ (if r.tty then [(str "t", str "true")] else [])

end RunRequest

/-! ## Reading the flags -/

section

variable {words args : List GoString} {sets : List (GoString × GoString)}

/-- A flag with a value, in front of words that are read. -/
theorem runFlags_value (flag : Flag) (value : GoString) {c : UInt8} (hdash : c ≠ dash)
    (heq : c ≠ equals) (hflag : runFlags [c] = some flag) (hbool : flag.isBool = false)
    (hvalue : flag.accepts value = true) (hparse : runFlags.parse words = .ok ⟨sets, args⟩) :
    runFlags.parse ([dash, c] :: value :: words) = .ok ⟨([c], value) :: sets, args⟩ := by
  rw [parse_value runFlags hdash heq hflag hbool hvalue, hparse]
  rfl

/-- A boolean flag that may be there. -/
theorem runFlags_bool {c : UInt8} (hdash : c ≠ dash) (heq : c ≠ equals)
    (hflag : runFlags [c] = some .bool) (b : Bool)
    (hparse : runFlags.parse words = .ok ⟨sets, args⟩) :
    runFlags.parse ((if b then [[dash, c]] else []) ++ words) =
      .ok ⟨(if b then [([c], str "true")] else []) ++ sets, args⟩ := by
  cases b with
  | false => exact hparse
  | true =>
    show runFlags.parse ([dash, c] :: words) = _
    rw [parse_bool runFlags hdash heq hflag, hparse]
    rfl

theorem runFlags_ports (ports : List Int) (hports : ∀ port ∈ ports, IsInt64 port)
    (hparse : runFlags.parse words = .ok ⟨sets, args⟩) :
    runFlags.parse (ports.flatMap (fun port => [str "-p", itoa port]) ++ words) =
      .ok ⟨ports.map (fun port => (str "p", itoa port)) ++ sets, args⟩ := by
  induction ports with
  | nil => exact hparse
  | cons port ports ih =>
    obtain ⟨hport, hports⟩ := List.forall_mem_cons.mp hports
    have haccept : (atoi (itoa port)).isSome = true := by
      rw [atoi_itoa hport]
      rfl
    rw [List.flatMap_cons, List.append_assoc, List.map_cons, List.cons_append]
    exact runFlags_value ⟨false, fun value => (atoi value).isSome⟩ (itoa port) (by decide)
      (by decide) rfl rfl haccept (ih hports)

end

theorem RunRequest.parse_words {r : RunRequest} (hr : r.Valid) :
    runFlags.parse r.words = .ok ⟨r.sets, r.image :: r.command :: r.args⟩ := by
  have hmemory : (parseInt (itoa r.memory) 0).isSome = true := by
    rw [parseInt_itoa (.inr rfl) hr.memory]
    rfl
  -- from the last flag to the first
  have hterm : runFlags.parse ([str "--", r.image, r.command] ++ r.args) =
      .ok ⟨[], r.image :: r.command :: r.args⟩ := parse_terminator runFlags _
  have ht := runFlags_bool (c := 116) (by decide) (by decide) rfl r.tty hterm
  have hi := runFlags_bool (c := 105) (by decide) (by decide) rfl r.stdin ht
  have ha := runFlags_bool (c := 97) (by decide) (by decide) rfl r.attach hi
  have hp := runFlags_ports r.ports hr.ports ha
  have hm := runFlags_value .int64 (itoa r.memory) (c := 109) (by decide) (by decide) rfl rfl
    hmemory hp
  have hc := runFlags_value .string r.comment (c := 99) (by decide) (by decide) rfl rfl rfl hm
  have hu := runFlags_value .string r.user (c := 117) (by decide) (by decide) rfl rfl rfl hc
  simp only [words, sets, List.append_assoc, List.append_nil] at hu ⊢
  exact hu

/-- The assignments to one flag. -/
theorem RunRequest.sets_filter (r : RunRequest) :
    (r.sets.filter fun s => s.1 = str "u") = [(str "u", r.user)] ∧
    (r.sets.filter fun s => s.1 = str "c") = [(str "c", r.comment)] ∧
    (r.sets.filter fun s => s.1 = str "m") = [(str "m", itoa r.memory)] ∧
    (r.sets.filter fun s => s.1 = str "p") = r.ports.map (fun port => (str "p", itoa port)) ∧
    (r.sets.filter fun s => s.1 = str "a") = (if r.attach then [(str "a", str "true")] else []) ∧
    (r.sets.filter fun s => s.1 = str "i") = (if r.stdin then [(str "i", str "true")] else []) ∧
    (r.sets.filter fun s => s.1 = str "t") = (if r.tty then [(str "t", str "true")] else []) := by
  have hnames : str "u" = [117] ∧ str "c" = [99] ∧ str "m" = [109] ∧ str "p" = [112] ∧
      str "a" = [97] ∧ str "i" = [105] ∧ str "t" = [116] := ⟨rfl, rfl, rfl, rfl, rfl, rfl, rfl⟩
  obtain ⟨hu, hc, hm, hp, ha, hi, ht⟩ := hnames
  rw [sets, hu, hc, hm, hp, ha, hi, ht]
  cases r.attach <;> cases r.stdin <;> cases r.tty <;>
    simp [List.filter_append, List.filter_map, Function.comp_def]

/-! ## The round trip -/

theorem ports_texts {ports : List Int} (hports : ∀ port ∈ ports, IsInt64 port) :
    (ports.map fun port => (str "p", itoa port)).filterMap (fun s => atoi s.2) = ports := by
  induction ports with
  | nil => rfl
  | cons port ports ih =>
    obtain ⟨hport, hports⟩ := List.forall_mem_cons.mp hports
    rw [List.map_cons, List.filterMap_cons, ih hports]
    simp only [atoi_itoa hport]

/-- A valid request is read back from its words. -/
theorem RunRequest.Valid.read_words {r : RunRequest} (hr : r.Valid) : cmdRun r.words = .ok r := by
  obtain ⟨hu, hc, hm, hp, ha, hi, ht⟩ := r.sets_filter
  have hbool : ∀ (name : GoString) (b : Bool),
      (((if b then [(name, str "true")] else []).getLast?.map Prod.snd).bind parseBool).getD
        false = b := by
    intro name b
    cases b <;> rfl
  rw [cmdRun, RunRequest.parse_words hr]
  simp only [Parsed.arg, List.getD_cons_zero, if_neg hr.image, List.length_cons, List.tail_cons,
    Nat.le_add_left, if_true, Parsed.value, Parsed.boolValue, Parsed.intValue, Parsed.ports, hu, hc,
    hm, hp, ha, hi, ht, hbool, ports_texts hr.ports, List.getLast?_singleton, Option.map_some,
    Option.getD_some, Option.bind_some, parseInt_itoa (.inr rfl) hr.memory]

theorem isInt64_of_parseInt {s : GoString} {base : Nat} {n : Int} (h : parseInt s base = some n) :
    IsInt64 n := by
  cases s with
  | nil => simp [parseInt] at h
  | cons c digits =>
    simp only [parseInt] at h
    split at h
    · obtain ⟨m, -, hm⟩ := Option.bind_eq_some_iff.mp h
      split at hm
      · next hle =>
        cases hm
        constructor <;> omega
      · simp at hm
    · obtain ⟨m, -, hm⟩ := Option.bind_eq_some_iff.mp h
      split at hm
      · next hlt =>
        cases hm
        constructor <;> omega
      · simp at hm

theorem isInt64_intValue (p : Parsed) (name : GoString) : IsInt64 (p.intValue name 0) := by
  rw [Parsed.intValue]
  cases hvalue : ((p.sets.filter fun s => s.1 = name).getLast?.map Prod.snd).bind fun value =>
      parseInt value 0 with
  | none => exact ⟨by decide, by decide⟩
  | some n =>
    obtain ⟨value, -, hn⟩ := Option.bind_eq_some_iff.mp hvalue
    exact isInt64_of_parseInt hn

theorem isInt64_of_mem_ports {p : Parsed} {port : Int} (h : port ∈ Parsed.ports p) :
    IsInt64 port := by
  obtain ⟨s, -, hs⟩ := List.mem_filterMap.mp h
  exact isInt64_of_parseInt hs

/-- Whatever is read is a valid request. -/
theorem valid_of_cmdRun {args : List GoString} {r : RunRequest} (h : cmdRun args = .ok r) :
    r.Valid := by
  unfold cmdRun at h
  split at h
  · cases h
  · next cmd hparse =>
    have himage : (if cmd.arg 0 = [] then str "base" else cmd.arg 0) ≠ [] := by
      split
      · decide
      · assumption
    simp only at h
    split at h <;> cases h
    · exact ⟨himage, isInt64_intValue cmd _, fun port => isInt64_of_mem_ports⟩
    · exact ⟨himage, isInt64_intValue cmd _, fun port => isInt64_of_mem_ports⟩

/-- The requests that command lines make are the valid ones, and each of them is made by its own
    words: reading what a request was written as gives the request. -/
theorem cmdRun_words (r : RunRequest) :
    (cmdRun r.words = .ok r ↔ r.Valid) ∧ ((∃ args, cmdRun args = .ok r) ↔ r.Valid) := by
  have hread : r.Valid → cmdRun r.words = .ok r := fun hr => hr.read_words
  constructor
  · exact ⟨fun h => valid_of_cmdRun h, hread⟩
  · constructor
    · rintro ⟨args, h⟩
      exact valid_of_cmdRun h
    · intro hr
      exact ⟨r.words, hread hr⟩

/-! ## The client passes the words on -/

/-- `words` are those that a user types to have `cmd` run with `args`: behind the name of the
    client, or behind a link of interactive mode. A shell passes the link's name on as it was
    typed, alone or with a directory in front of it. -/
def Types (argv0 : GoString) (words : List GoString) (cmd : GoString) (args : List GoString) :
    Prop :=
  base argv0 = str "docker" ∧ words = cmd :: args ∨ base argv0 = cmd ∧ words = args

theorem flagBody_interactiveNames : ∀ cmd ∈ interactiveNames, flagBody cmd = none := by decide

/-- An alias asks for the same as the name of the client with the command behind it. -/
theorem clientMain_types {argv0 cmd : GoString} {words args : List GoString}
    (hcmd : cmd ∈ interactiveNames) (hdocker : cmd ≠ str "docker")
    (h : Types argv0 words cmd args) : clientMain argv0 words = .ok (.simple (cmd :: args)) := by
  rcases h with ⟨hbase, rfl⟩ | ⟨rfl, rfl⟩
  · -- the command is no flag of the client, so `-i` behind it is none either
    rw [clientMain, if_pos hbase, parse_nonFlag clientFlags (flagBody_interactiveNames cmd hcmd)]
    rfl
  · rw [clientMain, if_neg hdocker]
    rfl

/-! ## From the client to the container -/

/-- lxc-start runs what follows its first separator, where `SysInit` finds its words. -/
theorem sysInit_container {lxcStart : List GoString → List GoString}
    (hlxc : ∀ before after, dashDash ∉ before → lxcStart (before ++ dashDash :: after) = after)
    (c : Container) (hid : c.id ≠ dashDash) (hpath : c.lxcConfigPath ≠ dashDash)
    (gateway : GoString) :
    sysInit (lxcStart (c.params gateway)) =
      .ok [.setupNetworking gateway, .changeUser c.config.user, .setupEnv,
        .executeProgram c.path (c.path :: c.args)] := by
  have hbefore : dashDash ∉ [str "-n", c.id, str "-f", c.lxcConfigPath] := by
    have hn : dashDash ≠ str "-n" := by decide
    have hf : dashDash ≠ str "-f" := by decide
    simp [hn, hf, hid.symm, hpath.symm]
  have hsplit : c.params gateway =
      [str "-n", c.id, str "-f", c.lxcConfigPath] ++ dashDash ::
        (str "/sbin/init" :: ([str "-g", gateway] ++
          (if c.config.user ≠ [] then [str "-u", c.config.user] else []) ++
          [str "--", c.path] ++ c.args)) := by
    rw [Container.params]
    simp only [List.append_assoc, List.cons_append, List.nil_append]
    rfl
  obtain ⟨flags, hparse, hgw, hu, hrest⟩ := sysInitFlags_params gateway c.config.user c.path c.args
  have hlength : ¬(str "/sbin/init" :: ([str "-g", gateway] ++
      (if c.config.user ≠ [] then [str "-u", c.config.user] else []) ++
      [str "--", c.path] ++ c.args)).length ≤ 1 := by simp
  rw [hsplit, hlxc _ _ hbefore, sysInit, if_neg hlength, List.tail_cons, hparse]
  simp only [hgw, hu, Parsed.arg, hrest]
  rfl

section

variable {strings : CaseMap}

/-- `call` looks `run` up as the method `CmdRun`, and gives it the words behind `run`. -/
theorem call_run (hupper : strings.toUpper (str "r") = str "R")
    (hlower : strings.toLower (str "un") = str "un") {service : Service}
    (hmethod : (service.method (str "CmdRun")).isSome) (args : List GoString) :
    ∃ reply, call strings service (str "run" :: args) = .ret reply ∧
      reply.invoked = [.command (str "CmdRun") args] := by
  obtain ⟨f, hf⟩ := Option.isSome_iff_exists.mp hmethod
  have hget : getMethod strings service (str "run") = .ret (some (.method (str "CmdRun") f)) := by
    have hname : str "Cmd" ++ strings.toUpper (str "r") ++ strings.toLower (str "un") =
        str "CmdRun" := by
      rw [hupper, hlower]
      rfl
    have hrun : getMethod strings service (str "run") =
        .ret ((service.method (str "Cmd" ++ strings.toUpper (str "r") ++
          strings.toLower (str "un"))).map (.method (str "Cmd" ++ strings.toUpper (str "r") ++
            strings.toLower (str "un")))) := by
      unfold getMethod
      rw [if_neg (by decide)]
      rfl
    rw [hrun, hname, hf]
    rfl
  have hparse : noFlags.parse (if str "run" :: args = [] then [str "help"] else str "run" :: args) =
      .ok ⟨[], str "run" :: args⟩ := parse_nonFlag noFlags (by decide) args
  refine ⟨⟨(f args).map .method, [.command (str "CmdRun") args]⟩, ?_, rfl⟩
  rw [call_of_parse strings service hparse, List.getD_cons_zero, if_neg (by decide)]
  have htail : tailSlice (str "run" :: args) = .ret args := rfl
  rw [htail, Outcome.bind, hget, Outcome.bind]
  exact run_method strings service (str "CmdRun") f args

/-- A user has the client run a command in an image. The daemon then calls `CmdRun` with words
    from which it reads the request that was typed, and in the container that it creates for it
    `SysInit` executes the command with its arguments, as the user that was asked for. -/
theorem run_executes (json : Json) (hupper : strings.toUpper (str "r") = str "R")
    (hlower : strings.toLower (str "un") = str "un") (service : Reader → Service)
    (hmethod : ∀ stdin, ((service stdin).method (str "CmdRun")).isSome)
    {lxcStart : List GoString → List GoString}
    (hlxc : ∀ before after, dashDash ∉ before → lxcStart (before ++ dashDash :: after) = after)
    {r : RunRequest} (hr : r.Valid) (hutf8 : ∀ word ∈ r.words, ValidUtf8 word)
    {argv0 : GoString} {typed args : List GoString} (htyped : Types argv0 typed (str "run") r.words)
    (hmain : clientMain argv0 typed = .ok (.simple args)) {input : GoString} {conn : Conn}
    (hconn : conn.bytes = Client.simpleMode json (some args) input) (repository : GoString)
    (sum : Vector UInt8 32) (gateway : GoString) :
    ∃ reply words, serve json strings service conn = .ok (.ret reply) ∧
      reply.invoked = [.command (str "CmdRun") words] ∧ cmdRun words = .ok r ∧
      sysInit (lxcStart ((runContainer repository sum r).params gateway)) =
        .ok [.setupNetworking gateway, .changeUser r.user, .setupEnv,
          .executeProgram r.command (r.command :: r.args)] := by
  -- the client sends the command and the words behind it
  have hargs : args = str "run" :: r.words := by
    rw [clientMain_types (by decide) (by decide) htyped] at hmain
    cases hmain
    rfl
  have hutf8' : ∀ word ∈ (some args).getD [], ValidUtf8 word := by
    rw [hargs, Option.getD_some, List.forall_mem_cons]
    exact ⟨⟨"run", rfl⟩, hutf8⟩
  obtain ⟨stdin, hreq, -⟩ := readRequest_simpleMode hutf8' hconn
  obtain ⟨reply, hcall, hinvoked⟩ := call_run hupper hlower (hmethod stdin) r.words
  refine ⟨reply, r.words, ?_, hinvoked, hr.read_words, ?_⟩
  · rw [serve, hreq]
    show Except.ok (call strings (service stdin) args) = _
    rw [hargs, hcall]
  · have hpath := lxcConfigPath_ne_dashDash (containerId sum)
      (pathJoin [repository, containerId sum]) r.command r.args
      ⟨containerId sum, r.user, r.ports, r.tty, r.stdin⟩
    exact sysInit_container hlxc (runContainer repository sum r) (containerId_ne_dashDash sum) hpath
      gateway

end

/-! ## A command that looks like flags -/

/-- A service that has `CmdRun`. -/
def runService : Service where
  help := str "Usage: docker COMMAND"
  method := fun name => if name = str "CmdRun" then some fun _ => none else none
  identifier := by
    intro name h
    split at h
    · next heq =>
      subst heq
      decide
    · simp at h

/-- Two ports, and words that look like flags and separators. -/
def dashedRequest : RunRequest where
  user := str "-g"
  attach := true
  stdin := false
  tty := true
  comment := str "--"
  memory := -1
  ports := [80, 80]
  image := str "base"
  command := str "--"
  args := [str "-u", str "--", [], str "-g=x"]

/-- What follows the first separator. -/
theorem tail_dropWhile {before : List GoString} (h : dashDash ∉ before) (after : List GoString) :
    ((before ++ dashDash :: after).dropWhile (· ≠ dashDash)).tail = after := by
  have hall : ∀ arg ∈ before, decide (arg ≠ dashDash) = true := by
    intro arg harg
    exact decide_eq_true fun e => h (e ▸ harg)
  rw [List.dropWhile_append_of_pos hall]
  simp

theorem run_executes_dashes :
    ∃ reply words,
      serve Json.strings asciiCase (fun _ => runService)
        ⟨[Client.simpleMode Json.strings (some (str "run" :: dashedRequest.words)) (str "hi")],
          by simp [Client.simpleMode, Client.call]⟩ = .ok (.ret reply) ∧
      reply.invoked = [.command (str "CmdRun") words] ∧ cmdRun words = .ok dashedRequest ∧
      sysInit (((runContainer (str "/var/lib/docker/containers") (.replicate 32 0)
          dashedRequest).params (str "10.0.3.1")).dropWhile (· ≠ dashDash)).tail =
        .ok [.setupNetworking (str "10.0.3.1"), .changeUser (str "-g"), .setupEnv,
          .executeProgram (str "--") [str "--", str "-u", str "--", [], str "-g=x"]] := by
  apply @run_executes _ Json.strings rfl rfl (fun _ => runService) (fun _ => rfl)
    fun argv => (argv.dropWhile (· ≠ dashDash)).tail
  · exact fun before after h => tail_dropWhile h after
  · exact ⟨by decide, by decide, by decide⟩
  · intro word hword
    simp only [dashedRequest, RunRequest.words, List.flatMap_cons, List.flatMap_nil, if_true,
      Bool.false_eq_true, if_false, List.append_nil, List.cons_append, List.nil_append,
      List.mem_cons, List.not_mem_nil, or_false] at hword
    rcases hword with rfl | rfl | rfl | rfl | rfl | rfl | rfl | rfl | rfl | rfl | rfl | rfl | rfl |
      rfl | rfl | rfl | rfl | rfl | rfl <;> first | exact ⟨_, rfl⟩ | exact ⟨"", rfl⟩
  -- the link is found in the `PATH`, by its name alone
  · exact .inr ⟨show base (str "run") = str "run" by decide, rfl⟩
  · exact clientMain_types (show str "run" ∈ interactiveNames by decide) (by decide)
      (.inr ⟨by decide, rfl⟩)
  · exact List.append_nil _

end Docker
