import DockerEngine.Go.Strconv
import DockerEngine.Native.SysInit

/-!
# From a shell to `CmdRun` (`docker/docker.go`, `client/client.go`, `server/server.go`)

The docker client is called by its own name, or by one of the names that interactive mode puts
in front of the `PATH`. It passes its words on. `CmdRun` reads the words that follow `run`, and
`CreateContainer` makes a container of them.

The `Usage` texts of the flags are left out, and so is what `CmdRun` does with the container it
has created (see `Native/Start.lean`, `Native/Output.lean` and `Native/Stdin.lean`).
-/

namespace Docker

open Go

/-! ## The client -/

/-- The names that `InteractiveMode` makes links for. -/
def interactiveNames : List GoString :=
  ["help", "run", "ps", "pull", "put", "rm", "kill", "wait", "stop", "start", "restart", "logs",
    "diff", "commit", "attach", "info", "tar", "web", "images", "docker"].map str

/-- The two modes of the client. -/
inductive ClientMode where
  | interactive (scripts : List GoString)
  | simple (args : List GoString)
  deriving DecidableEq, Repr

def clientFlags : FlagSet := fun name => if name = str "i" then some .bool else none

/-- `main` of the client, for `os.Args[0]` and the other words. With a flag it does not know the
    client exits. -/
def clientMain (argv0 : GoString) (args : List GoString) : Except FlagError ClientMode :=
  let cmd := base argv0
  if cmd = str "docker" then
    match clientFlags.parse args with
    | .error e => .error e
    | .ok flags =>
      .ok (if flags.boolValue (str "i") false then .interactive flags.args else .simple args)
  else .ok (.simple ([cmd] ++ args))

/-! ## `CmdRun` -/

/-- What `CmdRun` is asked to do. A command line has at least one word. -/
structure RunRequest where
  user : GoString
  attach : Bool
  stdin : Bool
  tty : Bool
  comment : GoString
  memory : Int
  ports : List Int
  image : GoString
  command : GoString
  args : List GoString
  deriving DecidableEq, Repr

/-- The flags of `CmdRun`. `Set` of a port takes what `strconv.Atoi` takes. -/
def runFlags : FlagSet := fun name =>
  if name = str "u" ∨ name = str "c" then some .string
  else if name = str "a" ∨ name = str "i" ∨ name = str "t" then some .bool
  else if name = str "m" then some .int64
  else if name = str "p" then some ⟨false, fun value => (atoi value).isSome⟩
  else none

/-- The ports that the calls of `Set` have appended. -/
def Parsed.ports (p : Parsed) : List Int :=
  (p.sets.filter fun s => s.1 = str "p").filterMap fun s => atoi s.2

/-- `CmdRun` up to the search for the image. With an error it returns nil. -/
def cmdRun (args : List GoString) : Except FlagError RunRequest :=
  match runFlags.parse args with
  | .error e => .error e
  | .ok cmd =>
    let name := cmd.arg 0
    let cmdline := if 2 ≤ cmd.args.length then cmd.args.tail else []
    -- Choose a default image if needed
    let name := if name = [] then str "base" else name
    .ok <|
      match cmdline with
      -- Choose a default command if needed
      | [] => {
          user := cmd.value (str "u") []
          attach := true
          stdin := true
          tty := true
          comment := cmd.value (str "c") []
          memory := cmd.intValue (str "m") 0
          ports := Parsed.ports cmd
          image := name
          command := str "/bin/bash"
          args := [str "-i"] }
      | command :: args => {
          user := cmd.value (str "u") []
          attach := cmd.boolValue (str "a") false
          stdin := cmd.boolValue (str "i") false
          tty := cmd.boolValue (str "t") false
          comment := cmd.value (str "c") []
          memory := cmd.intValue (str "m") 0
          ports := Parsed.ports cmd
          image := name
          command
          args }

/-- The container that `CreateContainer` makes, for the sum that its id is taken from. -/
def runContainer (repository : GoString) (sum : Vector UInt8 32) (r : RunRequest) : Container :=
  let id := containerId sum
  createContainer id (pathJoin [repository, id]) r.command r.args
    ⟨id, r.user, r.ports, r.tty, r.stdin⟩

end Docker
