import DockerEngine.Go.Sort
import DockerEngine.Go.Strconv
import DockerEngine.Native.HumanDuration
import DockerEngine.Native.Restore
import DockerEngine.Native.Serve

/-!
# `ps` and `rm` (`docker.go`, `server/server.go`)

`List` puts the containers of the daemon into a `History`, which is sorted again for each of
them. `CmdPs` shows what `List` returns. `CmdRm` looks up one name after the other and
destroys what it finds; while it is at work other requests and the monitors go on. `Destroy`
looks the container up again, waits in `Stop` until it is not running, or fails there, and goes on
step by step.

The `Usage` texts are left out. What `CmdPs` reads besides the containers (the clock, the
user data) and package `tabwriter` are parameters.
-/

namespace Docker.Restore

open Go

variable {α : Type}

/-! ## Listing -/

/-- A `sort.Sort` of a `History`: `Less` puts the newest first. -/
abbrev History := Sorter (Sorter.descending Container.created)

/-- `history.Add`. -/
def History.add (history : History) (containers : List Container) (container : Container) :
    List Container :=
  history.sort (containers ++ [container])

/-- `Docker.List`. -/
def Site.list (s : Site α) (history : History) : List Container := s.known.foldl history.add []

/-- `Trunc`. -/
def trunc (s : GoString) (maxlen : Nat) : GoString :=
  if s.length ≤ maxlen then s else s.take maxlen

def psFlags : FlagSet := fun name =>
  if name = str "q" ∨ name = str "a" ∨ name = str "notrunc" then some .bool else none

/-- What `CmdPs` reads besides the containers. -/
structure PsView where
  now : Int
  uptime : Container → Int
  userData : Container → GoString → GoString
  floatText : Int → GoString
  tabwriter : GoString → GoString

def tab : UInt8 := 9

/-- The fields of a row. -/
def psFields (view : PsView) (full : Bool) (container : Container) : List GoString :=
  let command := container.path ++ str " " ++ join (str " ") container.args
  [container.id, view.userData container (str "image"),
    if full then command else trunc command 20,
    humanDuration view.floatText (view.now - container.created) ++ str " ago",
    container.state.string view.floatText (view.uptime container),
    view.userData container (str "comment")]

/-- The lines of a table, as they are given to package `tabwriter`. -/
def table (rows : List (List GoString)) : GoString :=
  rows.flatMap fun fields => join [tab] fields ++ [newline]

def psHeader : List GoString := ["ID", "IMAGE", "COMMAND", "CREATED", "STATUS", "COMMENT"].map str

/-- The lines of `ps -q`. -/
def idLines (containers : List Container) : GoString :=
  containers.flatMap fun container => container.id ++ [newline]

/-- `CmdPs`: what it writes for what `List` returned. -/
def cmdPs (view : PsView) (containers : List Container) (args : List GoString) :
    Except FlagError GoString :=
  match psFlags.parse args with
  | .error e => .error e
  | .ok cmd =>
    let shown := containers.filter fun container =>
      container.state.running || cmd.boolValue (str "a") false
    .ok <|
      if cmd.boolValue (str "q") false then idLines shown
      else
        view.tabwriter
          (table (psHeader :: shown.map (psFields view (cmd.boolValue (str "notrunc") false))))

/-! ## Removing -/

/-- Where a `Destroy` is that `CmdRm` has called for a name: at its beginning, with the container
    `Get` returned, or behind its lookup. -/
inductive Destroying where
  | lookup (k : Nat)
  | call (k : Nat) (call : DestroyCall)
  deriving DecidableEq, Repr

/-- A `CmdRm` at work on the names `todo`. -/
structure Rm (α : Type) where
  site : Site α
  todo : List GoString
  current : Option (GoString × Destroying)
  stdout : GoString
  /-- The error it returned. -/
  returned : Option (Option GoString)

/-- A step of somebody else, of the loop, or of `Destroy`; `err` is the error of `Stop`. -/
inductive RmOp where
  | other (op : SiteOp)
  | get
  | lookup
  | destroy (err : Option GoString)
  deriving DecidableEq, Repr

def noSuchContainer (name : GoString) : GoString := str "No such container: " ++ name

/-- The error of `Destroy` when the daemon does not know the container. -/
def notFound (id : GoString) : GoString :=
  str "Container " ++ id ++ str " not found - maybe it was already destroyed?"

def destroyError (name err : GoString) : GoString :=
  str "Error destroying container " ++ name ++ str ": " ++ err ++ [newline]

namespace Rm

/-- `CmdRm` with these names. -/
def start (site : Site α) (names : List GoString) : Rm α := ⟨site, names, none, [], none⟩

/-- `Destroy` has returned an error. -/
def report (r : Rm α) (name err : GoString) : Rm α :=
  { r with
    current := none
    stdout := r.stdout ++ destroyError name err }

def step (r : Rm α) : RmOp → Option (Rm α)
  -- with the daemon its requests end
  | .other .restart => none
  | .other op => (r.site.step op).map fun site => { r with site }
  | .get =>
    match r.returned, r.current, r.todo with
    | none, none, [] => some { r with returned := some none }
    | none, none, name :: rest =>
      match r.site.getContainerElement name with
      | none => some { r with returned := some (some (noSuchContainer name)) }
      | some k => some { r with todo := rest, current := some (name, .lookup k) }
    | _, _, _ => none
  | .lookup =>
    match r.current with
    | some (name, .lookup k) =>
      r.site.heap[k]?.map fun o =>
        match r.site.getContainerElement o.container.id with
        | none => r.report name (notFound o.container.id)
        | some element => { r with current := some (name, .call k ⟨element, .stop⟩) }
    | _ => none
  | .destroy err =>
    match r.current with
    | some (name, .call k call) =>
      r.site.heap[k]?.bind fun o =>
        (r.site.destroyStep o.container call err.isNone).map fun (site, next) =>
          match next with
          | some pc => { r with site, current := some (name, .call k { call with pc }) }
          | none =>
            match call.pc, err with
            | .stop, some err => { r with site }.report name err
            | _, _ => { r with site, current := none }
    | _ => none

end Rm

/-- All runs of a `CmdRm`. -/
def rmSystem (α : Type) : System (Rm α) RmOp where
  init r := ∃ site names, r = .start site names
  step := Rm.step

end Docker.Restore
