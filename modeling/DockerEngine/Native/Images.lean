import DockerEngine.Native.Commands
import DockerEngine.Native.Names

/-!
# `images` (`server/server.go`)

`CmdImages` goes through the names in the table of paths, and shows what `List` has for each of
them (`Store.cmdImages`). The `Usage` text is left out; the clock and package `tabwriter` are
parameters.
-/

namespace Docker

open Go

variable {α : Type u}

def imagesFlags : FlagSet := fun name =>
  if name = str "l" then some .int64 else if name = str "q" then some .bool else none

/-- What `CmdImages` reads besides the store: the time, in nanoseconds. -/
structure ImagesView where
  now : Int
  floatText : Int → GoString
  tabwriter : GoString → GoString

def imagesHeader : List GoString := ["NAME", "ID", "CREATED", "PARENT"].map str

/-- The fields of a row. -/
def imagesFields (view : ImagesView) (row : GoString × Image) : List GoString :=
  [row.1, row.2.id,
    humanDuration view.floatText (view.now - row.2.created * 1000000000) ++ str " ago",
    row.2.parent]

/-- What `CmdImages` writes; with more than one name it is the usage (`none`). -/
def cmdImages (view : ImagesView) (store : Store α) (args : List GoString) :
    Except FlagError (Option GoString) :=
  match imagesFlags.parse args with
  | .error e => .error e
  | .ok cmd =>
    if 1 < cmd.args.length then .ok none
    else
      let nameFilter := if cmd.args.length = 1 then cmd.arg 0 else []
      let shown := store.cmdImages nameFilter (cmd.intValue (str "l") 0)
      .ok <| some <|
        if cmd.boolValue (str "q") false then shown.flatMap fun row => row.2.id ++ [newline]
        else view.tabwriter (Restore.table (imagesHeader :: shown.map (imagesFields view)))

end Docker
