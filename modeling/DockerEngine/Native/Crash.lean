import DockerEngine.Native.Restore

/-!
# A daemon that dies (`container.go`, `docker.go`)

`save` truncates `config.json` and writes it anew (`ioutil.WriteFile`). When the daemon dies in
between, what is left is a part of the text, which `json.Unmarshal` does not take, so the file is as
good as none. This can happen in a `Start` that has launched the process, in a monitor that has
called `setStopped`, and in `createContainer`, which makes a row and a directory before.

The next daemon begins with `NewFromDirectory`.
-/

namespace Docker.Restore

open Go

namespace Site

variable {α : Type}

/-- A container with this directory is about to be saved. -/
def saving (s : Site α) (name : GoString) : Bool :=
  s.heap.any fun o => s.dirPath name = o.container.root ∧ (0 < o.launched ∨ 0 < o.reported)

/-- The files that were being written are lost. -/
def tear (s : Site α) (torn : List GoString) : Site α :=
  { s with dirs := s.dirs.map fun d => if d.1 ∈ torn then (d.1, none) else d }

/-- `Docker.Create` up to the row, or up to the directory without a file in it. -/
def beginCreate (s : Site α) (id : GoString) (image : Image) (made : Bool) : Option (Site α) :=
  let root := s.dirPath id
  if (s.getContainerElement id).isSome then none
  else
    match s.store.mountpoint image (pathJoin [root, str "rootfs"]) (pathJoin [root, str "rw"])
        none with
    | (.error _, _) => none
    | (.ok _, store) =>
      if made then
        if s.hasDir root then none
        else
          some { s with
            store
            dirs := s.dirs ++ [(id, none)] }
      else some { s with store }

end Site

/-- A step, or the end of a daemon which was writing the files of `torn` and creating a container,
    up to the row or up to its directory. -/
inductive CrashOp where
  | op (op : SiteOp)
  | crash (torn : List GoString) (creating : Option (GoString × Image × Bool))
  deriving DecidableEq, Repr

namespace Site

variable {α : Type}

/-- Where a `Create` is when the daemon dies. -/
def interrupted (s : Site α) : Option (GoString × Image × Bool) → Option (Site α)
  | none => some s
  | some (id, image, made) =>
    if PlainName id ∧ s.store.get image.id = some image then s.beginCreate id image made
    else none

def crashStep (s : Site α) : CrashOp → Option (Site α)
  | .op op => s.step op
  | .crash torn creating =>
    if torn.all s.saving then
      (s.interrupted creating).map fun s => (s.tear torn).newFromDirectory
    else none

end Site

/-- All runs of the containers of daemons that may die. -/
def crashSystem (α : Type) : System (Site α) CrashOp where
  init := Site.Fresh
  step := Site.crashStep

end Docker.Restore
