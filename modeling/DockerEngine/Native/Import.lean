import DockerEngine.Native.Commit

/-!
# `tar` and `import` (`server/server.go`)

`CmdTar` mounts a container and archives what its root shows. `CmdImport` with `-stdin` makes an
image without a parent of an archive. A container that is mounted already has the branches that
`Mount` finds (`layers_forever` in `Spec/Import.lean`).

`CmdImport` without `-stdin`, which downloads the archive, is left out, and so are the lines it
writes.
-/

namespace Docker

open Go UnionMount

variable {β : Type}

namespace Store

/-- `CmdTar`, up to copying the archive to the client: `EnsureMounted` may fail. -/
def cmdTar (store : Store (Branch GoString β)) (archiver : Archiver (Branch GoString β))
    (fuel : Nat) (container : CommitSource β) (mountErr : Option GoString) :
    Outcome (Except GoString archiver.Archive) :=
  match store.get container.image with
  | none => .panic
  | some img =>
    match store.mount fuel img container.rw with
    | .ret (.error err) => .ret (.error err)
    | .ret (.ok branches) =>
      match mountErr with
      | some err => .ret (.error err)
      | none => .ret (.ok (archiver.tar (flatten aufs branches)))
    | .panic => .panic
    | .block => .block

/-- `CmdImport` with `-stdin`. -/
def cmdImport (store : Store (Branch GoString β)) (archiver : Archiver (Branch GoString β))
    (archive : archiver.Archive) (name id tmpName : GoString) (created : Int)
    (fault : Option (CreateFault (Branch GoString β))) :
    Except GoString Image × Store (Branch GoString β) :=
  if name = [] then (.error (str "Not enough arguments"), store)
  else
    match archiver.untar archive with
    | .error err => (.error (str "Could not add layer: " ++ err), store)
    | .ok data => store.create id tmpName created data none name [] fault

end Store

end Docker
