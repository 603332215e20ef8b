import DockerEngine.Native.Store
import DockerEngine.ForStd.UnionMount

/-!
# Mounting and committing (`fs/store.go`, `CmdCommit` of `server/server.go`)

`Image.Mount` puts the read-write directory of a container in front of the layers of its
image. `CmdCommit` archives the read-write directory and makes a new image of it, with
the image of the container as its parent. The contents of a layer are a directory tree
here, and the mount is the union of these trees that aufs makes of the mount string.
-/

namespace Docker

open Go UnionMount

variable {β : Type}

/-- The whiteouts of aufs: `.wh.n` for `n`, and no name that starts with `.wh.` is shown. -/
def aufs : Whiteouts GoString where
  mark name := str ".wh." ++ name
  hidden name := (str ".wh.").isPrefixOf name

/-- The tree in the directory of a layer. -/
def LayerStore.tree (store : LayerStore (Branch GoString β)) (layer : GoString) :
    Branch GoString β := (store.stat layer).getD Branch.empty

/-- The branches of `Image.Mount`, in the order of the mount string: the read-write
    directory as `rw`, then the layers, each as `ro`. -/
def Store.mount (store : Store (Branch GoString β)) (fuel : Nat) (image : Image)
    (rw : Branch GoString β) :
    Outcome (Except GoString (List (UnionMount.Flag × Branch GoString β))) :=
  match store.layersOf fuel image with
  | .ret (layers, none) =>
    .ret (.ok ((.rw, rw) :: layers.map fun layer => (.ro, store.layers.tree layer)))
  | .ret (_, some err) => .ret (.error err)
  | .panic => .panic
  | .block => .block

/-- `Tar` and `Untar`, which run bsdtar. -/
structure Archiver (α : Type u) where
  Archive : Type
  tar : α → Archive
  untar : Archive → Except GoString α

/-- The part of a container that a commit reads. -/
structure CommitSource (β : Type) where
  image : GoString
  rw : Branch GoString β

/-- `CmdCommit` of a container to `imgName`. -/
def Store.cmdCommit (store : Store (Branch GoString β)) (archiver : Archiver (Branch GoString β))
    (container : CommitSource β) (imgName id tmpName : GoString) (created : Int)
    (fault : Option (CreateFault (Branch GoString β))) :
    Except GoString Image × Store (Branch GoString β) :=
  let rwTar := archiver.tar container.rw
  let parentImg := store.get container.image
  match archiver.untar rwTar with
  | .error err => (.error (str "Could not add layer: " ++ err), store)
  | .ok data => store.create id tmpName created data parentImg imgName [] fault

end Docker
