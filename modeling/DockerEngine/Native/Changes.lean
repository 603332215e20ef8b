import DockerEngine.Native.Commit

/-!
# The changes of a container (`fs/changes.go`)

`Changes` walks through the read-write directory of a mountpoint and asks each layer of the
image, from the top, whether it has the path too. A layer is a tree of directories, regular
files and symbolic links; where a link leads is not part of the tree. The read-write
directory is given by the calls that `filepath.Walk` makes of the function it is passed, in
their order.
-/

namespace Docker

open Go UnionMount

/-- An `os.FileInfo`. -/
structure FileInfo where
  isDir : Bool
  size : Int
  mode : Nat
  modTime : Int
  deriving DecidableEq, Repr

/-- The errors of `os.Stat`. -/
inductive StatError where
  | notExist
  | other (text : GoString)
  deriving DecidableEq, Repr

/-- An entry that is not a directory. `follow` is what `os.Stat` says of the target of a link,
    with the rest of the path behind it. -/
inductive Node where
  | regular (info : FileInfo)
  | link (follow : List GoString → Except StatError FileInfo)

/-- The directory of a layer, with what `os.Stat` says of its directories. -/
structure LayerTree where
  branch : Branch GoString Node
  dirInfo : List GoString → FileInfo

namespace LayerTree

def empty : LayerTree := ⟨Branch.empty, fun _ => ⟨true, 0, 0, 0⟩⟩

/-- `os.Stat` from a directory on: links are followed. -/
def statFrom (t : LayerTree) (dir : List GoString) : List GoString → Except StatError FileInfo
  | [] =>
    match t.branch.entry dir with
    | none => .error .notExist
    | some .dir => .ok { t.dirInfo dir with isDir := true }
    | some (.file (.regular info)) => .ok { info with isDir := false }
    | some (.file (.link follow)) => follow []
  | name :: rest =>
    match t.branch.entry dir with
    | none => .error .notExist
    | some .dir => t.statFrom (dir ++ [name]) rest
    | some (.file (.regular _)) => .error (.other (str "not a directory"))
    | some (.file (.link follow)) => follow (name :: rest)

/-- `os.Stat`. -/
def stat (t : LayerTree) (path : List GoString) : Except StatError FileInfo := t.statFrom [] path

end LayerTree

/-- The tree at the path of a layer. -/
def LayerStore.layerTree (store : LayerStore LayerTree) (layer : GoString) : LayerTree :=
  (store.stat layer).getD LayerTree.empty

/-- A call of the function: the path, by its components below the read-write directory, and
    what `os.Lstat` says of it. -/
structure Visit where
  path : List GoString
  f : FileInfo
  deriving DecidableEq, Repr

/-- A walk through a directory. A last call with an error ends it. -/
structure Walk where
  visits : List Visit
  err : Option GoString
  nodup : (visits.map Visit.path).Nodup
  plain : ∀ v ∈ visits, ∀ name ∈ v.path, PlainName name

/-- `filepath.Join("/", path)`. -/
def rebase (path : List GoString) : GoString := slash :: join [slash] path

/-- `filepath.Match("/.wh..wh.*", path)`: a star does not match a slash. -/
def isMetadata : List GoString → Bool
  | [name] => (str ".wh..wh.").isPrefixOf name
  | _ => false

/-- The prefix of whiteouts, of the last component. -/
def isWhiteout (path : List GoString) : Bool := path.getLast?.any (str ".wh.").isPrefixOf

/-- `strings.TrimLeft`: `cutset` is a set of bytes. -/
def trimLeft (s cutset : GoString) : GoString := s.dropWhile (· ∈ cutset)

/-- The directory is the same in the layer. -/
def FileInfo.unchanged (f stat : FileInfo) : Bool :=
  stat.isDir && f.isDir && f.size = stat.size && f.mode = stat.mode && f.modTime = stat.modTime

namespace Store

inductive ChangeType where
  | modify
  | add
  | delete
  deriving DecidableEq, Repr

structure Change where
  path : GoString
  kind : ChangeType
  deriving DecidableEq, Repr

variable (store : Store LayerTree)

/-- The loop over the layers: what kind of change an entry is, and `none` for a directory that
    is skipped. -/
def probe (v : Visit) : List GoString → Except GoString (Option ChangeType)
  | [] => .ok (some .add)
  | layer :: layers =>
    match (store.layers.layerTree layer).stat v.path with
    | .error .notExist => probe v layers
    | .error (.other text) =>
      .error (str "stat " ++ pathJoin [layer, rebase v.path] ++ str ": " ++ text)
    | .ok stat => .ok (if v.f.unchanged stat then none else some .modify)

/-- The function that `Changes` passes to `filepath.Walk`. -/
def visit (layers : List GoString) (v : Visit) : Except GoString (Option Change) :=
  if v.path = [] then .ok none
  else if isMetadata v.path then .ok none
  else if isWhiteout v.path then
    let originalFile := trimLeft (v.path.getLast?.getD []) (str ".wh.")
    .ok (some ⟨pathJoin [rebase v.path.dropLast, originalFile], .delete⟩)
  else
    match store.probe v layers with
    | .error err => .error err
    | .ok kind => .ok (kind.map fun kind => ⟨rebase v.path, kind⟩)

/-- The changes that the walk records, up to the first error. -/
def walkChanges (layers : List GoString) (err : Option GoString) :
    List Visit → Except GoString (List Change)
  | [] =>
    match err with
    | some err => .error err
    | none => .ok []
  | v :: visits => do
    let change ← store.visit layers v
    let changes ← walkChanges layers err visits
    return change.toList ++ changes

/-- `Changes` of a mountpoint of the image `image`, whose read-write directory is walked by
    `walk`. -/
def changes (fuel : Nat) (image : GoString) (walk : Walk) :
    Outcome (Except GoString (List Change)) :=
  match store.get image with
  -- `layers` of a nil image is empty
  | none => .ret (store.walkChanges [] walk.err walk.visits)
  | some image =>
    match store.layersOf fuel image with
    | .ret (layers, none) => .ret (store.walkChanges layers walk.err walk.visits)
    | .ret (_, some err) => .ret (.error err)
    | .panic => .panic
    | .block => .block

end Store

end Docker
