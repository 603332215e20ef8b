import DockerEngine.Go.Path

/-!
# The layer store (`fs/layers.go`)

A layer is a directory under the root of the store. The file system is the list of these
directories by their path; what a directory holds is a parameter. A layer is unpacked
into a temporary directory first and then renamed. Each operation that can fail does so
when its `LayerFault` says so, and `os.RemoveAll` of the temporary directory may leave
something behind.
-/

namespace Docker

open Go

/-- The directories under `root`, by path. -/
structure LayerStore (α : Type u) where
  root : GoString
  dirs : List (GoString × α)

/-- Where a call of `AddLayer` fails, and the error of the operation. `stale` is what is
    left of the temporary directory. -/
inductive LayerFault (α : Type u) where
  | mktemp (err : GoString)
  | untar (err : GoString) (stale : Option α)
  | rename (err : GoString) (stale : Option α)

namespace LayerStore

variable {α : Type u}

/-- The contents of the directory at a path. -/
def stat (store : LayerStore α) (path : GoString) : Option α :=
  (store.dirs.find? fun d => d.1 = path).map Prod.snd

/-- `List`. `ReadDir` sorts by name, and paths under one root are in the order of their names. -/
def list (store : LayerStore α) : List GoString :=
  (store.dirs.map Prod.fst).mergeSort fun p q => decide (p ≤ q)

def layerPath (store : LayerStore α) (id : GoString) : GoString := pathJoin [store.root, id]

/-- `Exists`. -/
def has (store : LayerStore α) (id : GoString) : Bool := (store.stat (store.layerPath id)).isSome

def get (store : LayerStore α) (id : GoString) : GoString :=
  if store.has id then store.layerPath id else []

/-- The path of the temporary directory that `Mktemp` makes. -/
def tmpPath (store : LayerStore α) (tmpName : GoString) : GoString :=
  pathJoin [store.root, str "tmp-" ++ tmpName]

/-- `List` lists what can be found. -/
theorem mem_list {store : LayerStore α} {path : GoString} :
    path ∈ store.list ↔ store.stat path ≠ none := by
  rw [list, List.mem_mergeSort, stat, Ne, Option.map_eq_none_iff, List.find?_eq_none, List.mem_map]
  simp

/-- One more directory. -/
def mkdir (store : LayerStore α) (path : GoString) (data : α) : LayerStore α :=
  { store with dirs := store.dirs ++ [(path, data)] }

/-- What is left at `path` after `os.RemoveAll`. -/
def leave (store : LayerStore α) (path : GoString) : Option α → LayerStore α
  | none => store
  | some stale => store.mkdir path stale

/-- `AddLayer`: `data` is what the archive unpacks to, `tmpName` the random name that
    `Mktemp` draws. -/
def addLayer (store : LayerStore α) (id tmpName : GoString) (data : α)
    (fault : Option (LayerFault α)) : Except GoString GoString × LayerStore α :=
  if store.has id then (.error (str "Layer already exists: " ++ id), store)
  else
    let tmp := store.tmpPath tmpName
    if (store.stat tmp).isSome then
      (.error (str "Mktemp failed: mkdir " ++ tmp ++ str ": file exists"), store)
    else
      let layer := store.layerPath id
      match fault with
      | some (.mktemp err) => (.error (str "Mktemp failed: " ++ err), store)
      | some (.untar err stale) => (.error err, store.leave tmp stale)
      | some (.rename err stale) =>
        (.error (str "Could not rename temp dir to layer " ++ layer ++ str ": " ++ err),
          store.leave tmp stale)
      | none => (.ok layer, store.mkdir layer data)

end LayerStore

end Docker
