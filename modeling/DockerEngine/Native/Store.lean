import DockerEngine.Native.Layers
import DockerEngine.Native.Future
import DockerEngine.ForStd.Lineage
import DockerEngine.ForStd.System
import DockerEngine.Go.Outcome

/-!
# The image store (`fs/store.go`)

Images, their paths, mountpoints and tags are rows of four tables with primary keys; an
insertion fails on a key that is taken, or when the database says so (`err`). Reading
the tables does not fail here. The pointer of an image to its store and the columns of
the database driver are left out.

`StoreRun` is a store in use: it also remembers which names `RandomId` has returned and
which images the callers have got hold of.
-/

namespace Docker

open Go

structure Image where
  id : GoString
  parent : GoString
  comment : GoString
  created : Int
  deriving DecidableEq, Repr

structure PathRow where
  path : GoString
  image : GoString
  deriving DecidableEq, Repr

structure Mountpoint where
  image : GoString
  root : GoString
  rw : GoString
  deriving DecidableEq, Repr

structure Tag where
  tagName : GoString
  image : GoString
  deriving DecidableEq, Repr

/-- The key of the parent of an image. -/
def Image.parentKey (image : Image) : Option GoString :=
  if image.parent = [] then none else some image.parent

structure Store (α : Type u) where
  images : List Image
  paths : List PathRow
  mountpoints : List Mountpoint
  tags : List Tag
  layers : LayerStore α

/-- Where a call of `Create` fails, and the error of the operation, for `Begin` with its type in
    front. A commit that fails has written both rows or none. -/
inductive CreateFault (α : Type u) where
  | layer (fault : LayerFault α)
  | begin (type err : GoString)
  | insertImage (err : GoString)
  | insertPath (err : GoString)
  | commit (err : GoString) (written : Bool)

def CreateFault.layerFault {α : Type u} : CreateFault α → Option (LayerFault α)
  | layer fault => some fault
  | _ => none

/-- The format string of the source has no verb for the error of `Begin`. -/
def beginError (type err : GoString) : GoString :=
  str "Could not begin transaction:%!(EXTRA " ++ type ++ str "=" ++ err ++ str ")"

/-- The error of an insertion whose key is taken. -/
def notUnique : GoString := str "constraint failed"

namespace Store

variable {α : Type u}

/-- A new store whose layers are under `root`. -/
def empty (root : GoString) : Store α := ⟨[], [], [], [], ⟨root, []⟩⟩

def get (store : Store α) (id : GoString) : Option Image :=
  lookupRow Image.id store.images id

/-- The two rows that `Create` inserts. -/
def insert (store : Store α) (image : Image) (path : PathRow) : Store α :=
  { store with images := store.images ++ [image], paths := store.paths ++ [path] }

/-- `Create`: `id` and `tmpName` are drawn by `RandomId`, `created` is the time, `data` is
    what the archive unpacks to. -/
def create (store : Store α) (id tmpName : GoString) (created : Int) (data : α)
    (parent : Option Image) (pth comment : GoString) (fault : Option (CreateFault α)) :
    Except GoString Image × Store α :=
  let img : Image := ⟨id, (parent.map Image.id).getD [], comment, created⟩
  match store.layers.addLayer img.id tmpName data (fault.bind CreateFault.layerFault) with
  | (.error err, layers) => (.error (str "Could not add layer: " ++ err), { store with layers })
  | (.ok _, layers) =>
    let store := { store with layers }
    let path : PathRow := ⟨clean pth, img.id⟩
    match fault with
    | some (.begin type err) => (.error (beginError type err), store)
    | some (.insertImage err) => (.error (str "Could not insert image info: " ++ err), store)
    | fault =>
      if (store.get img.id).isSome then
        (.error (str "Could not insert image info: " ++ notUnique), store)
      else
        match fault with
        -- the row of the image is never committed (see `Native/Transaction.lean`)
        | some (.insertPath err) => (.error (str "Could not insert path info: " ++ err), store)
        | fault =>
          if path ∈ store.paths then
            (.error (str "Could not insert path info: " ++ notUnique), store)
          else
            match fault with
            | some (.commit err written) =>
              (.error (str "Could not commit transaction: " ++ err),
                if written then store.insert img path else store)
            | _ => (.ok img, store.insert img path)

/-- `Image.Copy`. -/
def copy (store : Store α) (image : Image) (pth : GoString) (err : Option GoString) :
    Except GoString Image × Store α :=
  match err with
  | some err => (.error err, store)
  | none =>
    if (⟨pth, image.id⟩ : PathRow) ∈ store.paths then (.error notUnique, store)
    else (.ok image, { store with paths := store.paths ++ [⟨pth, image.id⟩] })

/-- `Image.Mountpoint`. -/
def mountpoint (store : Store α) (image : Image) (root rw : GoString) (err : Option GoString) :
    Except GoString Mountpoint × Store α :=
  let mp : Mountpoint := ⟨image.id, clean root, clean rw⟩
  match err with
  | some err => (.error err, store)
  | none =>
    if mp.root ∈ store.mountpoints.map Mountpoint.root then (.error notUnique, store)
    else (.ok mp, { store with mountpoints := store.mountpoints ++ [mp] })

def addTag (store : Store α) (imageId tagName : GoString) (err : Option GoString) :
    Option GoString × Store α :=
  match store.get imageId with
  | none => (some (str "No image with ID " ++ imageId), store)
  | some _ =>
    match err with
    | some err => (some err, store)
    | none =>
      if tagName ∈ store.tags.map Tag.tagName then (some notUnique, store)
      else (none, { store with tags := store.tags ++ [⟨tagName, imageId⟩] })

/-- The loop of `layers`, with the error texts of `image`. It blocks when `fuel` rounds are
    not enough. -/
def layersLoop (store : Store α) (image : Image) :
    Nat → Option Image → Outcome (List GoString × Option GoString)
  | _, none => .ret ([], none)
  | 0, some _ => .block
  | fuel + 1, some currentImg =>
    let layer := store.layers.get currentImg.id
    if layer ≠ [] then do
      let (list, err) ← layersLoop store image fuel (store.get currentImg.parent)
      return (layer :: list, err)
    else .ret ([], some (str "Layer not found for image " ++ image.id))

/-- `Image.layers`: the paths found, and the error. -/
def layersOf (store : Store α) (fuel : Nat) (image : Image) :
    Outcome (List GoString × Option GoString) :=
  store.layersLoop image fuel (some image)

end Store

/-! ## A store in use -/

structure StoreRun (α : Type u) where
  store : Store α
  /-- The names `RandomId` has returned. -/
  drawn : List GoString
  /-- The images the callers got from the store. -/
  obtained : List Image

/-- A request to the store. An image is given by its number among the obtained ones, and a
    random name by the sum it is taken from. -/
inductive StoreOp (α : Type u) where
  | create (idSum tmpSum : Vector UInt8 32) (created : Int) (data : α) (parent : Option Nat)
      (pth comment : GoString) (fault : Option (CreateFault α))
  | get (id : GoString)
  | copy (k : Nat) (pth : GoString) (err : Option GoString)
  | mountpoint (k : Nat) (root rw : GoString) (err : Option GoString)
  | addTag (imageId tagName : GoString) (err : Option GoString)

namespace StoreRun

variable {α : Type u}

/-- The image a caller passes as parent: none, or one it got before. -/
def parentArg (s : StoreRun α) : Option Nat → Option (Option Image)
  | none => some none
  | some k => s.obtained[k]?.map some

/-- `RandomId` returned these two names, which it had never returned before. -/
def Draws (s : StoreRun α) (id tmpName : GoString) : Prop :=
  id ∉ s.drawn ∧ tmpName ∉ s.drawn ∧ id ≠ tmpName

instance (s : StoreRun α) (id tmpName : GoString) : Decidable (s.Draws id tmpName) :=
  inferInstanceAs (Decidable (id ∉ s.drawn ∧ tmpName ∉ s.drawn ∧ id ≠ tmpName))

def step (s : StoreRun α) : StoreOp α → Option (StoreRun α)
  | .create idSum tmpSum created data parent pth comment fault =>
    let id := randomId idSum
    let tmpName := randomId tmpSum
    match s.parentArg parent with
    | none => none
    | some parent =>
      if s.Draws id tmpName then
        match s.store.create id tmpName created data parent pth comment fault with
        | (.ok img, store) => some ⟨store, s.drawn ++ [id, tmpName], s.obtained ++ [img]⟩
        | (.error _, store) => some ⟨store, s.drawn ++ [id, tmpName], s.obtained⟩
      else none
  | .get id =>
    match s.store.get id with
    | some img => some { s with obtained := s.obtained ++ [img] }
    | none => some s
  | .copy k pth err =>
    s.obtained[k]?.map fun img => { s with store := (s.store.copy img pth err).2 }
  | .mountpoint k root rw err =>
    s.obtained[k]?.map fun img => { s with store := (s.store.mountpoint img root rw err).2 }
  | .addTag imageId tagName err => some { s with store := (s.store.addTag imageId tagName err).2 }

/-- The empty store. -/
def Empty (s : StoreRun α) : Prop := ∃ root, s = ⟨Store.empty root, [], []⟩

end StoreRun

/-- All runs of a store. -/
def storeSystem (α : Type u) : System (StoreRun α) (StoreOp α) where
  init := StoreRun.Empty
  step := StoreRun.step

end Docker
