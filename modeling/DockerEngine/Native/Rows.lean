import DockerEngine.Native.Register
import DockerEngine.ForStd.System

/-!
# The tables of a store in use (`fs/store.go`)

Rows of the tables of paths, mountpoints and tags name images by their ids; the tables have
primary keys and no foreign keys. A run has all operations that write a table, on images that
the callers have got hold of.
-/

namespace Docker

open Go

variable {α : Type u}

namespace Store

def getByTag (store : Store α) (tagName : GoString) : Except GoString Image :=
  match lookupRow Tag.tagName store.tags tagName with
  | none => .error (str "No image associated to tag \"" ++ tagName ++ str "\"")
  | some tag =>
    match store.get tag.image with
    | none => .error (str "Tag was found but image seems to be inexistent.")
    | some img => .ok img

/-- `Deregister`, by the primary key. -/
def deregister (store : Store α) (mp : Mountpoint) (mounted : Bool) (err : Option GoString) :
    Option GoString × Store α :=
  if mounted then (some (str "Mountpoint is currently mounted, can't deregister"), store)
  else
    match err with
    | some err => (some err, store)
    | none =>
      (none, { store with mountpoints := store.mountpoints.filter fun row => row.root ≠ mp.root })

end Store

/-- A store, and the images that callers got from it or registered in it. -/
structure TableRun (α : Type u) where
  store : Store α
  obtained : List Image

/-- A call; an image is given by its number among the obtained ones. -/
inductive TableOp (α : Type u) where
  | create (id tmpName : GoString) (created : Int) (data : α) (parent : Option Nat)
      (pth comment : GoString) (fault : Option (CreateFault α))
  | register (image : Image) (pth : GoString) (errs : RegisterErrs)
  | get (id : GoString)
  | getByTag (tagName : GoString)
  | images
  | copy (k : Nat) (pth : GoString) (err : Option GoString)
  | mountpoint (k : Nat) (root rw : GoString) (err : Option GoString)
  | deregister (mp : Mountpoint) (mounted : Bool) (err : Option GoString)
  | addTag (imageId tagName : GoString) (err : Option GoString)

namespace TableRun

/-- The image a caller passes as parent: none, or one it got before. -/
def parentArg (s : TableRun α) : Option Nat → Option (Option Image)
  | none => some none
  | some k => s.obtained[k]?.map some

/-- The store after a call, and one more image when the call returned one. -/
def after (s : TableRun α) : Except GoString Image × Store α → TableRun α
  | (.ok img, store) => ⟨store, s.obtained ++ [img]⟩
  | (.error _, store) => ⟨store, s.obtained⟩

def step (s : TableRun α) : TableOp α → Option (TableRun α)
  | .create id tmpName created data parent pth comment fault =>
    (s.parentArg parent).map fun parent =>
      s.after (s.store.create id tmpName created data parent pth comment fault)
  | .register image pth errs =>
    match s.store.register image pth errs with
    | (some _, store) => some { s with store }
    | (none, store) => some ⟨store, s.obtained ++ [image]⟩
  | .get id => some { s with obtained := s.obtained ++ (s.store.get id).toList }
  | .getByTag tagName => some (s.after (s.store.getByTag tagName, s.store))
  | .images => some { s with obtained := s.obtained ++ s.store.images }
  | .copy k pth err =>
    s.obtained[k]?.map fun img => { s with store := (s.store.copy img pth err).2 }
  | .mountpoint k root rw err =>
    s.obtained[k]?.map fun img => { s with store := (s.store.mountpoint img root rw err).2 }
  | .deregister mp mounted err => some { s with store := (s.store.deregister mp mounted err).2 }
  | .addTag imageId tagName err => some { s with store := (s.store.addTag imageId tagName err).2 }

/-- The empty store. -/
def Empty (s : TableRun α) : Prop := ∃ root, s = ⟨Store.empty root, []⟩

end TableRun

/-- All runs of the tables of a store. -/
def tableSystem (α : Type u) : System (TableRun α) (TableOp α) where
  init := TableRun.Empty
  step := TableRun.step

end Docker
