import DockerEngine.Native.Register

/-!
# The names of images (`fs/store.go`, `server/server.go`)

A name is a path in the table of paths. `Create`, `Copy` and `Register` write it, `Paths`,
`List` and `Find` read it. The queries join the two tables; the order of the rows of a join
is that of the images here, and nothing depends on it.

`Created` is the time in whole seconds. A store with its clock is a `ClockedStore`; the clock
is in nanoseconds and does not go backwards.
-/

namespace Docker

open Go

namespace Store

variable {α : Type u}

/-- `Paths`. -/
def pathNames (store : Store α) : List GoString :=
  (store.paths.map PathRow.path).dedup.mergeSort fun p q => decide (p ≤ q)

/-- The rows of `from images, paths where Path=? and paths.Image=images.Id`. -/
def named (store : Store α) (pth : GoString) : List Image :=
  store.images.flatMap fun img =>
    (store.paths.filter fun row => row.path = pth ∧ row.image = img.id).map fun _ => img

/-- `List`. -/
def list (store : Store α) (pth : GoString) : List Image := store.named (clean pth)

/-- The rows that may come first in `order by images.Created desc`. -/
def newest (images : List Image) : List Image :=
  images.filter fun img => images.all fun other => other.created ≤ img.created

/-- `Find`. Of several images that were created last the database returns one; `tie` tells
    which. -/
def find (store : Store α) (pth : GoString) (tie : Nat) : Option Image :=
  let pth := clean pth
  match store.get pth with
  | some img => some img
  | none =>
    let images := newest (store.named pth)
    images[tie % images.length]?

/-- The images that `CmdImages` shows, each with its name. -/
def cmdImages (store : Store α) (nameFilter : GoString) (limit : Int) :
    List (GoString × Image) :=
  store.pathNames.flatMap fun name =>
    if nameFilter ≠ [] ∧ nameFilter ≠ name then []
    else
      let ids := store.list name
      (if 0 < limit then ids.take limit.toNat else ids).map fun img => (name, img)

end Store

/-! ## A store and its clock -/

structure ClockedStore (α : Type u) where
  store : Store α
  /-- Nanoseconds. -/
  now : Nat

/-- What is done to a store, and time that passes. `Find` changes nothing. -/
inductive NameOp (α : Type u) where
  | tick (nanoseconds : Nat)
  | create (id tmpName : GoString) (data : α) (parent : Option Image) (pth comment : GoString)
      (fault : Option (CreateFault α))
  | copy (image : Image) (pth : GoString) (err : Option GoString)
  | register (image : Image) (pth : GoString) (errs : RegisterErrs)

namespace ClockedStore

variable {α : Type u}

/-- `time.Now().Unix()`. -/
def unix (s : ClockedStore α) : Int := (s.now / 1000000000 : Nat)

def step (s : ClockedStore α) : NameOp α → Option (ClockedStore α)
  | .tick nanoseconds => some { s with now := s.now + nanoseconds }
  | .create id tmpName data parent pth comment fault =>
    some { s with
      store := (s.store.create id tmpName s.unix data parent pth comment fault).2 }
  | .copy image pth err => some { s with store := (s.store.copy image pth err).2 }
  | .register image pth errs => some { s with store := (s.store.register image pth errs).2 }

end ClockedStore

/-- All runs of a store that was empty in the beginning. -/
def nameSystem (α : Type u) : System (ClockedStore α) (NameOp α) where
  init s := ∃ root now, s = ⟨Store.empty root, now⟩
  step := ClockedStore.step

end Docker
