import DockerEngine.Native.Transaction

/-!
# Registering an image (`fs/store.go`)

`Register` inserts the same two rows as `Create`, for an image that is given, but drops the
errors of the insertions. `TxStore.register` goes through the operations of the transaction,
`Store.register` is what is committed in the end.
-/

namespace Docker

open Go

/-- The errors of the operations of `Register`. A commit that fails has written the rows of its
    transaction or none. -/
structure RegisterErrs where
  begin : Option GoString
  insertImage : Option GoString
  insertPath : Option GoString
  commit : Option (GoString × Bool)
  deriving DecidableEq, Repr

def RegisterErrs.none : RegisterErrs := ⟨.none, .none, .none, .none⟩

variable {α : Type u}

/-- `Register`. -/
def TxStore.register (s : TxStore α) (image : Image) (pth : GoString) (errs : RegisterErrs) :
    Option GoString × TxStore α :=
  match s.begin errs.begin with
  | (.error err, s) => (some err, s)
  | (.ok tx, s) =>
    let (_, s) := s.insertImage tx image errs.insertImage
    let (_, s) := s.insertPath tx ⟨pth, image.id⟩ errs.insertPath
    s.commit tx errs.commit

namespace Store

/-- The insertion of the image is rejected: by the database, or because its id is taken. -/
def rejectsImage (store : Store α) (image : Image) (errs : RegisterErrs) : Bool :=
  errs.insertImage.isSome || (store.get image.id).isSome

/-- The insertion of the path is rejected. -/
def rejectsPath (store : Store α) (path : PathRow) (errs : RegisterErrs) : Bool :=
  errs.insertPath.isSome || path ∈ store.paths

/-- The rows that are not rejected. -/
def insertAccepted (store : Store α) (image : Image) (pth : GoString) (errs : RegisterErrs) :
    Store α :=
  { store with
    images := store.images ++ if store.rejectsImage image errs then [] else [image]
    paths := store.paths ++
      if store.rejectsPath ⟨pth, image.id⟩ errs then [] else [⟨pth, image.id⟩] }

/-- `Register`, by what it commits. -/
def register (store : Store α) (image : Image) (pth : GoString) (errs : RegisterErrs) :
    Option GoString × Store α :=
  match errs.begin with
  | some err => (some err, store)
  | none =>
    match errs.commit with
    | some (err, written) =>
      (some err, if written then store.insertAccepted image pth errs else store)
    | none => (none, store.insertAccepted image pth errs)

end Store

end Docker
