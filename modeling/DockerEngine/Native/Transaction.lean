import DockerEngine.Native.Store

/-!
# The transaction of `Create` (`fs/store.go`)

`Store.create` in `Native/Store.lean` keeps what has been committed. Here a store also has the
transactions that were begun and have not ended, with the rows they have inserted. `Commit`
ends its transaction whatever it returns. `Create` never calls `Rollback`.
-/

namespace Docker

open Go

/-- The rows that a transaction has inserted. -/
structure Transaction where
  images : List Image
  paths : List PathRow
  deriving DecidableEq, Repr

/-- A store, and the transactions that have not ended. -/
structure TxStore (α : Type u) where
  store : Store α
  pending : List Transaction

namespace CreateFault

variable {α : Type u}

/-- The type and the text of the error of `Begin`. -/
def beginErr : CreateFault α → Option (GoString × GoString)
  | begin type err => some (type, err)
  | _ => none

def insertImageErr : CreateFault α → Option GoString
  | insertImage err => some err
  | _ => none

def insertPathErr : CreateFault α → Option GoString
  | insertPath err => some err
  | _ => none

/-- The error of the commit, and whether the rows were written all the same. -/
def commitErr : CreateFault α → Option (GoString × Bool)
  | commit err written => some (err, written)
  | _ => none

end CreateFault

/-- `sql.ErrTxDone`. -/
def txDone : GoString := str "sql: Transaction has already been committed or rolled back"

namespace TxStore

variable {α : Type u}

def setLayers (s : TxStore α) (layers : LayerStore α) : TxStore α :=
  { s with store := { s.store with layers } }

/-- `orm.Begin`: the new transaction is known by its position. -/
def begin {ε : Type} (s : TxStore α) (err : Option ε) : Except ε Nat × TxStore α :=
  match err with
  | some err => (.error err, s)
  | none => (.ok s.pending.length, { s with pending := s.pending ++ [⟨[], []⟩] })

/-- `trans.Insert` of an image. -/
def insertImage (s : TxStore α) (trans : Nat) (img : Image) (err : Option GoString) :
    Option GoString × TxStore α :=
  match err, s.pending[trans]? with
  | some err, _ => (some err, s)
  | none, none => (some txDone, s)
  | none, some tx =>
    if (s.store.get img.id).isSome ∨ img.id ∈ tx.images.map Image.id then (some notUnique, s)
    else (none, { s with pending := s.pending.set trans { tx with images := tx.images ++ [img] } })

/-- `trans.Insert` of a path. -/
def insertPath (s : TxStore α) (trans : Nat) (path : PathRow) (err : Option GoString) :
    Option GoString × TxStore α :=
  match err, s.pending[trans]? with
  | some err, _ => (some err, s)
  | none, none => (some txDone, s)
  | none, some tx =>
    if path ∈ s.store.paths ++ tx.paths then (some notUnique, s)
    else (none, { s with pending := s.pending.set trans { tx with paths := tx.paths ++ [path] } })

/-- The rows of a transaction are written. -/
def write (s : TxStore α) (tx : Transaction) : TxStore α :=
  { s with
    store := { s.store with
      images := s.store.images ++ tx.images, paths := s.store.paths ++ tx.paths } }

/-- `trans.Commit`. -/
def commit (s : TxStore α) (trans : Nat) (err : Option (GoString × Bool)) :
    Option GoString × TxStore α :=
  match s.pending[trans]? with
  | none => (some txDone, s)
  | some tx =>
    let s := { s with pending := s.pending.eraseIdx trans }
    match err with
    | some (err, written) => (some err, if written then s.write tx else s)
    | none => (none, s.write tx)

/-- `Create` from `Begin` on: the two rows are inserted. -/
def record (s : TxStore α) (img : Image) (path : PathRow) (fault : Option (CreateFault α)) :
    Except GoString Image × TxStore α :=
  match s.begin (fault.bind CreateFault.beginErr) with
  | (.error (type, err), s) => (.error (beginError type err), s)
  | (.ok tx, s) =>
    match s.insertImage tx img (fault.bind CreateFault.insertImageErr) with
    -- from here on an error leaves the transaction open
    | (some err, s) => (.error (str "Could not insert image info: " ++ err), s)
    | (none, s) =>
      match s.insertPath tx path (fault.bind CreateFault.insertPathErr) with
      | (some err, s) => (.error (str "Could not insert path info: " ++ err), s)
      | (none, s) =>
        match s.commit tx (fault.bind CreateFault.commitErr) with
        | (some err, s) => (.error (str "Could not commit transaction: " ++ err), s)
        | (none, s) => (.ok img, s)

/-- `Create`, with the arguments of `Store.create`. -/
def create (s : TxStore α) (id tmpName : GoString) (created : Int) (data : α)
    (parent : Option Image) (pth comment : GoString) (fault : Option (CreateFault α)) :
    Except GoString Image × TxStore α :=
  let img : Image := ⟨id, (parent.map Image.id).getD [], comment, created⟩
  match s.store.layers.addLayer img.id tmpName data (fault.bind CreateFault.layerFault) with
  | (.error err, layers) => (.error (str "Could not add layer: " ++ err), s.setLayers layers)
  | (.ok _, layers) => (s.setLayers layers).record img ⟨clean pth, img.id⟩ fault

end TxStore

end Docker
