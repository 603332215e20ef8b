import DockerEngine.Native.Docker
import DockerEngine.Native.Serve

/-!
# The user data of a container (`container.go`, `server/server.go`)

`SetUserData` loads `userdata.json`, sets a key, and writes the file anew: `ioutil.WriteFile`
truncates it, writes, and closes it. `CreateContainer` keeps the image and the comment of a
container there. The daemon knows the container all that time, so other requests can list
it, start it and remove it in between.

Package `encoding/json` is a parameter, on maps of strings. A read of the file sees it as it
is at one moment. `os.RemoveAll` unlinks the file, and what is written to it then is lost; as
its directory need not be gone at once, a file may still be made in it. Directories are told apart
by the containers they were made for.
-/

namespace Docker

open Go

/-- A `map[string]string`, sorted by its keys. -/
abbrev UserData := List (GoString × GoString)

namespace UserData

/-- `data[key]`. -/
def get (data : UserData) (key : GoString) : Option GoString := data.lookup key

/-- `data[key] = value`. -/
def set : UserData → GoString → GoString → UserData
  | [], key, value => [(key, value)]
  | (key', value') :: rest, key, value =>
    if key = key' then (key, value) :: rest
    else if key < key' then (key, value) :: (key', value') :: rest
    else (key', value') :: set rest key value

/-- All keys are valid UTF-8. -/
def KeysUtf8 (data : UserData) : Prop := ∀ entry ∈ data, ValidUtf8 entry.1

end UserData

/-- `json.Marshal` and `json.Unmarshal` of a map of strings. -/
structure MapJson where
  marshal : UserData → Except GoString GoString
  unmarshal : GoString → Except GoString UserData
  /-- What a string is after both: bytes that are no UTF-8 are replaced. -/
  readBack : GoString → GoString
  readBack_utf8 : ∀ s, ValidUtf8 s → readBack s = s
  readBack_readBack : ∀ s, readBack (readBack s) = readBack s
  unmarshal_marshal : ∀ data text, data.KeysUtf8 → marshal data = .ok text →
    ∃ data', unmarshal text = .ok data' ∧ data'.KeysUtf8 ∧
      ∀ key, ValidUtf8 key → data'.get key = (data.get key).map readBack
  /-- "unexpected end of JSON input" -/
  unmarshal_take : ∀ data text, marshal data = .ok text →
    ∀ n < text.length, ∃ err, unmarshal (text.take n) = .error err

section

variable (json : MapJson)

/-- `loadUserData`. The file is `none` when there is none; `readErr` is any other error of
    `ioutil.ReadFile`. -/
def loadUserData (file : Option GoString) (readErr : Option GoString) : Except GoString UserData :=
  match readErr with
  | some err => .error err
  | none =>
    match file with
    | none => .ok []
    | some jsonData => json.unmarshal jsonData

/-- `GetUserData`. -/
def getUserData (file : Option GoString) (readErr : Option GoString) (key : GoString) : GoString :=
  match loadUserData json file readErr with
  | .error _ => []
  | .ok data => (data.get key).getD []

/-- `SetUserData` up to the call of `ioutil.WriteFile`, and the text for it. -/
def setUserData (file : Option GoString) (readErr : Option GoString) (key value : GoString) :
    Except GoString GoString := do
  let data ← loadUserData json file readErr
  json.marshal (data.set key value)

end

/-- The keys `CreateContainer` sets, in this order. -/
inductive DataKey where
  | image
  | comment
  deriving DecidableEq, Repr

def DataKey.name : DataKey → GoString
  | .image => str "image"
  | .comment => str "comment"

/-- Where a `CreateContainer` is. -/
inductive CreateStage where
  | set (key : DataKey)
  /-- The text for the file is made. -/
  | openFile (key : DataKey) (text : GoString)
  /-- In `WriteFile`, with so many bytes of the text written. -/
  | write (key : DataKey) (text : GoString) (written : Nat)
  | destroy (err : GoString)
  /-- In `Destroy`, which has found the container. -/
  | destroying (err : GoString) (call : DestroyCall)
  | returned
  /-- It has returned its error; `stopped` is false if the `Stop` of its `Destroy` failed. -/
  | failed (err : GoString) (stopped : Bool)
  deriving DecidableEq, Repr

/-- What comes after a `SetUserData` that returned nil. -/
def DataKey.next : DataKey → CreateStage
  | .image => .set .comment
  | .comment => .returned

/-- A `CreateContainer` whose `Docker.Create` is at work on the container or has returned it, and
    the `userdata.json` of the container. -/
structure Creation where
  image : GoString
  comment : GoString
  file : Option GoString
  /-- A `Destroy` of the container has called `os.RemoveAll`. -/
  removed : Bool
  stage : CreateStage
  deriving DecidableEq, Repr

namespace Creation

def value (c : Creation) : DataKey → GoString
  | .image => c.image
  | .comment => c.comment

/-- `SetUserData` has returned an error. -/
def fail (c : Creation) (err : GoString) : Creation :=
  { c with stage := .destroy (str "Error setting container userdata: " ++ err) }

end Creation

/-- A daemon, and the `CreateContainer` that each of its containers comes from. -/
structure Creations (α : Type) where
  daemon : Daemon α
  creations : List Creation

inductive CreationOp where
  | create (id : GoString) (image : Image) (comment : GoString)
  /-- Another request works on the containers. -/
  | daemon (op : DaemonOp)
  /-- `SetUserData` up to the call of `WriteFile`. -/
  | load (k : Nat) (readErr : Option GoString)
  /-- `WriteFile` opens the file, and truncates it. -/
  | openFile (k : Nat) (err : Option GoString)
  | write (k : Nat) (n : Nat)
  /-- `WriteFile` returns. -/
  | close (k : Nat) (err : Option GoString)
  /-- The next step of the `Destroy` that `CreateContainer` calls. -/
  | destroy (k : Nat) (ok : Bool)
  deriving DecidableEq, Repr

namespace Creations

variable {α : Type} (json : MapJson)

def setCreation (s : Creations α) (k : Nat) (c : Creation) : Creations α :=
  { s with creations := s.creations.set k c }

def setStage (s : Creations α) (k : Nat) (stage : CreateStage) : Creations α :=
  { s with creations := s.creations.modify k fun c => { c with stage } }

/-- The files after a step of a `Destroy` of container `k`. -/
def afterDestroy (s : Creations α) (k : Nat) (call : DestroyCall) : List Creation :=
  match call.pc with
  | .removeAll => s.creations.modify k fun c => { c with file := none, removed := true }
  | _ => s.creations

/-- The files after a step of the daemon. -/
def afterStep (s : Creations α) : DaemonOp → List Creation
  | .destroy k i _ =>
    match (s.daemon.object k).bind fun obj => obj.destroys[i]? with
    | some call => s.afterDestroy k call
    | none => s.creations
  | _ => s.creations

/-- The next step of the `Destroy` of its own container. -/
def destroy (s : Creations α) (k : Nat) (obj : ContainerObj) (c : Creation) (ok : Bool) :
    Option (Creations α) :=
  match c.stage with
  | .destroy err =>
    match s.daemon.getContainerElement obj.id with
    | none => some (s.setStage k (.failed err true))
    | some element => some (s.setStage k (.destroying err ⟨element, .stop⟩))
  | .destroying err call =>
    (s.daemon.destroyStep obj call ok).map fun r =>
      Creations.setStage ⟨r.1, s.afterDestroy k call⟩ k <|
        match r.2 with
        | some pc => .destroying err { call with pc }
        | none => .failed err (decide (call.pc ≠ .stop))
  | _ => none

def step (s : Creations α) : CreationOp → Option (Creations α)
  | .create id image comment =>
    (s.daemon.step (.create id image)).map fun daemon =>
      ⟨daemon, if s.daemon.containerExists id then s.creations
        else s.creations ++ [⟨image.id, comment, none, false, .set .image⟩]⟩
  | .daemon (.create ..) => none
  | .daemon op => (s.daemon.step op).map fun daemon => ⟨daemon, s.afterStep op⟩
  | .load k readErr =>
    (s.daemon.object k).bind fun _ => s.creations[k]?.bind fun c =>
      match c.stage with
      | .set key =>
        match setUserData json c.file readErr key.name (c.value key) with
        | .error err => some (s.setCreation k (c.fail err))
        | .ok text => some (s.setCreation k { c with stage := .openFile key text })
      | _ => none
  | .openFile k err =>
    s.creations[k]?.bind fun c =>
      match c.stage with
      | .openFile key text =>
        match err with
        | some err => some (s.setCreation k (c.fail err))
        | none => some (s.setCreation k { c with file := some [], stage := .write key text 0 })
      | _ => none
  | .write k n =>
    s.creations[k]?.bind fun c =>
      match c.stage with
      | .write key text written =>
        if written + n ≤ text.length then
          some (s.setCreation k
            { c with
              file := c.file.map fun _ => text.take (written + n)
              stage := .write key text (written + n) })
        else none
      | _ => none
  | .close k err =>
    s.creations[k]?.bind fun c =>
      match c.stage with
      | .write key text written =>
        match err with
        | some err => some (s.setCreation k (c.fail err))
        | none =>
          -- a short write is an error
          if written = text.length then some (s.setCreation k { c with stage := key.next })
          else none
      | _ => none
  | .destroy k ok =>
    (s.daemon.object k).bind fun obj => s.creations[k]?.bind fun c => s.destroy k obj c ok

/-- A daemon without containers. -/
def Fresh (s : Creations α) : Prop := s.daemon.Fresh ∧ s.creations = []

end Creations

/-- All runs of the `CreateContainer`s of a daemon. -/
def creationSystem (α : Type) (json : MapJson) : System (Creations α) CreationOp where
  init := Creations.Fresh
  step := Creations.step json

end Docker
