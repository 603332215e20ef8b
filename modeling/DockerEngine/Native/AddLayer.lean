import DockerEngine.Native.Layers
import DockerEngine.Native.Future
import DockerEngine.ForStd.System

/-!
# Concurrent calls of `AddLayer` (`fs/layers.go`, `fs/archive.go`)

A call passes its archive, piece by piece, to a process that unpacks it into a temporary
directory, and renames that directory when the process has succeeded. The process starts
when it is scheduled, changes to the directory, and works in it from then on, wherever the
directory is and whether or not anybody still waits for it: a call that cannot read its
archive returns at once, and when the daemon crashes its processes go on.

A directory carries the number of the process it was made for, by which it is known to the
processes in it. `os.RemoveAll` takes several steps and may leave something behind.
-/

namespace Docker.AddLayer

variable {γ ε : Type}

/-- What a directory holds when it is made, whether it is empty, and what an entry of an
    archive does to it. -/
structure Bsdtar (γ ε : Type) where
  empty : γ
  isEmpty : γ → Bool
  extract : γ → ε → γ

/-- The complete result of unpacking an archive. -/
def Bsdtar.unpack (bsdtar : Bsdtar γ ε) (archive : List ε) : γ :=
  archive.foldl bsdtar.extract bsdtar.empty

structure Dir (γ : Type) where
  serial : Nat
  data : γ
  deriving DecidableEq, Repr

end Docker.AddLayer

/-! ## Directories -/

namespace Docker.LayerStore

open AddLayer

variable {γ : Type} (store : LayerStore (Dir γ))

/-- `rename(2)`: an empty directory at the new path is replaced. -/
def rename (isEmpty : γ → Bool) (old new : GoString) : Except GoString (LayerStore (Dir γ)) :=
  match store.stat old with
  | none => .error (Go.str "no such file or directory")
  | some d =>
    if (store.stat new).any fun e => !isEmpty e.data then .error (Go.str "directory not empty")
    else
      .ok { store with
        dirs := (store.dirs.filter fun e => e.1 ≠ old ∧ e.1 ≠ new) ++ [(new, d)] }

/-- The directory at a path is removed. -/
def remove (path : GoString) : LayerStore (Dir γ) :=
  { store with dirs := store.dirs.filter fun e => e.1 ≠ path }

/-- Some of what the directory at a path holds is removed. -/
def unlink (path : GoString) (left : γ) : LayerStore (Dir γ) :=
  { store with
    dirs := store.dirs.map fun e =>
      (e.1, if e.1 = path then { e.2 with data := left } else e.2) }

/-- The directory with a number is written to. -/
def update (serial : Nat) (f : γ → γ) : LayerStore (Dir γ) :=
  { store with
    dirs := store.dirs.map fun e =>
      (e.1, if e.2.serial = serial then { e.2 with data := f e.2.data } else e.2) }

end Docker.LayerStore

namespace Docker.AddLayer

open Go

variable {γ ε : Type}

/-! ## Processes -/

inductive ProcPc where
  /-- It has not yet changed to the directory. -/
  | start (path : GoString)
  /-- It is in the directory with this number. -/
  | inside (serial : Nat)
  | exited (err : Option GoString)
  deriving DecidableEq, Repr

/-- A process: its archive, how much of it has been passed to it, whether more will come, and
    how much it has unpacked. -/
structure Proc (ε : Type) where
  archive : List ε
  fed : Nat
  closed : Bool
  next : Nat
  pc : ProcPc

/-! ## Calls -/

/-- The next step of a call, with its temporary directory and the number of its process. -/
inductive AddPc where
  /-- `os.Stat` of the layer -/
  | stat
  | mktemp
  /-- `io.Copy(untarW, archive)` -/
  | copy (tmp : GoString) (k : Nat)
  /-- `<-errors` -/
  | wait (tmp : GoString) (k : Nat)
  /-- `store.Exists(id)` -/
  | has (tmp : GoString) (k : Nat)
  | rename (tmp : GoString) (k : Nat)
  /-- the deferred `os.RemoveAll(tmp)` -/
  | removeAll (tmp : GoString) (k : Nat) (res : Except GoString GoString)
  | done (res : Except GoString GoString)

structure AddCall (ε : Type) where
  id : GoString
  archive : List ε
  pc : AddPc

/-- The layer store, the calls at work on it, and all processes that were started. -/
structure Adding (γ ε : Type) where
  store : LayerStore (Dir γ)
  calls : List (AddCall ε)
  procs : List (Proc ε)
  /-- The archives that calls were given, with the ids. -/
  given : List (GoString × List ε)

/-- A step of a call. `copied` is the end of `io.Copy`, with the error if the archive cannot be
    read to its end. -/
inductive AddAct (γ : Type) where
  | stat
  | mktemp (sum : Vector UInt8 32) (err : Option GoString)
  | feed
  | copied (err : Option GoString)
  | wait
  | has
  | rename (err : Option GoString)
  | unlink (left : γ)
  | removeAll (all : Bool)

/-- The id of a layer: the name of an entry of the root, and no name of `Mktemp`. -/
structure LayerId (id : GoString) : Prop where
  plain : PlainName id
  no_tmp : ¬ str "tmp-" <+: id

instance (id : GoString) : Decidable (LayerId id) :=
  decidable_of_iff (PlainName id ∧ ¬ str "tmp-" <+: id) ⟨fun h => ⟨h.1, h.2⟩, fun h => ⟨h.1, h.2⟩⟩

/-- A new call, a step of a call or of a process, or a crash of the daemon, after which the
    store is opened again. -/
inductive AddOp (γ ε : Type) where
  | add (id : GoString) (archive : List ε)
  | call (i : Nat) (a : AddAct γ)
  | enter (k : Nat)
  | extract (k : Nat)
  | exit (k : Nat) (err : Option GoString)
  | crash

namespace Adding

/-- The goroutine of `AddLayer`, up to the start of the process. -/
def spawn (bsdtar : Bsdtar γ ε) (s : Adding γ ε) (tmp : GoString) (archive : List ε) :
    Adding γ ε :=
  { s with
    store := s.store.mkdir tmp ⟨s.procs.length, bsdtar.empty⟩
    procs := s.procs ++ [⟨archive, 0, false, 0, .start tmp⟩] }

def setProc (s : Adding γ ε) (k : Nat) (p : Proc ε) : Adding γ ε :=
  { s with procs := s.procs.set k p }

/-- A step of `AddLayer`. -/
def act (bsdtar : Bsdtar γ ε) (s : Adding γ ε) (call : AddCall ε) (a : AddAct γ) :
    Option (Adding γ ε × AddPc) :=
  let layer := s.store.layerPath call.id
  match call.pc, a with
  | .stat, .stat =>
    if s.store.has call.id then
      some (s, .done (.error (str "Layer already exists: " ++ call.id)))
    else some (s, .mktemp)
  | .mktemp, .mktemp sum err =>
    let tmp := s.store.tmpPath (randomId sum)
    match err with
    | some err => some (s, .done (.error (str "Mktemp failed: " ++ err)))
    | none =>
      if (s.store.stat tmp).isSome then
        some (s, .done (.error (str "Mktemp failed: mkdir " ++ tmp ++ str ": file exists")))
      else some (s.spawn bsdtar tmp call.archive, .copy tmp s.procs.length)
  | .copy tmp k, .feed =>
    s.procs[k]?.bind fun p =>
      if p.fed < p.archive.length then some (s.setProc k { p with fed := p.fed + 1 }, .copy tmp k)
      else none
  | .copy tmp k, .copied err =>
    s.procs[k]?.bind fun p =>
      -- untarW.Close()
      let s := s.setProc k { p with closed := true }
      match err with
      | some err => some (s, .removeAll tmp k (.error err))
      | none => if p.fed = p.archive.length then some (s, .wait tmp k) else none
  | .wait tmp k, .wait =>
    s.procs[k]?.bind fun p =>
      match p.pc with
      | .exited (some err) => some (s, .removeAll tmp k (.error err))
      | .exited none => some (s, .has tmp k)
      | _ => none
  | .has tmp k, .has =>
    if s.store.has call.id then some (s, .removeAll tmp k (.ok layer)) else some (s, .rename tmp k)
  | .rename tmp k, .rename err =>
    let text := str "Could not rename temp dir to layer " ++ layer ++ str ": "
    match err with
    | some err => some (s, .removeAll tmp k (.error (text ++ err)))
    | none =>
      match s.store.rename bsdtar.isEmpty tmp layer with
      | .error err => some (s, .removeAll tmp k (.error (text ++ err)))
      | .ok store => some ({ s with store }, .removeAll tmp k (.ok layer))
  | .removeAll tmp k res, .unlink left =>
    some ({ s with store := s.store.unlink tmp left }, .removeAll tmp k res)
  | .removeAll tmp _ res, .removeAll all =>
    some (if all then { s with store := s.store.remove tmp } else s, .done res)
  | _, _ => none

/-- The process changes to its directory. -/
def enter (s : Adding γ ε) (k : Nat) (p : Proc ε) : Option (Adding γ ε) :=
  match p.pc with
  | .start path =>
    match s.store.stat path with
    | none => some (s.setProc k { p with pc := .exited (some (str "could not chdir to " ++ path)) })
    | some d => some (s.setProc k { p with pc := .inside d.serial })
  | _ => none

/-- The process unpacks one more entry. -/
def extract (bsdtar : Bsdtar γ ε) (s : Adding γ ε) (k : Nat) (p : Proc ε) : Option (Adding γ ε) :=
  match p.pc with
  | .inside serial =>
    if p.next < p.fed then
      (p.archive[p.next]?).bind fun entry =>
        -- nothing can be made in a directory that was removed
        if s.store.dirs.any fun e => e.2.serial = serial then
          let store := s.store.update serial fun data => bsdtar.extract data entry
          some ({ s with store }.setProc k { p with next := p.next + 1 })
        else some (s.setProc k { p with pc := .exited (some (str "no such file or directory")) })
    else none
  | _ => none

/-- The process fails, or has come to the end of what it gets. -/
def exit (s : Adding γ ε) (k : Nat) (p : Proc ε) (err : Option GoString) : Option (Adding γ ε) :=
  match p.pc, err with
  | .exited _, _ => none
  | _, some err => some (s.setProc k { p with pc := .exited (some err) })
  | .inside _, none =>
    if p.next = p.fed ∧ (p.closed ∨ p.fed = p.archive.length) then
      some (s.setProc k { p with pc := .exited none })
    else none
  | .start _, none => none

def step (bsdtar : Bsdtar γ ε) (s : Adding γ ε) : AddOp γ ε → Option (Adding γ ε)
  | .add id archive =>
    if LayerId id then
      some { s with
        calls := s.calls ++ [⟨id, archive, .stat⟩]
        given := s.given ++ [(id, archive)] }
    else none
  | .call i a =>
    s.calls[i]?.bind fun call =>
      (s.act bsdtar call a).map fun r =>
        { r.1 with calls := s.calls.set i { call with pc := r.2 } }
  | .enter k => s.procs[k]?.bind fun p => s.enter k p
  | .extract k => s.procs[k]?.bind fun p => s.extract bsdtar k p
  | .exit k err => s.procs[k]?.bind fun p => s.exit k p err
  -- the pipes of the processes are closed with the daemon
  | .crash => some { s with calls := [], procs := s.procs.map fun p => { p with closed := true } }

/-- An empty store that nobody has used. -/
def Fresh (s : Adding γ ε) : Prop :=
  s.store.dirs = [] ∧ s.calls = [] ∧ s.procs = [] ∧ s.given = []

end Adding

/-- All interleavings of calls, processes and crashes. -/
def addSystem (bsdtar : Bsdtar γ ε) : System (Adding γ ε) (AddOp γ ε) where
  init := Adding.Fresh
  step := Adding.step bsdtar

end Docker.AddLayer
