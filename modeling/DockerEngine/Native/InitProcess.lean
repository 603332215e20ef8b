import DockerEngine.Go.Path
import DockerEngine.Go.Strconv
import DockerEngine.Native.SysInit

/-!
# The first process of a container (`sysinit.go`)

`SysInit` begins as root. It adds a route, gives up its ids, replaces the environment and becomes
the program. Each of its calls may end the process instead: `log.Fatalf` with code 1, a panic with
code 2, and a program that is not found with code 127.

The package `os/user` and what the kernel answers are parameters. `setuid` and `setgid` are for the
whole process here. Log lines are left out.
-/

namespace Docker

open Go

/-! ## The ids of a process -/

/-- The real, the effective and the saved id. -/
structure Ids where
  real : Nat
  effective : Nat
  saved : Nat
  deriving DecidableEq, Repr

structure Credentials where
  uid : Ids
  gid : Ids
  /-- The supplementary groups. -/
  groups : List Nat
  /-- The capabilities that the file of the program has given. -/
  capSetuid : Bool
  capSetgid : Bool
  deriving DecidableEq, Repr

/-- What a process gets from the file of a program: the id of its owner, if it is a set-user-ID or
    a set-group-ID file, and capabilities. On a mount without such files it gets nothing. -/
structure FileIds where
  uid : Option Nat
  gid : Option Nat
  capSetuid : Bool
  capSetgid : Bool
  deriving DecidableEq, Repr

/-- A program like most. -/
def FileIds.ordinary : FileIds := ⟨none, none, false, false⟩

/-- All three ids are the same. -/
def Ids.all (id : Nat) : Ids := ⟨id, id, id⟩

/-- The ids that `setuid` or `setgid` leaves: with privilege it sets all three, without it the
    effective one, to the real or the saved one. -/
def Ids.set (ids : Ids) (privileged : Bool) (id : Nat) : Option Ids :=
  if privileged then some (.all id)
  else if id = ids.real ∨ id = ids.saved then some { ids with effective := id }
  else none

/-- The ids after `execve`. -/
def Ids.exec (ids : Ids) (owner : Option Nat) : Ids :=
  ⟨ids.real, owner.getD ids.effective, owner.getD ids.effective⟩

/-- The kernel's id for a number: it is cut to 32 bits, and all ones is no id. -/
def kernelId (n : Int) : Option Nat :=
  let id := (n % 2 ^ 32).toNat
  if id = 2 ^ 32 - 1 then none else some id

namespace Credentials

/-- The credentials of a process that runs as one user. -/
def user (uid gid : Nat) (groups : List Nat) : Credentials :=
  ⟨.all uid, .all gid, groups, false, false⟩

def maySetuid (c : Credentials) : Bool := c.uid.effective = 0 || c.capSetuid

def maySetgid (c : Credentials) : Bool := c.uid.effective = 0 || c.capSetgid

def setuid (c : Credentials) (n : Int) : Option Credentials :=
  (kernelId n).bind fun id => (c.uid.set c.maySetuid id).map fun uid => { c with uid }

def setgid (c : Credentials) (n : Int) : Option Credentials :=
  (kernelId n).bind fun id => (c.gid.set c.maySetgid id).map fun gid => { c with gid }

def setgroups (c : Credentials) (groups : List Nat) : Option Credentials :=
  if c.maySetgid then some { c with groups } else none

def exec (c : Credentials) (file : FileIds) : Credentials where
  uid := c.uid.exec file.uid
  gid := c.gid.exec file.gid
  groups := c.groups
  capSetuid := file.capSetuid
  capSetgid := file.capSetgid

end Credentials

/-! ## The process -/

/-- An entry of the user database. -/
structure UserEnt where
  uid : GoString
  gid : GoString
  deriving DecidableEq, Repr

/-- What the process finds in the container; a call that fails otherwise has an error. -/
structure Surroundings where
  routeErr : Option GoString
  lookupId : GoString → Option UserEnt
  lookup : GoString → Option UserEnt
  setgidErr : Option GoString
  setuidErr : Option GoString
  /-- `findExecutable` -/
  executable : GoString → Bool
  fileIds : GoString → FileIds
  execErr : Option GoString

structure InitProcess where
  credentials : Credentials
  env : List (GoString × GoString)
  /-- The default route that was added. -/
  gateway : Option GoString
  deriving DecidableEq, Repr

/-- How `SysInit` ends: with a code, or as another program. -/
inductive InitEnd where
  | exited (code : Nat)
  | executed (path : GoString) (argv : List GoString) (process : InitProcess)
  deriving DecidableEq, Repr

namespace InitProcess

def setupNetworking (p : InitProcess) (w : Surroundings) (gw : GoString) :
    Except Nat InitProcess :=
  if gw = [] then .ok p
  else
    match w.routeErr with
    | some _ => .error 1
    | none => .ok { p with gateway := some gw }

/-- The entry of a user, who is given by an id or by a name. -/
def userEnt (w : Surroundings) (u : GoString) : Option UserEnt :=
  match w.lookupId u with
  | some ent => some ent
  | none => w.lookup u

def changeUser (p : InitProcess) (w : Surroundings) (u : GoString) : Except Nat InitProcess :=
  if u = [] then .ok p
  else
    match userEnt w u with
    | none => .error 1
    | some ent =>
      match atoi ent.uid, atoi ent.gid with
      | some uid, some gid =>
        match w.setgidErr, p.credentials.setgid gid with
        | none, some c =>
          match w.setuidErr, c.setuid uid with
          | none, some c => .ok { p with credentials := c }
          | _, _ => .error 1
        | _, _ => .error 1
      | _, _ => .error 1

/-- The value of `PATH` that `setupEnv` sets. -/
def searchPath : List GoString :=
  ["/usr/local/sbin", "/usr/local/bin", "/usr/sbin", "/usr/bin", "/sbin", "/bin"].map str

def setupEnv (p : InitProcess) : InitProcess :=
  { p with env := [(str "HOME", str "/"), (str "PATH", join (str ":") searchPath)] }

/-- `exec.LookPath`, in the environment of `setupEnv`. -/
def lookPath (w : Surroundings) (file : GoString) : Option GoString :=
  if slash ∈ file then if w.executable file then some file else none
  else (searchPath.map fun dir => dir ++ [slash] ++ file).find? w.executable

def executeProgram (p : InitProcess) (w : Surroundings) (name : GoString)
    (args : List GoString) : InitEnd :=
  match lookPath w name with
  | none => .exited 127
  | some path =>
    match w.execErr with
    | some _ => .exited 2
    | none => .executed path args { p with credentials := p.credentials.exec (w.fileIds path) }

/-- The calls of `SysInit`, one after the other. -/
def perform (p : InitProcess) (w : Surroundings) : List InitCall → InitEnd
  | [] => .exited 0
  | .setupNetworking gw :: calls =>
    match p.setupNetworking w gw with
    | .error code => .exited code
    | .ok p => p.perform w calls
  | .changeUser u :: calls =>
    match p.changeUser w u with
    | .error code => .exited code
    | .ok p => p.perform w calls
  | .setupEnv :: calls => p.setupEnv.perform w calls
  | .executeProgram name args :: _ => p.executeProgram w name args

/-- `SysInit` with `os.Args`, by root with these supplementary groups. -/
def sysInit (w : Surroundings) (env : List (GoString × GoString)) (groups : List Nat)
    (osArgs : List GoString) : InitEnd :=
  match Docker.sysInit osArgs with
  | .error code => .exited code
  | .ok calls => perform ⟨.user 0 0 groups, env, none⟩ w calls

end InitProcess

/-! ## What the program may call -/

/-- A call with which a program may try to change its ids and groups. -/
inductive IdCall where
  | setuid (n : Int)
  | setgid (n : Int)
  | setgroups (groups : List Nat)
  deriving DecidableEq, Repr

/-- A call that is refused changes nothing. -/
def IdCall.apply (c : Credentials) : IdCall → Credentials
  | .setuid n => (c.setuid n).getD c
  | .setgid n => (c.setgid n).getD c
  | .setgroups groups => (c.setgroups groups).getD c

end Docker
