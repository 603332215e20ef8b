import DockerEngine.Go.Flag
import DockerEngine.Native.Future

/-!
# Handing a program to the container (`container.go`, `sysinit.go`)

`Start` runs lxc-start with a command line that ends in the command line of
`/sbin/init`. That is the docker binary again: it runs inside the container, reads
gateway and user from its flags and executes the program that follows them.

The fields of a container that no function here reads are left out.
-/

namespace Docker

open Go

/-! ## Containers -/

structure Config where
  hostname : GoString
  user : GoString
  ports : List Int
  tty : Bool
  openStdin : Bool
  deriving DecidableEq, Repr

structure Container where
  id : GoString
  root : GoString
  path : GoString
  args : List GoString
  config : Config
  lxcConfigPath : GoString
  deriving DecidableEq, Repr

def createContainer (id root command : GoString) (args : List GoString) (config : Config) :
    Container :=
  { id, root, path := command, args, config, lxcConfigPath := pathJoin [root, str "config.lxc"] }

/-- The id `CreateContainer` gives a container. -/
def containerId (sum : Vector UInt8 32) : GoString := (randomId sum).take 8

/-! ## The command line of lxc-start -/

/-- The arguments `Start` passes to lxc-start. -/
def Container.params (container : Container) (gateway : GoString) : List GoString :=
  [str "-n", container.id, str "-f", container.lxcConfigPath, str "--", str "/sbin/init"]
    -- Networking
    ++ [str "-g", gateway]
    -- User
    ++ (if container.config.user ≠ [] then [str "-u", container.config.user] else [])
    -- Program
    ++ [str "--", container.path] ++ container.args

/-! ## SysInit -/

/-- What `SysInit` does, in order. Each call may end the process. -/
inductive InitCall where
  | setupNetworking (gw : GoString)
  | changeUser (u : GoString)
  | setupEnv
  | executeProgram (name : GoString) (args : List GoString)
  deriving DecidableEq, Repr

/-- The two flags of `SysInit`. -/
def sysInitFlags : FlagSet := fun name =>
  if name = str "u" ∨ name = str "g" then some Flag.string else none

/-- `SysInit` with `os.Args`: the calls it makes, or the code it exits with before any. -/
def sysInit (osArgs : List GoString) : Except Nat (List InitCall) :=
  if osArgs.length ≤ 1 then .error 1
  else
    match sysInitFlags.parse osArgs.tail with
    | .error _ => .error 2
    | .ok flags =>
      .ok [.setupNetworking (flags.value (str "g") []), .changeUser (flags.value (str "u") []),
        .setupEnv, .executeProgram (flags.arg 0) flags.args]

end Docker
