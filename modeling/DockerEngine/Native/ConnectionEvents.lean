import DockerEngine.Native.ConnectionProvider

/-!
# The events of the driver (`data_access/connectionProvider.js`)

The provider has two handlers on a connection that it makes. The one for `open` puts the
connection into the pool and resolves the promise of the call; the one for `error` writes a line
to the console. A state records what the driver has reported; it may report on a connection in
any order, and more than once.
-/

namespace ConnectionProvider

/-- The address of a call. -/
def Call.address (call : Call) : String := addressOf call.url call.database

/-- The address of the connection at a position, if it has been made. -/
def Provider.addressAt (s : Provider) (conn : Nat) : Option String :=
  s.conns[conn]?.map Connection.address

/-- The provider, the connections that have been reported open or failed, and the console. -/
structure Driver where
  provider : Provider
  opened : List Nat
  failed : List Nat
  console : List String

/-- A step of the provider, or the `error` event of a connection. -/
inductive DriverOp where
  | provider (op : ProviderOp)
  | error (conn : Nat) (err : String)

/-- The connection that an `open` event is about. -/
def ProviderOp.opens : ProviderOp → List Nat
  | call .. => []
  | opened conn => [conn]

namespace Driver

def step (s : Driver) : DriverOp → Option Driver
  | .provider op =>
    (s.provider.step op).map fun provider =>
      { s with provider, opened := s.opened ++ op.opens }
  | .error conn err =>
    if conn < s.provider.conns.length then
      some { s with
        failed := s.failed ++ [conn]
        console := s.console ++ ["MongoDB error: " ++ err] }
    else none

/-- The module has just been loaded. -/
def Loaded (s : Driver) : Prop := s = ⟨⟨fun _ => none, [], []⟩, [], [], []⟩

/-- The driver has reported on the connection. -/
def Reported (s : Driver) (conn : Nat) : Prop := conn ∈ s.opened ∨ conn ∈ s.failed

end Driver

/-- All runs of the provider with its driver. -/
def driverSystem : System Driver DriverOp where
  init := Driver.Loaded
  step := Driver.step

end ConnectionProvider
