import DockerEngine.ForStd.System
import Mathlib.Logic.Function.Basic

/-!
# The connection provider (`data_access/connectionProvider.js`)

A call of the provider asks for a connection to a database. It gets one from a pool that
is keyed by the address, or has the driver make a new one, which enters the pool when it
opens. Calls and the `open` events of the driver come in any order. The `error` event is
only logged, and comes with `Native/ConnectionEvents.lean`.
-/

namespace ConnectionProvider

/-- The values of properties. -/
inductive Value where
  | string (s : String)
  | number (n : Int)
  | object (properties : List (String × Value))

/-- An options object: its properties, the first one of a name counts. -/
abbrev Options := List (String × Value)

/-- `Object.assign({}, target, source)`. -/
def assign (target source : Options) : Options := source ++ target

/-- The properties `user` and `pass`, or undefined. -/
def Options.credentials (options : Options) : Option Value × Option Value :=
  (options.lookup "user", options.lookup "pass")

def defaultOptions : Options := [("server", .object [("poolSize", .number 5)])]

/-- The address of a database. -/
def addressOf (url database : String) : String := "mongodb://" ++ url ++ "/" ++ database

/-- What the driver was asked to connect to. -/
structure Connection where
  address : String
  opts : Options

/-- The promise of a call, with the position of its connection. -/
inductive Promise where
  /-- waiting for the connection to open -/
  | pending (conn : Nat)
  | resolved (conn : Nat)
  | rejected
  deriving DecidableEq, Repr

/-- A call, with its arguments. -/
structure Call where
  url : String
  database : String
  options : Options
  promise : Promise

structure Provider where
  /-- `_internalConnectionPool`. -/
  pool : String → Option Nat
  conns : List Connection
  calls : List Call

/-- A call (`thrown`: `createConnection` throws), or the `open` event of a connection. -/
inductive ProviderOp where
  | call (url database : String) (options : Options) (thrown : Bool)
  | opened (conn : Nat)

/-- Resolve the promise of a call that waits for the connection. -/
def Call.settle (conn : Nat) (call : Call) : Call :=
  if call.promise = .pending conn then { call with promise := .resolved conn } else call

namespace Provider

/-- One more call, with its promise. -/
def answer (s : Provider) (url database : String) (options : Options) (promise : Promise) :
    Provider :=
  { s with calls := s.calls ++ [⟨url, database, options, promise⟩] }

/-- One more connection. -/
def connect (s : Provider) (c : Connection) : Provider := { s with conns := s.conns ++ [c] }

def step (s : Provider) : ProviderOp → Option Provider
  | .call url database options thrown =>
    let opts := assign defaultOptions options
    match s.pool (addressOf url database) with
    | some conn => some (s.answer url database options (.resolved conn))
    | none =>
      if thrown then some (s.answer url database options .rejected)
      else
        some ((s.connect ⟨addressOf url database, opts⟩).answer url database options
          (.pending s.conns.length))
  | .opened conn =>
    match s.conns[conn]? with
    | none => none
    | some c =>
      some { s with
        pool := Function.update s.pool c.address (some conn)
        calls := s.calls.map (Call.settle conn) }

/-- The module has just been loaded. -/
def Loaded (s : Provider) : Prop := s = ⟨fun _ => none, [], []⟩

end Provider

/-- All runs of the provider. -/
def providerSystem : System Provider ProviderOp where
  init := Provider.Loaded
  step := Provider.step

/-! ## The two users of the application -/

/-- `getTimelineItemModel`, with the server settings of the application. -/
def getTimelineItemModel (creds : Options) : ProviderOp :=
  .call "mongo:27017" "hackersHallDemoDb" creds false

/-- The credentials in `initializationTasks.js`. -/
def seedCreds : Options :=
  [("user", .string "modify"), ("pass", .string "dontgiveintothehate")]

/-- The credentials in `timelineRoutes.js`. -/
def routeCreds : Options :=
  [("user", .string "query"), ("pass", .string "you cannot escape your destiny")]

end ConnectionProvider
