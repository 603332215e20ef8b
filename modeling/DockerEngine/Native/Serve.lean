import DockerEngine.Go.Bufio
import DockerEngine.Native.Rcli

/-!
# The wire of the remote command line (`rcli/tcp.go`)

The client sends its words as one line of JSON and copies its standard input behind it.
`Serve` reads the line through a buffered reader, and the same reader becomes the standard
input of the command.

Package `encoding/json` is a parameter, on lists of strings. A connection that cannot be
made and a write that fails are left out.
-/

namespace Docker

open Go

def newline : UInt8 := 10

/-- `s` is valid UTF-8. -/
def ValidUtf8 (s : GoString) : Prop := ∃ text : String, str text = s

/-- `json.Marshal` and `json.Unmarshal` of a list of strings; `none` is the nil list. -/
structure Json where
  marshal : Option (List GoString) → GoString
  unmarshal : GoString → Except GoString (Option (List GoString))
  unmarshal_marshal : ∀ args : Option (List GoString),
    (∀ s ∈ args.getD [], ValidUtf8 s) → unmarshal (marshal args) = .ok args
  /-- White space may follow a value. -/
  unmarshal_newline : ∀ {s args}, unmarshal s = .ok args → unmarshal (s ++ [newline]) = .ok args
  newline_notMem : ∀ args, newline ∉ marshal args

namespace Client

/-- What `Call` writes to the connection. -/
def call (json : Json) (args : Option (List GoString)) : GoString :=
  -- fmt.Fprintln
  json.marshal args ++ [newline]

/-- What `SimpleMode` writes to the connection before it closes its side. -/
def simpleMode (json : Json) (args : Option (List GoString)) (stdin : GoString) : GoString :=
  call json args ++ stdin

end Client

inductive ServeError where
  | read (err : ReadErr)
  | unmarshal (text : GoString)

/-- What a connection asks for: the words, and the standard input that follows them. -/
structure Request where
  args : Option (List GoString)
  stdin : Reader

def readRequest (json : Json) (conn : Conn) : Except ServeError Request :=
  match (Reader.new conn).readString newline with
  | (_, some err, _) => .error (.read err)
  | (line, none, r) =>
    match json.unmarshal line with
    | .error text => .error (.unmarshal text)
    | .ok args => .ok ⟨args, r⟩

/-- `Serve`. The methods of the service read from the standard input they are given. -/
def serve (json : Json) (strings : CaseMap) (service : Reader → Service) (conn : Conn) :
    Except ServeError (Outcome Reply) := do
  let req ← readRequest json conn
  return call strings (service req.stdin) (req.args.getD [])

end Docker
