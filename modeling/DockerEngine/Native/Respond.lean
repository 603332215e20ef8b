import DockerEngine.Go.Fmt
import DockerEngine.Go.Path
import DockerEngine.Native.Serve

/-!
# What a client is sent (`rcli/tcp.go`, `rcli/http.go`)

Both servers send what `call` writes while it runs, and then the error, with `fmt.Fprintf`. What
the methods of the service and the flag set write is a parameter, as are the texts of the errors
of other packages. The parts of a URL are those that `net/http` has parsed and unescaped.
-/

namespace Docker

open Go

/-- What is written for a request, and the texts of the errors of packages `flag`, `io` and
    `encoding/json`. -/
structure Texts where
  written : Reply → GoString
  flag : FlagError → GoString
  serve : ServeError → GoString

variable (texts : Texts) (strings : CaseMap)

/-- `err.Error()`. -/
def CallError.text : CallError → GoString
  | .flag e => texts.flag e
  | .new text => text
  | .method err => err

/-- `fmt.Fprintf(w, "Error: "+err.Error()+"\n")`. -/
def printError (text : GoString) : GoString := fprintf (str "Error: " ++ text ++ str "\n")

/-- What is sent for a request that `call` has answered. -/
def respond (reply : Reply) : GoString :=
  texts.written reply ++
    match reply.err with
    | none => []
    | some err => printError (err.text texts)

/-- What the goroutine of `ListenAndServe` sends on a connection. -/
def listenAndServe (json : Json) (service : Reader → Service) (conn : Conn) : Outcome GoString :=
  match serve json strings service conn with
  | .error err => .ret (printError (texts.serve err))
  | .ok reply => return respond texts (← reply)

/-- The path and the query of a URL; a key may have several values. -/
structure Url where
  path : GoString
  query : GoString → List GoString

/-- `URLToCall`. -/
def urlToCall (u : Url) : GoString × List GoString := (base u.path, u.query (str "q"))

/-- What `call` is asked over HTTP. -/
def callHTTP (service : Service) (u : Url) : Outcome Reply :=
  let (cmd, args) := urlToCall u
  call strings service ([cmd] ++ args)

/-- What the handler of `ListenAndServeHTTP` sends. -/
def listenAndServeHTTP (service : Service) (u : Url) : Outcome GoString := do
  return respond texts (← callHTTP strings service u)

end Docker
