import DockerEngine.Native.Respond
import DockerEngine.Spec.Rcli
import DockerEngine.Spec.Serve

/-!
# The errors a client is sent

The text of the error is the format of a `Fprintf`, so that a percent sign in it begins a
directive.

- `respond_eq_iff`: the errors that arrive as they are
- `respond_exact_iff`: the same, for a request over either transport
-/

namespace Docker

open Go

/-- What a client is to be sent after the output of a method that has failed. -/
def errorLine (text : GoString) : GoString := str "Error: " ++ text ++ str "\n"

/-- A line is printed as it is exactly when there is no percent sign in it. -/
theorem printError_eq_iff (text : GoString) : printError text = errorLine text ↔ 37 ∉ text := by
  have hmem : 37 ∈ str "Error: " ++ text ↔ 37 ∈ text := by
    rw [List.mem_append]
    exact or_iff_right (by decide)
  rw [← hmem]
  exact fprintf_eq_self_iff (str "Error: " ++ text)

theorem respond_eq_iff (texts : Texts) {reply : Reply} {err : CallError}
    (herr : reply.err = some err) :
    respond texts reply = texts.written reply ++ errorLine (err.text texts) ↔
      37 ∉ err.text texts := by
  rw [respond, herr, List.append_cancel_left_eq, printError_eq_iff]

/-- Over either transport, the error of a request arrives as it is exactly when there is no percent
    sign in it. -/
theorem respond_exact_iff (texts : Texts) (strings : CaseMap) (json : Json) :
    (∀ service conn reply err, serve json strings service conn = .ok (.ret reply) →
      reply.err = some err →
      (listenAndServe texts strings json service conn
          = .ret (texts.written reply ++ errorLine (err.text texts)) ↔ 37 ∉ err.text texts)) ∧
    ∀ service u reply err, callHTTP strings service u = .ret reply → reply.err = some err →
      (listenAndServeHTTP texts strings service u
          = .ret (texts.written reply ++ errorLine (err.text texts)) ↔ 37 ∉ err.text texts) := by
  constructor
  · intro service conn reply err hserve herr
    rw [listenAndServe, hserve, ← respond_eq_iff texts herr]
    simp
  · intro service u reply err hcall herr
    rw [listenAndServeHTTP, hcall, ← respond_eq_iff texts herr]
    simp

/-- Nothing is written, and the errors of other packages have no text. -/
def silent : Texts := ⟨fun _ => [], fun _ => [], fun _ => []⟩

/-- A service whose only command finds no container. -/
def logsService : Service where
  help := str "Usage: docker COMMAND"
  method name := if name = str "CmdLogs" then
    some fun args => some (str "No such container: " ++ args.headD []) else none
  identifier := by
    intro name h
    split at h
    · next heq =>
      subst heq
      decide
    · simp at h

/-- A name with a percent sign in it. -/
def percentUrl : Url := ⟨str "/logs", fun _ => [str "%d"]⟩

def percentReply : Reply :=
  ⟨some (.method (str "No such container: %d")), [.command (str "CmdLogs") [str "%d"]]⟩

theorem callHTTP_percent : callHTTP asciiCase logsService percentUrl = .ret percentReply := by
  have hrun : callHTTP asciiCase logsService percentUrl =
      (Cmd.method (str "CmdLogs") fun args =>
        some (str "No such container: " ++ args.headD [])).run asciiCase logsService [str "%d"] :=
    rfl
  rw [hrun, Cmd.run]
  decide

theorem respond_exact_iff_percent :
    listenAndServeHTTP silent asciiCase logsService percentUrl
        = .ret (silent.written percentReply ++ errorLine (str "No such container: %d")) ↔
      37 ∉ str "No such container: %d" :=
  (respond_exact_iff silent asciiCase Json.strings).2 logsService percentUrl percentReply _
    callHTTP_percent rfl

theorem respond_percent :
    callHTTP asciiCase logsService percentUrl = .ret percentReply ∧
      listenAndServeHTTP silent asciiCase logsService percentUrl
        = .ret (str "Error: No such container: %!d(MISSING)\n") ∧
      listenAndServeHTTP silent asciiCase logsService percentUrl
        ≠ .ret (silent.written percentReply ++ errorLine (str "No such container: %d")) := by
  refine ⟨callHTTP_percent, ?_⟩
  rw [listenAndServeHTTP, callHTTP_percent]
  decide

end Docker
