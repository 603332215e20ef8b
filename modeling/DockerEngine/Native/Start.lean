import DockerEngine.Native.Ports

/-!
# How a start can fail (`container.go`)

`Container.start` in `Native/Ports.lean` tells only whether the command was started. Here
`Start` is taken apart: each call to the system that can fail has its outcome in
`StartCalls`, and the error is returned. The command line, the fields of the command and
the goroutines that copy its streams are left out.
-/

namespace Docker.Ports

open Go

/-- The outcomes of the calls to the system in one `Start`. -/
structure StartCalls where
  ensureMounted : Except GoString Unit
  /-- `os.Create(container.lxcConfigPath)`. -/
  create : Except GoString Unit
  /-- `LxcTemplateCompiled.Execute`. -/
  execute : Except GoString Unit
  /-- `pty.Open`, for each of the three streams. -/
  stdoutPty : Except GoString Unit
  stderrPty : Except GoString Unit
  stdinPty : Except GoString Unit
  stdinPipe : Except GoString Unit
  cmdStart : Except GoString Unit

namespace StartCalls

/-- No call fails. -/
def succeed : StartCalls :=
  ⟨.ok (), .ok (), .ok (), .ok (), .ok (), .ok (), .ok (), .ok ()⟩

def generateLXCConfig (calls : StartCalls) : Except GoString Unit := do
  calls.create
  calls.execute

def startPty (openStdin : Bool) (calls : StartCalls) : Except GoString Unit := do
  calls.stdoutPty
  calls.stderrPty
  if openStdin then
    calls.stdinPty
  calls.cmdStart

/-- The `start` without a terminal. -/
def startPlain (openStdin : Bool) (calls : StartCalls) : Except GoString Unit := do
  if openStdin then
    calls.stdinPipe
  calls.cmdStart

/-- What `Start` does once the network is allocated. -/
def spawn (tty openStdin : Bool) (calls : StartCalls) : Except GoString Unit := do
  calls.generateLXCConfig
  if tty then calls.startPty openStdin else calls.startPlain openStdin

end StartCalls

/-- `Start` with its error, for a container with these two flags in its configuration. -/
def Container.startErr (tty openStdin : Bool) (calls : StartCalls) (c : Container) (h : Host) :
    Outcome (Option GoString × Container × Host) :=
  match calls.ensureMounted with
  | .error err => .ret (some err, c, h)
  | .ok _ => do
    let (err, c, h) ← c.allocateNetwork h
    match err with
    | some err => return (some err, c, h)
    | none =>
      match calls.spawn tty openStdin with
      -- the network is not released
      | .error err => return (some err, c, h)
      | .ok _ => return (none, ({ c with running := true, processes := c.processes + 1 }).save, h)

/-- `Start` on the container with number `k`. -/
def Daemon.startErr (d : Daemon) (k : Nat) (tty openStdin : Bool) (calls : StartCalls)
    (oks : List Bool) : Option (Option GoString × Daemon) := do
  let c ← d.containers[k]?
  let (err, c, host) ← (c.startErr tty openStdin calls (d.host.offer oks)).toOption
  some (err, ⟨host, d.containers.set k c⟩)

/-! ## The two descriptions agree -/

/-- Without its error, `startErr` is the `start` of the runs of the daemon. -/
theorem Container.start_eq (tty openStdin : Bool) (calls : StartCalls) (c : Container) (h : Host) :
    c.start calls.ensureMounted.toBool (calls.spawn tty openStdin).toBool h =
      c.startErr tty openStdin calls h >>= fun (_, c, h) => .ret (c, h) := by
  unfold Container.start Container.startErr
  cases calls.ensureMounted with
  | error err => rfl
  | ok _ =>
    simp only [Except.toBool, Bool.true_eq_false, if_false]
    cases c.allocateNetwork h with
    | panic => rfl
    | block => rfl
    | ret r =>
      obtain ⟨err, c, h⟩ := r
      cases err with
      | some err => rfl
      | none => cases calls.spawn tty openStdin <;> rfl

/-- A `Start` is a step of the daemon. -/
theorem Daemon.step_start {d d' : Daemon} {k : Nat} {tty openStdin : Bool} {calls : StartCalls}
    {oks : List Bool} {err : Option GoString}
    (hstart : d.startErr k tty openStdin calls oks = some (err, d')) :
    d.step (.start k calls.ensureMounted.toBool (calls.spawn tty openStdin).toBool oks) =
      some d' := by
  simp only [Daemon.startErr, Option.bind_eq_bind, Option.bind_eq_some_iff,
    Outcome.toOption_eq_some, Option.some.injEq, Prod.mk.injEq] at hstart
  obtain ⟨c, hk, ⟨err', c', h'⟩, hret, -, rfl⟩ := hstart
  simp only [Daemon.step, hk, Option.bind_eq_bind, Option.bind_some, Container.start_eq, hret,
    Outcome.ret_bind, Outcome.toOption_ret]

end Docker.Ports
