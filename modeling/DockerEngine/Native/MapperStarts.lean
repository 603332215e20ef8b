import DockerEngine.Native.Tenancy

/-!
# Port mappers on one nat table (`network.go`)

Daemons are started one after the other on the same machine, and each sets the port mapper
up again (`newPortMapper`) on the table its predecessors left. In between, the mapper of
the current daemon maps and unmaps ports. Any iptables command may fail by chance: the
commands that a start does not come to any more, because the daemon is killed, are
commands that fail.
-/

namespace Docker

/-- A start of the daemon or a call of its mapper, with the outcomes of the iptables commands. -/
inductive MapperOp where
  | start (oks : List Bool)
  | map (port : Int) (dest : TCPAddr) (oks : List Bool)
  | unmap (port : Int) (oks : List Bool)
  deriving DecidableEq, Repr

namespace Host

/-- The port mapper of a new daemon; it stays nil when `newPortMapper` fails. -/
def startMapper (h : Host) (oks : List Bool) : Host :=
  let (mapper, kernel) := newPortMapper ⟨h.kernel.nat, oks⟩
  ⟨{ h.manager with portMapper := mapper.toOption }, kernel⟩

def mapperStep (h : Host) : MapperOp → Option Host
  | .start oks => some (h.startMapper oks)
  | .map port dest oks =>
    let h := h.offer oks
    match PortMapper.map port dest h with
    | .ret (_, h) => some h
    -- a nil mapper appends the rule, and panics when it records it
    | .panic | .block => some (h.setKernel (iptables (.appendRule ⟨port, dest⟩) h.kernel).2)
  | .unmap port oks =>
    let h := h.offer oks
    match PortMapper.unmap port h with
    | .ret (_, h) => some h
    -- a nil mapper panics before it runs iptables
    | .panic | .block => some h

/-- No daemon has been started, and the table has neither the chain nor the jump. -/
def Unstarted (h : Host) : Prop := h.kernel.nat = ⟨0, none⟩ ∧ h.manager.portMapper = none

end Host

/-- All runs of daemons on one nat table. -/
def mapperSystem : System Host MapperOp where
  init := Host.Unstarted
  step := Host.mapperStep

end Docker
