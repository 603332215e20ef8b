import DockerEngine.Go.Str

/-!
# The LXC configuration of a container (`lxc_template.go`)

`render` is what the execution of `LxcTemplate` writes, line by line. `if` and `with` leave their
lines out when the number is zero. Memory sizes are machine integers.

A container has the fields here that the template reads.
-/

namespace Docker.LxcTemplate

open Go

structure Config where
  hostname : GoString
  memory : Int64
  memorySwap : Int64
  deriving DecidableEq, Repr

structure NetworkSettings where
  ipAddress : GoString
  ipPrefixLen : Int
  deriving DecidableEq, Repr

/-- `mountpointRoot` is `Mountpoint.Root`. -/
structure Container where
  id : GoString
  config : Config
  networkSettings : NetworkSettings
  mountpointRoot : GoString
  sysInitPath : GoString
  deriving DecidableEq, Repr

/-- The config that `CreateContainer` makes, for the id of the container and the value of `-m`. -/
def createConfig (id : GoString) (memory : Int64) : Config := ⟨id, memory, 0⟩

def getMemorySwap (config : Config) : Int64 :=
  if config.memorySwap < 0 then 0 else config.memory * 2

/-! ## The sections of the template -/

def hostname (c : Container) : List GoString :=
  [[], str "# hostname", []] ++
  (if c.config.hostname ≠ [] then [str "lxc.utsname = " ++ c.config.hostname]
  else [str "lxc.utsname = " ++ c.id])

def network (c : Container) : List GoString := [
    [],
    str "#lxc.aa_profile = unconfined",
    [],
    str "# network configuration",
    str "lxc.network.type = veth",
    str "lxc.network.flags = up",
    str "lxc.network.link = lxcbr0",
    str "lxc.network.name = eth0",
    str "lxc.network.mtu = 1500",
    str "lxc.network.ipv4 = " ++ c.networkSettings.ipAddress ++ str "/" ++
      itoa c.networkSettings.ipPrefixLen]

def rootFilesystem (rootfs : GoString) : List GoString := [
    [],
    str "# root filesystem",
    [],
    str "lxc.rootfs = " ++ rootfs]

def devices : List GoString := [
    [],
    str "# use a dedicated pts for the container (and limit the number of pseudo terminal",
    str "# available)",
    str "lxc.pts = 1024",
    [],
    str "# disable the main console",
    str "lxc.console = none",
    [],
    str "# no controlling tty at all",
    str "lxc.tty = 1",
    [],
    str "# no implicit access to devices",
    str "lxc.cgroup.devices.deny = a",
    [],
    str "# /dev/null and zero",
    str "lxc.cgroup.devices.allow = c 1:3 rwm",
    str "lxc.cgroup.devices.allow = c 1:5 rwm",
    [],
    str "# consoles",
    str "lxc.cgroup.devices.allow = c 5:1 rwm",
    str "lxc.cgroup.devices.allow = c 5:0 rwm",
    str "lxc.cgroup.devices.allow = c 4:0 rwm",
    str "lxc.cgroup.devices.allow = c 4:1 rwm",
    [],
    str "# /dev/urandom,/dev/random",
    str "lxc.cgroup.devices.allow = c 1:9 rwm",
    str "lxc.cgroup.devices.allow = c 1:8 rwm",
    [],
    str "# /dev/pts/* - pts namespaces are \"coming soon\"",
    str "lxc.cgroup.devices.allow = c 136:* rwm",
    str "lxc.cgroup.devices.allow = c 5:2 rwm",
    [],
    str "# tuntap",
    str "lxc.cgroup.devices.allow = c 10:200 rwm",
    [],
    str "# fuse",
    str "#lxc.cgroup.devices.allow = c 10:229 rwm",
    [],
    str "# rtc",
    str "#lxc.cgroup.devices.allow = c 254:0 rwm",
    [],
    []]

def mounts (sysInitPath rootfs : GoString) : List GoString := [
    str "# standard mount point",
    str "lxc.mount.entry = proc " ++ rootfs ++ str "/proc proc nosuid,nodev,noexec 0 0",
    str "lxc.mount.entry = sysfs " ++ rootfs ++ str "/sys sysfs nosuid,nodev,noexec 0 0",
    str "lxc.mount.entry = devpts " ++ rootfs ++ str "/dev/pts devpts" ++
      str " newinstance,ptmxmode=0666,nosuid,noexec 0 0",
    str "#lxc.mount.entry = varrun " ++ rootfs ++ str "/var/run tmpfs" ++
      str " mode=755,size=4096k,nosuid,nodev,noexec 0 0",
    str "#lxc.mount.entry = varlock " ++ rootfs ++ str "/var/lock tmpfs" ++
      str " size=1024k,nosuid,nodev,noexec 0 0",
    str "#lxc.mount.entry = shm " ++ rootfs ++ str "/dev/shm tmpfs" ++
      str " size=65536k,nosuid,nodev,noexec 0 0",
    [],
    str "# Inject docker-init",
    str "lxc.mount.entry = " ++ sysInitPath ++ str " " ++ rootfs ++ str "/sbin/init none" ++
      str " bind,ro 0 0",
    [],
    str "# In order to get a working DNS environment, mount bind (ro) the host's" ++
      str " /etc/resolv.conf into the container",
    str "lxc.mount.entry = /etc/resolv.conf " ++ rootfs ++ str "/etc/resolv.conf none bind,ro 0 0",
    [],
    []]

def capabilities : List GoString := [
    str "# drop linux capabilities (apply mainly to the user root in the container)",
    str "lxc.cap.drop = audit_control audit_write mac_admin mac_override mknod net_raw" ++
      str " setfcap setpcap sys_admin sys_boot sys_module sys_nice sys_pacct sys_rawio" ++
      str " sys_resource sys_time sys_tty_config",
    []]

def limits (config : Config) : List GoString :=
  [str "# limits"] ++
  (if config.memory ≠ 0 then
    [[],
    str "lxc.cgroup.memory.limit_in_bytes = " ++ itoa config.memory.toInt,
    str "lxc.cgroup.memory.soft_limit_in_bytes = " ++ itoa config.memory.toInt] ++
    (if getMemorySwap config ≠ 0 then
      [[], str "lxc.cgroup.memory.memsw.limit_in_bytes = " ++ itoa (getMemorySwap config).toInt]
    else []) ++ [[]]
  else []) ++ [[]]

/-- A text, each line with its newline. -/
def text (lines : List GoString) : GoString := lines.flatMap fun line => line ++ str "\n"

def render (c : Container) : GoString :=
  text (hostname c ++ network c ++ rootFilesystem c.mountpointRoot ++ devices ++
    mounts c.sysInitPath c.mountpointRoot ++ capabilities ++ limits c.config)

end Docker.LxcTemplate
