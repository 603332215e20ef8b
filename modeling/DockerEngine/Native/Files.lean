import DockerEngine.Go.Links
import DockerEngine.Native.Commands
import Mathlib.Logic.Function.Basic

/-!
# The files of the containers (`fs/store.go`, `server/server.go`)

`CmdCat` and `CmdWrite` open a file of a container: `OpenFile` joins its path with the root of
the mountpoint. `CmdWrite` does not truncate the file, it writes over what is there.

The filesystems of the containers are mounted all the time here. The kernel follows the symbolic
links of the host, of which the images of the containers bring their own, and no request makes or
removes one. A regular file has one path: there are no hard links. Whether a file can be opened
is a parameter.
-/

namespace Docker

open Go

/-- The regular files of the host by their paths, its symbolic links and how many of them the
    kernel follows, and the containers the daemon knows. The repository is a directory below the
    root, and there is no link on the way to the containers. -/
structure FileHost where
  repository : List GoString
  repository_plain : ∀ dir ∈ repository, PlainName dir
  ids : List GoString
  ids_plain : ∀ id ∈ ids, PlainName id
  links : Links
  maxLinks : Nat
  root_links : ∀ id ∈ ids, ∀ dirs, dirs <+: repository ++ [id, str "rootfs"] → links dirs = none
  files : GoString → Option GoString

/-- What a command returns: its usage text and nil, an error, or nil after its output. -/
inductive FileReply where
  | usage
  | error (err : GoString)
  | ok (output : GoString)
  deriving DecidableEq, Repr

/-- How the kernel answers a `CmdWrite`: `open` fails, or a write after `copied` bytes. -/
inductive FileFault where
  | openFile (err : GoString)
  | copy (copied : Nat) (err : GoString)
  deriving DecidableEq, Repr

namespace FileHost

/-- The root of the mountpoint of a container. -/
def root (h : FileHost) (id : GoString) : GoString :=
  pathJoin [pathJoin [rootedPath h.repository, id], str "rootfs"]

/-- The path `OpenFile` opens. -/
def openPath (h : FileHost) (id path : GoString) : GoString := pathJoin [h.root id, path]

/-- The file that the kernel finds under it. -/
def opened (h : FileHost) (id path : GoString) : Option GoString :=
  resolve h.links h.maxLinks (h.openPath id path)

/-- What `os.OpenFile` returns if there are too many links on its path. -/
def linksError (h : FileHost) (id path : GoString) : GoString :=
  str "open " ++ h.openPath id path ++ str ": too many levels of symbolic links"

end FileHost

/-- The container and the path that the words name. -/
def fileArgs (args : List GoString) : Option (GoString × GoString) :=
  match noFlags.parse args with
  | .error _ => none
  | .ok cmd => if cmd.args.length < 2 then none else some (cmd.arg 0, cmd.arg 1)

/-- What a file has when `data` has been written over its beginning. -/
def overwrite (data old : GoString) : GoString := data ++ old.drop data.length

namespace FileHost

def cmdCat (h : FileHost) (args : List GoString) (openErr : Option GoString) : FileReply :=
  match fileArgs args with
  | none => .usage
  | some (name, path) =>
    if name ∈ h.ids then
      match openErr, h.opened name path with
      | some err, _ => .error err
      | none, none => .error (h.linksError name path)
      | none, some f =>
        match h.files f with
        | none =>
          .error (str "open " ++ h.openPath name path ++ str ": no such file or directory")
        | some contents => .ok contents
    else .error (Restore.noSuchContainer name)

/-- `io.Copy` of `data` into a file. -/
def writeFile (h : FileHost) (f data : GoString) : FileHost :=
  { h with files := Function.update h.files f (overwrite data ((h.files f).getD [])) }

def cmdWrite (h : FileHost) (args : List GoString) (stdin : GoString) (fault : Option FileFault) :
    FileReply × FileHost :=
  match fileArgs args with
  | none => (.usage, h)
  | some (name, path) =>
    if name ∈ h.ids then
      match fault, h.opened name path with
      | some (.openFile err), _ => (.error err, h)
      | _, none => (.error (h.linksError name path), h)
      | some (.copy copied err), some f => (.error err, h.writeFile f (stdin.take copied))
      | none, some f => (.ok [], h.writeFile f stdin)
    else (.error (Restore.noSuchContainer name), h)

end FileHost

/-- A request for `CmdWrite`. -/
structure WriteRequest where
  args : List GoString
  stdin : GoString
  fault : Option FileFault
  deriving DecidableEq, Repr

namespace FileHost

def serve (h : FileHost) (req : WriteRequest) : FileHost :=
  (h.cmdWrite req.args req.stdin req.fault).2

/-- The host after the requests. -/
def run (h : FileHost) (reqs : List WriteRequest) : FileHost := reqs.foldl serve h

end FileHost

end Docker
