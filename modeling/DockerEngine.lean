import DockerEngine.ForStd.System
import DockerEngine.ForStd.List
import DockerEngine.ForStd.BitVec
import DockerEngine.ForStd.Except
import DockerEngine.ForStd.Mirror
import DockerEngine.ForStd.Lineage
import DockerEngine.ForStd.UnionMount
import DockerEngine.ForStd.Owned
import DockerEngine.Go.Str
import DockerEngine.Go.Outcome
import DockerEngine.Go.Itoa
import DockerEngine.Go.Chan
import DockerEngine.Go.Cond
import DockerEngine.Go.LinkedList
import DockerEngine.Go.Reads
import DockerEngine.Go.Path
import DockerEngine.Go.Climb
import DockerEngine.Go.Links
import DockerEngine.Go.Flag
import DockerEngine.Go.Fmt
import DockerEngine.Go.Pipe
import DockerEngine.Go.OsPipe
import DockerEngine.Go.Bufio
import DockerEngine.Go.Strconv
import DockerEngine.Go.Sort
import DockerEngine.Js.Json
import DockerEngine.Js.JsonText
import DockerEngine.Js.ScriptData
import DockerEngine.Js.InlineJson
import DockerEngine.Js.Date
import DockerEngine.Js.RegExp
import DockerEngine.Native.Network
import DockerEngine.Native.Tenancy
import DockerEngine.Native.Ports
import DockerEngine.Native.Start
import DockerEngine.Native.MapperStarts
import DockerEngine.Native.State
import DockerEngine.Native.Fields
import DockerEngine.Native.Broadcast
import DockerEngine.Native.Readers
import DockerEngine.Native.Wakeup
import DockerEngine.Native.Lifecycle
import DockerEngine.Native.SysInit
import DockerEngine.Native.LxcTemplate
import DockerEngine.Native.Rcli
import DockerEngine.Native.Serve
import DockerEngine.Native.Respond
import DockerEngine.Native.Future
import DockerEngine.Native.HumanDuration
import DockerEngine.Native.Layers
import DockerEngine.Native.AddLayer
import DockerEngine.Native.Untar
import DockerEngine.Native.CmdStream
import DockerEngine.Native.Store
import DockerEngine.Native.Transaction
import DockerEngine.Native.Register
import DockerEngine.Native.Names
import DockerEngine.Native.Commit
import DockerEngine.Native.Changes
import DockerEngine.Native.Docker
import DockerEngine.Native.Restore
import DockerEngine.Native.Create
import DockerEngine.Native.CreateFault
import DockerEngine.Native.Streams
import DockerEngine.Native.Output
import DockerEngine.Native.Stdin
import DockerEngine.Native.ConnectionProvider
import DockerEngine.Native.ConnectionEvents
import DockerEngine.Native.Timeline
import DockerEngine.Native.TimelineRequests
import DockerEngine.Native.WildcardRoute
import DockerEngine.Native.HandOver
import DockerEngine.Native.Run
import DockerEngine.Native.Rows
import DockerEngine.Native.UserData
import DockerEngine.Native.Commands
import DockerEngine.Native.Files
import DockerEngine.Native.Seeding
import DockerEngine.Native.Images
import DockerEngine.Native.Import
import DockerEngine.Native.InitProcess
import DockerEngine.Native.Attach
import DockerEngine.Native.Crash
import DockerEngine.Native.Logs
import DockerEngine.Spec.NetworkOps
import DockerEngine.Spec.Populate
import DockerEngine.Spec.IPPool
import DockerEngine.Spec.NetworkRange
import DockerEngine.Spec.NetworkPools
import DockerEngine.Spec.PortForwarding
import DockerEngine.Spec.MapperStarts
import DockerEngine.Spec.Ports
import DockerEngine.Spec.ManagerStart
import DockerEngine.Spec.Publish
import DockerEngine.Spec.Start
import DockerEngine.Spec.Wait
import DockerEngine.Spec.HumanDuration
import DockerEngine.Spec.Fields
import DockerEngine.Spec.Broadcast
import DockerEngine.Spec.Readers
import DockerEngine.Spec.Wakeup
import DockerEngine.Spec.LastSignal
import DockerEngine.Spec.Lifecycle
import DockerEngine.Spec.SysInit
import DockerEngine.Spec.LxcTemplate
import DockerEngine.Spec.Rcli
import DockerEngine.Spec.Serve
import DockerEngine.Spec.Respond
import DockerEngine.Spec.Store
import DockerEngine.Spec.Transaction
import DockerEngine.Spec.Register
import DockerEngine.Spec.Names
import DockerEngine.Spec.AddLayer
import DockerEngine.Spec.Duplicate
import DockerEngine.Spec.Untar
import DockerEngine.Spec.CmdStream
import DockerEngine.Spec.LayerList
import DockerEngine.Spec.Commit
import DockerEngine.Spec.Changes
import DockerEngine.Spec.Probe
import DockerEngine.Spec.Whiteouts
import DockerEngine.Spec.Docker
import DockerEngine.Spec.Restore
import DockerEngine.Spec.Create
import DockerEngine.Spec.CreateFault
import DockerEngine.Spec.Streams
import DockerEngine.Spec.Output
import DockerEngine.Spec.Stdin
import DockerEngine.Spec.ConnectionProvider
import DockerEngine.Spec.ConnectionEvents
import DockerEngine.Spec.Timeline
import DockerEngine.Spec.Records
import DockerEngine.Spec.TimelineRequests
import DockerEngine.Spec.WildcardRoute
import DockerEngine.Spec.HandOver
import DockerEngine.Spec.Run
import DockerEngine.Spec.Rows
import DockerEngine.Spec.UserData
import DockerEngine.Spec.Commands
import DockerEngine.Spec.Files
import DockerEngine.Spec.Seeding
import DockerEngine.Spec.Images
import DockerEngine.Spec.Import
import DockerEngine.Spec.Processes
import DockerEngine.Spec.InitProcess
import DockerEngine.Spec.Attach
import DockerEngine.Spec.Crash
import DockerEngine.Spec.Logs
