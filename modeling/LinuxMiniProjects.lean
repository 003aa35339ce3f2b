import LinuxMiniProjects.Lib.LinkedList
import LinuxMiniProjects.Lib.Machine
import LinuxMiniProjects.Lib.Bytes
import LinuxMiniProjects.Lib.Crc
import LinuxMiniProjects.Lib.EndAround
import LinuxMiniProjects.Lib.RingBuf
import LinuxMiniProjects.Lib.Threads
import LinuxMiniProjects.Lib.CondVar
import LinuxMiniProjects.Lib.Socket
import LinuxMiniProjects.Lib.SocketReader
import LinuxMiniProjects.Lib.Json
import LinuxMiniProjects.Lib.Tokens
import LinuxMiniProjects.Lib.CString
import LinuxMiniProjects.Lib.FileSystem
import LinuxMiniProjects.CJson.Print
import LinuxMiniProjects.CJson.Text
import LinuxMiniProjects.CJson.PrintCorrect
import LinuxMiniProjects.Gateway.Common
import LinuxMiniProjects.Gateway.TaskQueue
import LinuxMiniProjects.Gateway.ResponseQueue
import LinuxMiniProjects.Gateway.ProtocolMessage
import LinuxMiniProjects.Gateway.Crc
import LinuxMiniProjects.Gateway.Client
import LinuxMiniProjects.Gateway.RateLimit
import LinuxMiniProjects.Gateway.Transmit
import LinuxMiniProjects.Gateway.TransmitPlain
import LinuxMiniProjects.Gateway.Reader
import LinuxMiniProjects.Gateway.Framing
import LinuxMiniProjects.Gateway.Corruption
import LinuxMiniProjects.Gateway.Hostile
import LinuxMiniProjects.Gateway.Server
import LinuxMiniProjects.Gateway.Throttle
import LinuxMiniProjects.Gateway.Moves
import LinuxMiniProjects.Gateway.Worker
import LinuxMiniProjects.Gateway.PayloadJson
import LinuxMiniProjects.Gateway.System
import LinuxMiniProjects.Gateway.Wakeup
import LinuxMiniProjects.Gateway.Routing
import LinuxMiniProjects.Gateway.Arming
import LinuxMiniProjects.Gateway.Reuse
import LinuxMiniProjects.Gateway.Stranded
import LinuxMiniProjects.Gateway.TlsClient
import LinuxMiniProjects.Gateway.ClientFrames
import LinuxMiniProjects.Gateway.ErrorFrames
import LinuxMiniProjects.Gateway.Matching
import LinuxMiniProjects.Gateway.Actuators
import LinuxMiniProjects.Gateway.Hysteresis
import LinuxMiniProjects.Gateway.Responses
import LinuxMiniProjects.ControlPlane.Scheduler
import LinuxMiniProjects.ControlPlane.Message
import LinuxMiniProjects.ControlPlane.Client
import LinuxMiniProjects.ControlPlane.ReadStage
import LinuxMiniProjects.ControlPlane.Framing
import LinuxMiniProjects.ControlPlane.Checksum
import LinuxMiniProjects.ControlPlane.Session
import LinuxMiniProjects.ControlPlane.System
import LinuxMiniProjects.ControlPlane.InFlight
import LinuxMiniProjects.ControlPlane.Stream
import LinuxMiniProjects.ControlPlane.Edges
import LinuxMiniProjects.ControlPlane.Connections
import LinuxMiniProjects.ControlPlane.SessionTable
import LinuxMiniProjects.ControlPlane.Backlog
import LinuxMiniProjects.ControlPlane.Answers
import LinuxMiniProjects.ControlPlane.Dispatch
import LinuxMiniProjects.ControlPlane.Identity
import LinuxMiniProjects.GatewayCli.System
import LinuxMiniProjects.GatewayCli.Numbering
import LinuxMiniProjects.GatewayCli.ReadStage
import LinuxMiniProjects.GatewayCli.Acknowledge
import LinuxMiniProjects.ControlPlane.Hostile
import LinuxMiniProjects.CorePosix.SharedRing
import LinuxMiniProjects.CorePosix.Monitor
import LinuxMiniProjects.CorePosix.Startup
import LinuxMiniProjects.SafeConfig.Text
import LinuxMiniProjects.SafeConfig.Program
import LinuxMiniProjects.SafeConfig.Atomicity
import LinuxMiniProjects.SafeConfig.Writers
import LinuxMiniProjects.SafeConfig.Outcome
import LinuxMiniProjects.SafeConfig.Losses
import LinuxMiniProjects.SafeConfig.Backup
import LinuxMiniProjects.SafeConfig.Buffer
import LinuxMiniProjects.Pipeline.System
import LinuxMiniProjects.Pipeline.Mailbox
import LinuxMiniProjects.Pipeline.StopAndWait
import LinuxMiniProjects.Pipeline.Resend
import LinuxMiniProjects.Pipeline.Log
import LinuxMiniProjects.SensorHub.Writer
import LinuxMiniProjects.SensorHub.Drain
import LinuxMiniProjects.SensorHub.ShmRing
import LinuxMiniProjects.SensorHub.CrashSafety
import LinuxMiniProjects.SignalDaemon.Reload
import LinuxMiniProjects.SignalDaemon.Readers
import LinuxMiniProjects.SignalDaemon.System
import LinuxMiniProjects.SignalDaemon.Wakeups
import LinuxMiniProjects.SignalDaemon.Shutdown
import LinuxMiniProjects.SignalDaemon.Consistency
import LinuxMiniProjects.SignalDaemon.Freshness
import LinuxMiniProjects.Supervisor.Options
import LinuxMiniProjects.Supervisor.Loop
import LinuxMiniProjects.Supervisor.Timeout
import LinuxMiniProjects.Supervisor.Capture
import LinuxMiniProjects.Supervisor.Children
