import BpfAgent.Accumulator
import BpfAgent.Agent
import BpfAgent.App
import BpfAgent.Grammar
import BpfAgent.Iflat.Checksum
import BpfAgent.Iflat.Concurrency
import BpfAgent.Iflat.Configure
import BpfAgent.Iflat.Ebpf
import BpfAgent.Iflat.EndToEnd
import BpfAgent.Iflat.Journey
import BpfAgent.Iflat.NatInvariance
import BpfAgent.Iflat.Padding
import BpfAgent.Iflat.Serializability
import BpfAgent.Iflat.Simulator
import BpfAgent.IflatUprobe.Ebpf
import BpfAgent.IflatUprobe.EndToEnd
import BpfAgent.IflatUprobe.Framing
import BpfAgent.IflatUprobe.FunctionCall
import BpfAgent.IflatUprobe.Legs
import BpfAgent.IflatUprobe.Program
import BpfAgent.IflatUprobe.Simulator
import BpfAgent.Irss.Ebpf
import BpfAgent.Irss.EndToEnd
import BpfAgent.Irss.Handoff
import BpfAgent.Irss.Program
import BpfAgent.Irss.ReceiveFilter
import BpfAgent.Irss.Simulator
import BpfAgent.Irss.Snapshots
import BpfAgent.Irss.Starvation
import BpfAgent.KfreeSkb.Concurrency
import BpfAgent.KfreeSkb.Program
import BpfAgent.KfreeSkb.Rates
import BpfAgent.KfreeSkb.Total
import BpfAgent.Lib.BoundedMap
import BpfAgent.Lib.Correlation
import BpfAgent.Lib.Correlator
import BpfAgent.Lib.Family
import BpfAgent.Lib.Ipv4
import BpfAgent.Lib.Memory
import BpfAgent.Lib.OnesComplement
import BpfAgent.Lib.Relay
import BpfAgent.Lib.Run
import BpfAgent.Lib.SharedCounter
import BpfAgent.Lib.SlidingWindow
import BpfAgent.Lib.Sweep
import BpfAgent.Lib.Table
import BpfAgent.Lib.Text
import BpfAgent.Lib.Word
import BpfAgent.Metrics.Server
import BpfAgent.Metrics.Utf8
import BpfAgent.MyProgram.Program
import BpfAgent.Packet
import BpfAgent.PidLabel
import BpfAgent.Reporting
import BpfAgent.Sca.Attach
import BpfAgent.Sca.Clock
import BpfAgent.Sca.Discovery
import BpfAgent.Sca.Display
import BpfAgent.Sca.Ebpf
import BpfAgent.Sca.Freshness
import BpfAgent.Sca.HopSockets
import BpfAgent.Sca.HostPid
import BpfAgent.Sca.Idempotence
import BpfAgent.Sca.Lockstep
import BpfAgent.Sca.Measured
import BpfAgent.Sca.MovingAverage
import BpfAgent.Sca.NngHeader
import BpfAgent.Sca.Restarts
import BpfAgent.Sca.SendStep
import BpfAgent.Sca.Series
import BpfAgent.Sca.Simulator
import BpfAgent.Sca.SsOutput
import BpfAgent.Sca.SsRoundTrip
import BpfAgent.Sca.StaleLatency
import BpfAgent.Sca.Starvation
import BpfAgent.Sca.Telescoping
import BpfAgent.Settings
import BpfAgent.Syscall
import BpfAgent.Uprobe.Configure
import BpfAgent.Uprobe.Conservation
import BpfAgent.Uprobe.LatestCall
import BpfAgent.Uprobe.Program
import BpfAgent.Uprobe.Threads
