import DpdkEcho.Infra.Memory
import DpdkEcho.Infra.Machine
import DpdkEcho.Infra.CString
import DpdkEcho.Net.Header
import DpdkEcho.Net.Mbuf
import DpdkEcho.Arp
import DpdkEcho.Exp
import DpdkEcho.Config
import DpdkEcho.Server
import DpdkEcho.Main
import DpdkEcho.Properties.ServerBurst
import DpdkEcho.Properties.QueueStatus
import DpdkEcho.Infra.Cumulative
import DpdkEcho.Percentile
import DpdkEcho.Properties.Percentile
import DpdkEcho.Client.ArpLoop
import DpdkEcho.Client.BuildPacket
import DpdkEcho.Client.Receiver
import DpdkEcho.LatencyClient
import DpdkEcho.Properties.ArpResolution
import DpdkEcho.Properties.EchoRoundTrip
import DpdkEcho.Properties.PayloadBounds
import DpdkEcho.Properties.BatchDiscipline
import DpdkEcho.Infra.OnesComplement
import DpdkEcho.Zipf
import DpdkEcho.Properties.Options
import DpdkEcho.Properties.ServerDelay
import DpdkEcho.Properties.ServerPacing
import DpdkEcho.Properties.EchoChecksum
import DpdkEcho.Properties.Histogram
import DpdkEcho.Properties.ZipfSearch
import DpdkEcho.Properties.ArpHandshake
import DpdkEcho.Client.Transmit
import DpdkEcho.Client.Run
import DpdkEcho.Properties.ClientSteps
import DpdkEcho.Properties.ClientBuffers
import DpdkEcho.Properties.QueueOwnership
import DpdkEcho.Infra.Access
import DpdkEcho.FrameAccess
import DpdkEcho.Properties.FrameBounds
import DpdkEcho.Properties.ZipfTable
import DpdkEcho.Net.Decode
import DpdkEcho.Properties.FrameDecode
import DpdkEcho.Properties.ClientAddr
import DpdkEcho.Properties.BurstPackets
import DpdkEcho.Properties.FlowTables
import DpdkEcho.Properties.ClientDelay
import DpdkEcho.Properties.RateLimit
import DpdkEcho.Properties.FlowAccounting
import DpdkEcho.Properties.LatencyTimes
import DpdkEcho.Properties.OptionValues
import DpdkEcho.Properties.OptionOrder
import DpdkEcho.Infra.ScanGrammar
import DpdkEcho.Properties.IpText
import DpdkEcho.Properties.MacText
import DpdkEcho.Properties.AddrGrammar
import DpdkEcho.Properties.FlowRotation
import DpdkEcho.Properties.ClientReport
import DpdkEcho.Infra.Lcg
import DpdkEcho.Properties.RandPeriod
import DpdkEcho.Infra.Network
import DpdkEcho.Network
import DpdkEcho.ServerReport
import DpdkEcho.Properties.WireFrames
import DpdkEcho.Properties.ServerOrder
import DpdkEcho.Properties.ServerReports
import DpdkEcho.Properties.HostFrames
import DpdkEcho.Properties.NetworkLedger
import DpdkEcho.Infra.Fair
import DpdkEcho.ServerProcess
import DpdkEcho.Client.Process
import DpdkEcho.Properties.ServerQueues
import DpdkEcho.Properties.ServerShutdown
import DpdkEcho.Properties.ClientPhases
import DpdkEcho.Properties.ClientShutdown
import DpdkEcho.Properties.LatencyShutdown
import DpdkEcho.Properties.OptionAcceptance
import DpdkEcho.Infra.Getopt
import DpdkEcho.CommandLine
import DpdkEcho.Client.Draws
import DpdkEcho.Client.WindowReport
import DpdkEcho.Properties.CommandLine
import DpdkEcho.Properties.RandTable
import DpdkEcho.Properties.ClientDraws
import DpdkEcho.Properties.ClientWindows
import DpdkEcho.Infra.Parts
import DpdkEcho.Client.Workers
import DpdkEcho.Properties.ClientWorkers
