import NaptRouter.Lib.ByteMemory
import NaptRouter.Lib.LinearProbing
import NaptRouter.Lib.Runs
import NaptRouter.Lib.KeyedFifo
import NaptRouter.Lib.LockTrace
import NaptRouter.Lib.OnesComplement
import NaptRouter.Lib.BestMatch
import NaptRouter.Lib.DeltaQueue
import NaptRouter.Lib.Lifecycle
import NaptRouter.Lib.OptionWalk
import NaptRouter.Lib.ByteOrder
import NaptRouter.Lib.GrowArray
import NaptRouter.Lib.ThreadPool
import NaptRouter.Lib.LockOrder
import NaptRouter.Lib.MutualExclusion
import NaptRouter.Lib.RecordStream
import NaptRouter.Structs
import NaptRouter.Hashmap
import NaptRouter.HashmapLayout
import NaptRouter.HashmapProof
import NaptRouter.Interfaces
import NaptRouter.Devices
import NaptRouter.Router
import NaptRouter.Timer
import NaptRouter.Outgoing
import NaptRouter.Ipv4
import NaptRouter.Ethernet
import NaptRouter.NaptTables
import NaptRouter.NaptHistory
import NaptRouter.Firewall
import NaptRouter.PublicPorts
import NaptRouter.Dhcp
import NaptRouter.DhcpRuns
import NaptRouter.Leases
import NaptRouter.DeltaList
import NaptRouter.Routing
import NaptRouter.QueueFlow
import NaptRouter.ArpQueue
import NaptRouter.Resolution
import NaptRouter.TimerRuns
import NaptRouter.Deadlines
import NaptRouter.NodeLife
import NaptRouter.ArpTimeout
import NaptRouter.TableGrowth
import NaptRouter.TableInsertion
import NaptRouter.TableRemoval
import NaptRouter.TableRuns
import NaptRouter.Probing
import NaptRouter.NaptAgreement
import NaptRouter.Learning
import NaptRouter.Egress
import NaptRouter.LockDiscipline
import NaptRouter.Checksums
import NaptRouter.Segments
import NaptRouter.Forwarding
import NaptRouter.Noninterference
import NaptRouter.ReceivedLength
import NaptRouter.QueuedPath
import NaptRouter.Retries
import NaptRouter.DhcpOptions
import NaptRouter.DhcpReplies
import NaptRouter.DhcpStale
import NaptRouter.DhcpPool
import NaptRouter.LeaseCount
import NaptRouter.MacTable
import NaptRouter.TableMemory
import NaptRouter.Threads
import NaptRouter.Deadlock
import NaptRouter.TableRaces
import NaptRouter.PortExhaustion
import NaptRouter.ReadLoop
import NaptRouter.Startup
import NaptRouter.DhcpServer
import NaptRouter.BoundedWait
import NaptRouter.Traffic
import NaptRouter.NaptRefinement
import NaptRouter.TableLosses
import NaptRouter.WrittenFrames
import NaptRouter.Conversations
import NaptRouter.Capture
