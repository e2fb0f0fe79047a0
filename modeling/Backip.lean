import Backip.Lib.Machine
import Backip.System.PoolP
import Backip.BackIP.StackC
import Backip.BackIP.Queueing
import Backip.BackIP.QueueView
import Backip.BackIP.Proof.QueueInv
import Backip.BackIP.Proof.QueueStep
import Backip.BackIP.Proof.Accounting
import Backip.BackIP.Proof.RadioLock
import Backip.BackIP.Proof.Answers
import Backip.BackIP.NeighbourTable
import Backip.BackIP.Proof.Selection
import Backip.BackIP.Beaconing
import Backip.BackIP.Proof.Announce
import Backip.BackIP.Proof.Charges
import Backip.BackIP.Node
import Backip.BackIP.Proof.Progress
import Backip.Lib.Splice
import Backip.System.Iovec
import Backip.Lib.Ipv6
import Backip.System.IPPacket
import Backip.BackIP.Header
import Backip.BackIP.Proof.HopOption
import Backip.Lib.RefCount
import Backip.BackIP.Dispatch
import Backip.BackIP.Egress
import Backip.BackIP.Proof.DispatchStep
import Backip.BackIP.Proof.Bypass
import Backip.BCP.Header
import Backip.BCP.Routing
import Backip.BCP.Forwarding
import Backip.BCP.Proof.Downhill
import Backip.BCP.Proof.Checksum
import Backip.BCP.ForwarderView
import Backip.BCP.Proof.ForwarderStep
import Backip.BCP.Proof.Ownership
import Backip.BCP.Proof.Admission
import Backip.BCP.Proof.Sending
import Backip.BCP.Network
import Backip.Lib.Blocks
import Backip.Lib.Buffer
import Backip.Lowpan.Header
import Backip.Lowpan.Iphc
import Backip.Lowpan.Nhc
import Backip.Lowpan.Frag
import Backip.Lowpan.Proof.Compression
import Backip.Lowpan.Proof.BitRange
import Backip.Lowpan.Proof.Chain
import Backip.Blip.RoutingTable
import Backip.Blip.Proof.Routes
import Backip.Tcp.Circ
import Backip.Tcp.Proof.Circ
import Backip.Tcp.Tcplib
import Backip.Tcp.Proof.Output
import Backip.Tcp.Proof.Stream
import Backip.Tcp.Proof.Handshake
import Backip.Tcp.Proof.Unacked
import Backip.Tcp.Proof.SendWindow
import Backip.Blip.ForwardingEngine
import Backip.Blip.InetText
import Backip.Blip.Proof.InetText
import Backip.Blip.Network
import Backip.Blip.Proof.HeaderSearch
import Backip.Blip.SendSide
import Backip.Blip.Proof.SendPools
import Backip.Blip.Proof.Completion
import Backip.Lowpan.IpMalloc
import Backip.Lowpan.Proof.IpMalloc
import Backip.Lowpan.Proof.Extent
import Backip.Blip.Reassembly
import Backip.Blip.Proof.Ownership
import Backip.Blip.Proof.FailedReassembly
import Backip.Lowpan.Proof.Bounds
import Backip.Lib.LinkedQueue
import Backip.Lib.Stuffing
import Backip.Lib.WrappingClock
import Backip.Lib.ByteMask
import Backip.Lib.PartialMap
import Backip.System.SchedulerBasicP
import Backip.System.FcfsPriorityArbiterC
import Backip.System.ArbiterP
import Backip.System.Proof.Arbiter
import Backip.System.Proof.PriorityArbiter
import Backip.System.AMQueueImplP
import Backip.System.Proof.AMQueue
import Backip.System.Proof.AMQueueCompletes
import Backip.Serial.Crc
import Backip.Serial.Receive
import Backip.Serial.SerialSource
import Backip.Serial.Transmit
import Backip.Serial.Proof.Crc
import Backip.Serial.Proof.Frame
import Backip.Serial.Proof.Receive
import Backip.Serial.Proof.RoundTrip
import Backip.Serial.Proof.Source
import Backip.Serial.Proof.Transmit
import Backip.Timer.VirtualizeTimerC
import Backip.Timer.TransformAlarmCounterC
import Backip.Timer.TransformCounterC
import Backip.Timer.VirtualizeAlarmC
import Backip.Timer.Proof.VirtualTimers
import Backip.Timer.Proof.TransformAlarm
import Backip.Timer.Proof.AlarmServed
import Backip.Timer.Proof.VirtualAlarms
import Backip.Timer.Proof.VirtualAlarmServed
import Backip.Serial.Proof.Dispatcher
import Backip.Serial.Proof.Acks
import Backip.Serial.Proof.Delivery
import Backip.System.FragmentPoolImplP
import Backip.System.Proof.FragmentPool
import Backip.Ctp.CtpRoutingEngineP
import Backip.Ctp.CtpForwardingEngineP
import Backip.Ctp.Proof.Beaconing
import Backip.Ctp.Proof.ParentSelection
import Backip.Ctp.Proof.Conservation
import Backip.Ctp.Proof.ForwarderProgress
import Backip.Ctp.Proof.RootDelivery
import Backip.Ctp.Proof.RefusedSend
import Backip.System.QueueC
import Backip.BackIP.Proof.Elements
import Backip.System.Proof.Pool
import Backip.Lib.CyclicScan
import Backip.System.ResourceQueues
import Backip.Lib.Recency
import Backip.System.LruIntCacheP
import Backip.Timer.TransformAlarmC
import Backip.Timer.AlarmToTimerC
import Backip.Ppp.HdlcFramingP
import Backip.Ppp.Proof.Fcs
import Backip.Ppp.Proof.Receive
import Backip.Ppp.Proof.Transmit
import Backip.Ppp.Proof.RoundTrip
import Backip.Serial.Proof.SendCompletes
import Backip.Lib.Stamped
import Backip.Drip.DisseminationEngineImplP
import Backip.Drip.Proof.Agreement
import Backip.Cc2420.UniqueReceiveP
import Backip.Cc2420.Proof.UniqueReceive
import Backip.Timer.TrickleTimerImplP
import Backip.Timer.Proof.Trickle
import Backip.Timer.TrickleTimed
import Backip.System.Types
import Backip.Lib.Probe
import Backip.Ctp.LinkEstimatorP
import Backip.Ctp.Proof.LinkFrames
import Backip.Ctp.Proof.NeighborTable
import Backip.Lib.Observed
import Backip.Ctp.Proof.LinkEstimates
import Backip.Ctp.CtpP
import Backip.Ctp.Proof.RouteTables
import Backip.Cc2420.PacketLinkP
import Backip.Cc2420.Proof.PacketLink
import Backip.Lib.Inputs
import Backip.Stm25p.Stm25pLogP
import Backip.Stm25p.Proof.LogServing
import Backip.Stm25p.Proof.LogClients
import Backip.BackIP.Proof.TableCalls
import Backip.BackIP.Proof.LinkTime
import Backip.BackIP.Proof.Hearing
import Backip.Ppp.LcpAutomatonP
import Backip.Ppp.Proof.LcpStep
import Backip.Ppp.Proof.LcpProgress
import Backip.Ppp.Proof.LcpLayer
import Backip.At45db.ConfigStorageP
import Backip.At45db.Proof.ConfigHalves
import Backip.At45db.ConfigPower
import Backip.At45db.Proof.ConfigPower
import Backip.Lib.Ring
import Backip.BackIP.Proof.StackList
import Backip.Blip.Proof.RouteUpdates
import Backip.Blip.Proof.Fitting
import Backip.BCP.Proof.Snooping
import Backip.BackIP.Proof.Rewriting
import Backip.BackIP.Delay
import Backip.BackIP.Proof.QueueMemory
import Backip.BackIP.Proof.Delay
import Backip.BCP.Proof.Accesses
import Backip.BCP.Proof.Streaks
import Backip.BCP.RateController
import Backip.Blip.Proof.OptionWalk
import Backip.System.Proof.ScatterGather
import Backip.Blip.UdpP
import Backip.Lib.OnesComplement
import Backip.System.InCksum
import Backip.Lib.BitField
import Backip.Serial.Message
import Backip.Coap.Encode
import Backip.Coap.Proof.RoundTrip
import Backip.System.PowerManagerP
