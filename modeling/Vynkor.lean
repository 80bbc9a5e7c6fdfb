import Vynkor.Library.Octets
import Vynkor.Library.ExactReader
import Vynkor.Library.TimedReader
import Vynkor.Library.Machine
import Vynkor.Library.Settling
import Vynkor.Library.Lockstep
import Vynkor.Library.Table
import Vynkor.Library.Interleaving
import Vynkor.Library.Tickets
import Vynkor.Text
import Vynkor.Errors
import Vynkor.Protocol
import Vynkor.Framing
import Vynkor.FrameBytes
import Vynkor.FrameRoundTrip
import Vynkor.FrameAuthenticity
import Vynkor.PrecompressedFrames
import Vynkor.ReaderAgreement
import Vynkor.FrameReadTimeout
import Vynkor.Reassembly
import Vynkor.Client
import Vynkor.FrameAddressing
import Vynkor.Session
import Vynkor.Fragmentation
import Vynkor.FragmentedSend
import Vynkor.ReassemblyInvariant
import Vynkor.FragmentRoundTrip
import Vynkor.ReassemblyTimeout
import Vynkor.MalformedInput
import Vynkor.MacDowngrade
import Vynkor.ConnectionScope
import Vynkor.SessionKeys
import Vynkor.ReceiveCancellation
import Vynkor.KernelRequests
import Vynkor.WebSocketTraffic
import Vynkor.TransportAgreement
import Vynkor.ActionCorrelation
import Vynkor.AnswerOwnership
import Vynkor.ConcurrentLoop
import Vynkor.PluginServe
import Vynkor.PluginRun
import Vynkor.RunOverWire
import Vynkor.HookRequests
import Vynkor.ServeConcurrent
import Vynkor.LoopAgreement
import Vynkor.ReplyDelivery
import Vynkor.ReplyOrder
import Vynkor.ReplyBacklog
import Vynkor.ConcurrentOverWire
import Vynkor.Json
import Vynkor.JsonText
import Vynkor.JsonRoundTrip
import Vynkor.ConfirmationGate
import Vynkor.ConfirmationRuns
import Vynkor.ConfirmationAgreement
import Vynkor.ConfirmationJson
import Vynkor.RouteAnswers
import Vynkor.GatedLoop
import Vynkor.PendingBound
import Vynkor.GateFamily
import Vynkor.Allowlist
import Vynkor.ConfirmerInterference
import Vynkor.EchoPlugin
