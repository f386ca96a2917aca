import Redpine.Endpoint
import Redpine.ReliableChannel
import Redpine.Reorder
import Redpine.SegmentRxReorder
import Redpine.SegmentTxWindow
import Redpine.SegmentTxNonce
import Redpine.SegmentTxAck
import Redpine.Parity
import Redpine.SegmentChannel
import Redpine.SegmentResync
import Redpine.WireCodec
import Redpine.FragmentFlush
import Redpine.EndpointSender
import Redpine.EndpointReceiver
import Redpine.EndpointStep
import Redpine.EndpointSafety
import Redpine.EndpointHost
import Redpine.EndpointTimeout
import Redpine.WireRoundTrip
import Redpine.UnreliableChannel
import Redpine.Client
import Redpine.ClientRun
import Redpine.ClientLifecycle
import Redpine.HandshakeMac
import Redpine.Server
import Redpine.ServerRun
import Redpine.ServerStep
import Redpine.ServerTable
import Redpine.SipHash
import Redpine.ServerAddress
import Redpine.ServerReply
import Redpine.CloseNonces
import Redpine.ServerTimers
import Redpine.EndpointLife
import Redpine.ServerEvents
import Redpine.ServerReplay
import Redpine.ConnectionLifecycle
import Redpine.DisconnectAgreement
import Redpine.EndpointInbox
import Redpine.EndpointDelivery
import Redpine.EndpointStall
import Redpine.SegmentReception
import Redpine.ReorderTolerance
import Redpine.SegmentReordering
import Redpine.DropDetection
import Redpine.ReliableResend
import Redpine.SegmentAccounting
import Redpine.FragmentTransfer
import Redpine.FragmentExpiry
import Redpine.EndpointSegments
import Redpine.EndpointFlush
import Redpine.CongestionLap
import Redpine.Lfsr
import Redpine.CrcTable
import Redpine.CrcDetection
import Redpine.CrcDistance
import Redpine.PrioFairness
import Redpine.AimdWindow
import Redpine.TimerRotation
import Redpine.SimpleFrames
import Redpine.EventFetch
import Redpine.NonceHistory
import Redpine.ClientCalls
import Redpine.ClientSafety
import Redpine.ServerSafety
import Redpine.Network
import Redpine.NetworkDelivery
import Redpine.NetworkProgress
import Redpine.ServerAmplification
import Redpine.EndpointCongestion
import Redpine.EndpointSilence
import Redpine.EndpointTraffic
import Redpine.EndpointWire
import Redpine.NetworkWire
import Redpine.NetworkClosing
import Redpine.ServerService
import Redpine.ClientAttempt
