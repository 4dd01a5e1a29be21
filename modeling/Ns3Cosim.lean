import Ns3Cosim.Words.Occurrence
import Ns3Cosim.Words.Cut
import Ns3Cosim.Words.Overlap
import Ns3Cosim.Execution.EventQueue
import Ns3Cosim.Execution.Transition
import Ns3Cosim.Gateway.Delimiters
import Ns3Cosim.Gateway.Header
import Ns3Cosim.Gateway.Core
import Ns3Cosim.Gateway.System
import Ns3Cosim.Gateway.Steps
import Ns3Cosim.Gateway.Handles
import Ns3Cosim.Gateway.LockStep
import Ns3Cosim.Gateway.Handoff
import Ns3Cosim.Gateway.StalePause
import Ns3Cosim.Gateway.Clock
import Ns3Cosim.Gateway.Ledger
import Ns3Cosim.Gateway.CallbackLog
import Ns3Cosim.Gateway.Timestamps
import Ns3Cosim.Gateway.PeerClose
import Ns3Cosim.Gateway.JoinDeadlock
import Ns3Cosim.Gateway.Decimal
import Ns3Cosim.Gateway.Inbound
import Ns3Cosim.Words.Unambiguous
import Ns3Cosim.Gateway.ResponseDecoding
import Ns3Cosim.TriggeredSend.Application
import Ns3Cosim.TriggeredSend.System
import Ns3Cosim.Pacing.Pacer
import Ns3Cosim.TriggeredSend.Steps
import Ns3Cosim.Execution.Handle
import Ns3Cosim.TriggeredSend.SendPacketEvent
import Ns3Cosim.TriggeredSend.StoppedSend
import Ns3Cosim.TriggeredSend.Pacing
import Ns3Cosim.TriggeredSend.Burst
import Ns3Cosim.Gateway.Segmentation
import Ns3Cosim.Gateway.HandedData
import Ns3Cosim.Gateway.HeaderGrammar
import Ns3Cosim.Execution.Work
import Ns3Cosim.Gateway.Quiescence
import Ns3Cosim.Gateway.TimeRange
import Ns3Cosim.Execution.Leads
import Ns3Cosim.Mobility.ExternalMobilityModel
import Ns3Cosim.SimpleGateway.Vehicles
import Ns3Cosim.SimpleGateway.Server
import Ns3Cosim.SimpleGateway.System
import Ns3Cosim.SimpleGateway.Steps
import Ns3Cosim.SimpleGateway.Messages
import Ns3Cosim.SimpleGateway.Stream
import Ns3Cosim.Gateway.Drained
import Ns3Cosim.Gateway.WellFormed
import Ns3Cosim.SimpleGateway.Callbacks
import Ns3Cosim.SimpleGateway.Safety
import Ns3Cosim.Execution.Exchange
import Ns3Cosim.SimpleGateway.LockStep
import Ns3Cosim.Gateway.Increasing
import Ns3Cosim.Gateway.Progress
import Ns3Cosim.SimpleGateway.Blocked
import Ns3Cosim.SimpleGateway.Progress
import Ns3Cosim.SimpleGateway.Mismatch
import Ns3Cosim.Mobility.ExternalMobilityExample
import Ns3Cosim.Gateway.Unreadable
import Ns3Cosim.Gateway.LockStep64
