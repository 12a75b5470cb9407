import Pane.Offers
import Pane.RoutePipes
import Pane.TeardownNotices
import Pane.Callbacks
import Pane.Unwinding
import Pane.CoreDispatch
import Pane.CoreRequest
import Pane.Looper
import Pane.CallbackEffects
import Pane.Cascades
import Pane.Destruction
import Pane.LiveCore
import Pane.Resolutions
import Pane.RequestSafety
import Pane.CoreRuns
import Pane.LooperSafety
import Pane.VisibleEvents
import Pane.BatchPhases
import Pane.SubscriberView
import Pane.ArrivalOrder
import Pane.ExactlyOnce
import Pane.ReplyScope
import Pane.PanicContainment
import Pane.Framing
import Pane.Links
import Pane.DecoderAgreement
import Pane.StreamRoundTrip
import Pane.Attempts
import Pane.OverflowDrain
import Pane.Overflow
import Pane.Watches
import Pane.GhostConnections
import Pane.DeathWatch
import Pane.FrameLimits
import Pane.BatchScheduling
import Pane.CoreSteps
import Pane.AnsweredRequests
import Pane.ConnectionSource
import Pane.ConnectionLoss
import Pane.Streams
import Pane.SteadyRuns
import Pane.WireSystem
import Pane.WireHistory
import Pane.InOrderDelivery
import Pane.ContextEffects
import Pane.LooperHistory
import Pane.ExitReasons
import Pane.LooperPlan
import Pane.PeerBytes
import Pane.RequestCap
import Pane.UnsentRequests
import Pane.BufferedMessages
import Pane.ServedProtocols
import Pane.Publishing
import Pane.OutboundOrder
import Pane.Verdicts
import Pane.OpeningServices
import Pane.PaneNetwork
import Pane.SourceRuns
import Pane.WritePath
import Pane.SleepingSources
import Pane.ReadPaths
import Pane.DeclinedInterests
import Pane.ProviderSelection
import Pane.Departures
import Pane.ActorPanics
import Pane.Bystanders
import Pane.QuietRequests
import Pane.TraceAccounts
import Pane.Provenance
import Pane.ReplyMatching
import Pane.RejectedStreams
import Pane.JsonText
import Pane.JsonKeys
import Pane.Attributes
import Pane.LengthPrefix
import Pane.AttributeWrites
import Pane.HandshakeProgress
import Pane.AcceptedConnections
import Pane.AttributeText
import Pane.BatchLimit
import Pane.ReadyFirst
import Pane.Revocations
import Pane.CoreMoves
import Pane.EntrySteps
import Pane.BatchOrder
import Pane.TryRequests
import Pane.WaitingCallers
import Pane.LiveMoves
import Pane.TokenTables
import Pane.AtRest
import Pane.Heartbeats
import Pane.PlainLoop
