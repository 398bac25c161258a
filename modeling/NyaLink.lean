import NyaLink.Library.OrdMap
import NyaLink.Library.Segments
import NyaLink.Library.Machine
import NyaLink.Proto.Frame
import NyaLink.Stream.State
import NyaLink.Stream.Close
import NyaLink.Stream.Receive
import NyaLink.Stream.Delivery
import NyaLink.Stream.Ack
import NyaLink.Stream.Link
import NyaLink.Stream.Flow
import NyaLink.Stream.Sound
import NyaLink.Stream.Conservation
import NyaLink.Stream.FlowControl
import NyaLink.Stream.ZeroWindow
import NyaLink.Stream.GracefulClose
import NyaLink.Stream.Wakeup
import NyaLink.Session.Scheduler
import NyaLink.Session.State
import NyaLink.Session.Events
import NyaLink.Session.Retry
import NyaLink.Session.Steps
import NyaLink.Session.Moves
import NyaLink.Session.Resend
import NyaLink.Session.Steered
import NyaLink.Session.Tidy
import NyaLink.Session.Books
import NyaLink.Session.Inflight
import NyaLink.Session.Upkeep
import NyaLink.Session.Dropped
import NyaLink.Session.Table
import NyaLink.Session.Scorecard
import NyaLink.Session.Accept
import NyaLink.Stream.EndOfFile
import NyaLink.Stream.Credit
import NyaLink.Session.PathStatus
import NyaLink.Session.AckRegister
import NyaLink.Client.Join
import NyaLink.Server.SessionTable
import NyaLink.Library.Parse
import NyaLink.Proto.Wire
import NyaLink.Proto.Codec
import NyaLink.Proto.Truncated
import NyaLink.Server.Handshake
import NyaLink.Client.Handshake
import NyaLink.Server.Agreement
import NyaLink.Library.Choice
import NyaLink.Session.Budget
import NyaLink.Session.Windowed
import NyaLink.Session.Picker
import NyaLink.Session.PickerContract
import NyaLink.Session.RetryChoice
import NyaLink.Session.LostPieces
import NyaLink.Session.RecvCap
import NyaLink.Session.Endings
import NyaLink.Session.Intake
import NyaLink.Session.Overflow
import NyaLink.Session.Controls
import NyaLink.Session.RetryPass
import NyaLink.Session.ControlRetry
import NyaLink.Session.TriedOnce
import NyaLink.Session.HalfClose
import NyaLink.Session.FinRecord
import NyaLink.Session.AckRelay
import NyaLink.Session.AckRelaySound
import NyaLink.Session.AckStranded
import NyaLink.Session.Silence
import NyaLink.Session.PathCap
import NyaLink.Session.Sticky
import NyaLink.Hop.Copy
import NyaLink.Hop.Tunnel
import NyaLink.Hop.OriginRace
import NyaLink.Hop.Poll
import NyaLink.Hop.PollRefines
import NyaLink.Library.Exposition
import NyaLink.Metrics.Catalog
import NyaLink.Library.Runs
import NyaLink.Session.Sack
import NyaLink.Session.WindowMax
import NyaLink.Library.Descent
import NyaLink.Session.ClassRtt
import NyaLink.Session.StreamIds
import NyaLink.Session.HolPass
import NyaLink.Session.HolSettles
import NyaLink.Session.RestickSpacing
import NyaLink.Session.Probe
import NyaLink.Session.ProbeTimer
import NyaLink.Session.PathWriter
import NyaLink.Library.Ledger
import NyaLink.Session.AckClock
import NyaLink.Session.Death
import NyaLink.Client.Reconnect
import NyaLink.Library.Amortized
import NyaLink.Library.Notify
import NyaLink.Session.QueueWait
import NyaLink.Session.BudgetPark
import NyaLink.Library.HoldTimer
import NyaLink.Session.Outliers
import NyaLink.Library.Split
import NyaLink.Proto.TargetText
