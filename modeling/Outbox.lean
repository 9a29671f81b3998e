import Outbox.ForStd.Binary64
import Outbox.ForStd.Least
import Outbox.ForStd.PyNum
import Outbox.Native.Envelope
import Outbox.Native.Lag
import Outbox.Native.Response
import Outbox.Native.Retry
import Outbox.Native.System
import Outbox.Spec.ArchiveDelete
import Outbox.Spec.BatchFlush
import Outbox.Spec.BufferAge
import Outbox.Spec.ChainedResponse
import Outbox.Spec.ClaimProgress
import Outbox.Spec.ClientRefinement
import Outbox.Spec.Delivery
import Outbox.Spec.DeliveryCap
import Outbox.Spec.DispatchClosed
import Outbox.Spec.DispatchOutcome
import Outbox.Spec.Drain
import Outbox.Spec.EnvelopeRoundTrip
import Outbox.Spec.ExponentialRetry
import Outbox.Spec.FakeInvariant
import Outbox.Spec.FetchesAgain
import Outbox.Spec.History
import Outbox.Spec.KeepsRunning
import Outbox.Spec.LagProbe
import Outbox.Spec.NoRowLost
import Outbox.Spec.NotifyDedup
import Outbox.Spec.Prefetch
import Outbox.Spec.ProcessMessage
import Outbox.Spec.Recorders
import Outbox.Spec.RetryAccounting
import Outbox.Spec.RetrySchedule
import Outbox.Spec.StopFinishes
import Outbox.Spec.SubscriberSteps
import Outbox.Spec.SyncDispatch
import Outbox.Spec.TimelyLeases
import Outbox.Spec.TimerJoin
import Outbox.Spec.Timers
import Outbox.Spec.Transactions
import Outbox.Spec.WakeUps
import Outbox.Spec.WriterRecycling
