import Outbox.Native.World
import Outbox.Native.Message

/-!
# Subscribers: configuration, metrics and shared state

What the tasks of one `OutboxSubscriber` (`subscriber/usecase.py`) share: its knobs, the
in-flight queue with `asyncio.Queue`'s unfinished count, the two flags `stop()` flips, and
the claim lock. A task runs between two awaits without interruption; `Frame` is what one
such stretch of a worker mutates.

The log records what the tasks did, newest last: the metrics they emitted and, for the
proofs, the life of each claim. Waits that end on a timeout may end at any time.
-/

namespace Outbox

/-! ## Configuration -/

/-- The knobs of one subscriber and of the broker it belongs to. `__post_init__` rejects
    those that are not valid. -/
structure SubscriberConfig where
  queues : List String
  maxWorkers : Nat
  retryStrategy : Option RetryStrategy
  fetchBatchSize : Nat
  leaseTtlSeconds : Int
  /-- The broker's `graceful_timeout`. -/
  gracefulTimeout : Option Int
  maxDeliveries : Option Nat
  terminalFlushBatchSize : Nat
  /-- The broker has an engine; the test broker has none, and no connections. -/
  engine : Bool
  /-- The broker was built with a `dlq_table`. -/
  dlqTable : Bool
  /-- The broker's renderer of the `last_exception` column, which may raise. -/
  lastExceptionRenderer : Option (PyException → Except PyException (Option String))
  callName : String
  /-- `_validate`. -/
  valid : 1 ≤ maxWorkers ∧ 1 ≤ fetchBatchSize ∧ 1 ≤ terminalFlushBatchSize ∧
    0 < leaseTtlSeconds ∧ ∀ m ∈ maxDeliveries, 1 ≤ m := by decide

/-- `_refill_at`: the number of free slots that makes a fetch worthwhile. -/
def SubscriberConfig.refillAt (cfg : SubscriberConfig) : Nat := max 1 (cfg.fetchBatchSize / 2)

/-- `_DEFAULT_DRAIN_TIMEOUT_SECONDS`, in microseconds. -/
def defaultDrainTimeoutSeconds : Int := 15000000

/-- `_LAST_EXCEPTION_MAX_CHARS`. -/
def lastExceptionMaxChars : Nat := 8192

/-- `_TRUNCATION_SUFFIX`. -/
def truncationSuffix : String := "…[truncated]"

/-- `_truncate_str`. -/
def truncateStr (rendered : String) : String :=
  if rendered.length ≤ lastExceptionMaxChars then rendered
  else String.ofList (rendered.toList.take (lastExceptionMaxChars - truncationSuffix.length)) ++
    truncationSuffix

/-- `_render_last_exception`. -/
def renderLastException (exc : Option PyException)
    (renderer : Option (PyException → Except PyException (Option String))) :
    Except PyException (Option String) :=
  match exc with
  | none => .ok none
  | some exc =>
    match renderer with
    | none =>
      match exc.repr with
      | some text => .ok (some (truncateStr text))
      -- what `__repr__` raised is not looked at
      | none => .error exc
    | some renderer => (renderer exc).map (Option.map truncateStr)

/-! ## Metrics -/

/-- The events a subscriber emits. -/
inductive Event where
  | fetched
  | dispatched
  | acked
  | nackedRetried
  | nackedTerminal
  | leaseLost
  | dispatchAbandoned
  | dlqWritten
  | drainTimeout
deriving DecidableEq, Repr

/-- The write that found its lease gone. -/
inductive Phase where
  | terminal
  | retry
deriving DecidableEq, Repr

/-- The tags of an event; `none` where the event does not carry the tag. -/
structure Tags where
  queue : String
  subscriber : String
  count : Option Nat := none
  deliveriesCount : Option Nat := none
  sizeBytes : Option Nat := none
  reason : Option DlqFailureReason := none
  durationSeconds : Option Int := none
  nextDelaySeconds : Option Int := none
  exceptionType : Option String := none
  phase : Option Phase := none
  rowId : Option Nat := none
  failureReason : Option DlqFailureReason := none
  drainTimeoutSeconds : Option Int := none
deriving DecidableEq, Repr

/-- `_base_tags`. -/
def baseTags (cfg : SubscriberConfig) (queue : String) : Tags :=
  { queue := queue, subscriber := cfg.callName }

/-- `_with_exception_type`. -/
def withExceptionType (tags : Tags) (m : OutboxInnerMessage) : Tags :=
  { tags with exceptionType := m.lastException.map PyException.typeName }

/-- A claim: the row's id and the token of the claim. -/
abbrev ClaimKey := Nat × Option UUID

/-- An entry of the log. -/
inductive Note where
  /-- A metric, and the claim it is about. -/
  | metric (key : Option ClaimKey) (event : Event) (tags : Tags)
  /-- A NOTIFY woke the subscriber. -/
  | notified
  /-- The fetch loop issued a fetch. -/
  | fetchIssued
  /-- A fetch returned the claim and put it on the in-flight queue. -/
  | returned (key : ClaimKey)
  /-- A worker found the message past `max_deliveries` and did not run the handler. -/
  | capped (m : OutboxInnerMessage)
  /-- The handler was invoked. -/
  | invoked (m : OutboxInnerMessage)
  /-- `dispatch_one` left the claim to lease expiry without a write: an exception escaped
      `consume()`, or nothing was recorded and `running` was `False` (the shutdown race). -/
  | leftToLease (key : ClaimKey)
  /-- `CancelledError` ended `consume()`. -/
  | interrupted (key : ClaimKey)
  /-- The inline delete or update of the claim was issued. -/
  | writeIssued (key : ClaimKey)
  /-- `dispatch_one` ended, by return or by exception, and left nothing buffered. -/
  | ended (key : ClaimKey)
  /-- `dispatch_one` ended and left the claim in the worker's buffer. -/
  | buffered (key : ClaimKey)
  /-- The batched delete of a buffered claim was issued. -/
  | batchIssued (key : ClaimKey)
  /-- `stop()` dropped the claim from the in-flight queue. -/
  | discarded (key : ClaimKey)

/-! ## Statements -/

/-- A batchable terminal delete that awaits its flush, with the metric to emit once it lands. -/
structure PendingFlush where
  row : OutboxInnerMessage
  event : Event
  tags : Tags

/-- A client call a task awaits, with the message it is about. -/
inductive Stmt where
  | fetch (token : UUID) (queues : List String) (limit : Nat) (leaseTtl : Int)
  | deleteWithLease (m : OutboxInnerMessage) (token : UUID) (dlqTable : Bool)
      (dlqPayload : Option DlqPayload)
  | markPendingWithLease (m : OutboxInnerMessage) (token : UUID) (delaySeconds : Int)
  | deleteBatchWithLease (pending : List PendingFlush)

/-- The pairs of a batched delete. -/
def flushPairs (pending : List PendingFlush) : List (Nat × UUID) :=
  pending.filterMap fun p => p.row.row.acquiredToken.map fun token => (p.row.row.id, token)

/-- The call, as the database sees it; `locked` are the rows others hold locked meanwhile. -/
def Stmt.op (stmt : Stmt) (locked : List Nat) : Op :=
  match stmt with
  | .fetch token queues limit leaseTtl => .fetch token queues limit leaseTtl locked
  | .deleteWithLease m token dlqTable payload =>
    .deleteWithLease dlqTable m.row.id token payload
  | .markPendingWithLease m token delay =>
    .markPendingWithLease m.row.id token
      { delaySeconds := delay
        attemptsCount := m.attemptsCount
        firstAttemptAt := m.firstAttemptAt
        lastAttemptAt := m.lastAttemptAt }
  | .deleteBatchWithLease pending => .deleteBatchWithLease (flushPairs pending)

/-! ## Shared state -/

/-- What the tasks of one subscriber share. -/
structure Shared where
  running : Bool := false
  stopping : Bool := false
  fetchGeneration : Nat := 0
  claimLocked : Bool := false
  /-- `_notify_event`. -/
  notifyEvent : Bool := false
  /-- The broker has no client (any more). -/
  clientGone : Bool := false
  /-- `_inflight`, oldest first. -/
  inflight : List OutboxInnerMessage := []
  /-- `_inflight._unfinished_tasks`. -/
  unfinished : Nat := 0
  /-- How often `_inflight._finished` was set: what wakes a `join()`. -/
  finishedSets : Nat := 0
  /-- A `put_nowait` found the queue full, or a `task_done` found nothing unfinished. -/
  fault : Bool := false

namespace Shared

/-- `_inflight.put_nowait`. -/
def putNowait (cfg : SubscriberConfig) (sh : Shared) (m : OutboxInnerMessage) : Shared :=
  if cfg.fetchBatchSize ≤ sh.inflight.length then
    -- QueueFull
    { sh with fault := true }
  else
    { sh with inflight := sh.inflight ++ [m], unfinished := sh.unfinished + 1 }

/-- `_inflight.task_done`. -/
def taskDone (sh : Shared) : Shared :=
  { sh with
    unfinished := sh.unfinished - 1
    finishedSets := if sh.unfinished = 1 then sh.finishedSets + 1 else sh.finishedSets
    -- ValueError: task_done() called too many times
    fault := sh.fault || sh.unfinished == 0 }

/-- A worker that took a row wakes the fetch loop once a fetch is worthwhile. -/
def signalRefill (cfg : SubscriberConfig) (sh : Shared) : Shared :=
  if cfg.refillAt ≤ cfg.fetchBatchSize - sh.inflight.length then { sh with notifyEvent := true }
  else sh

/-- `_reset_inflight`: a new, empty queue. -/
def resetInflight (sh : Shared) : Shared := { sh with inflight := [], unfinished := 0 }

end Shared

/-- What a worker mutates while it runs between two awaits. -/
structure Frame where
  shared : Shared
  buffer : List PendingFlush
  notes : List Note := []

namespace Frame

def note (f : Frame) (n : Note) : Frame := { f with notes := f.notes ++ [n] }

def taskDone (f : Frame) : Frame := { f with shared := f.shared.taskDone }

/-- `_emit_metric`, for a claim. -/
def emitMetric (f : Frame) (m : OutboxInnerMessage) (event : Event) (tags : Tags) : Frame :=
  f.note (.metric (some m.key) event tags)

/-- `_emit_lease_lost`: the write found its lease gone. -/
def emitLeaseLost (cfg : SubscriberConfig) (f : Frame) (m : OutboxInnerMessage) (phase : Phase) :
    Frame :=
  f.emitMetric m .leaseLost
    { baseTags cfg m.row.queue with
      phase := some phase
      rowId := some m.row.id
      deliveriesCount := some m.row.deliveriesCount
      durationSeconds := m.handlerDurationSeconds }

/-- `_emit_dispatch_abandoned`: only a claim whose handler ran has a `dispatched` to close. -/
def emitDispatchAbandoned (cfg : SubscriberConfig) (f : Frame) (m : OutboxInnerMessage) :
    Frame :=
  match m.handlerDurationSeconds with
  | none => f
  | some duration =>
    f.emitMetric m .dispatchAbandoned
      { baseTags cfg m.row.queue with
        deliveriesCount := some m.row.deliveriesCount
        durationSeconds := some duration }

end Frame

end Outbox
