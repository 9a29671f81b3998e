import Outbox.Native.System

/-!
# One dispatch

`dispatch_one` without a buffer, as its caller sees it: from the claim to the write of the
outcome, one client call at a time, with the code of users that runs on the way. That code is
the handler, under the ack middleware of FastStream, the retry strategy, the metrics recorder
and the renderer of the `last_exception` column; each of them may raise.
-/

namespace Outbox

/-! ## The handler and its middlewares -/

/-- The values of `AckPolicy` that `_validate` admits. -/
inductive AckPolicy where
  | nackOnError
  | rejectOnError
  | manual
deriving DecidableEq, Repr

/-- A call on a message that records an outcome. -/
inductive Settle where
  | ack
  | nack
  | reject
deriving DecidableEq, Repr

/-- The call, with what it reads. -/
def Settle.act (c : Settle) (r : Reading) : HandlerAct :=
  match c with
  | .ack => .ack r
  | .nack => .nack r
  | .reject => .reject r

/-- How a handler ends. -/
inductive HandlerEnd where
  | returned
  | raised (e : PyException)
  /-- `AckMessage`, `NackMessage` and `RejectMessage`: an exception that asks the middleware
      for the call. -/
  | asked (e : PyException) (call : Settle)
deriving DecidableEq, Repr

/-- The exception it raised. -/
def HandlerEnd.exception (ending : HandlerEnd) : Option PyException :=
  match ending with
  | .returned => none
  | .raised e => some e
  | .asked e _ => some e

/-- The call of the ack middleware; `MANUAL` disables it. -/
def AckPolicy.call (policy : AckPolicy) (ending : HandlerEnd) : Option Settle :=
  match policy, ending with
  | .manual, _ => none
  | _, .returned => some .ack
  | _, .asked _ call => some call
  | .nackOnError, .raised _ => some .nack
  | .rejectOnError, .raised _ => some .reject

/-- What a handler does: it may call `msg.ack()`, `msg.nack()` and `msg.reject()` any number
    of times before it ends. -/
structure HandlerRun where
  calls : List (Settle × Reading)
  ending : HandlerEnd
  /-- What the call of the middleware reads. -/
  reading : Reading

/-- All that happens to the message: the exception is stashed on it before the ack middleware
    sees the end of the handler. -/
def HandlerRun.acts (h : HandlerRun) (policy : AckPolicy) : List HandlerAct :=
  (h.calls.map fun c => c.1.act c.2) ++ (h.ending.exception.toList.map .capture) ++
    ((policy.call h.ending).toList.map fun c => c.act h.reading)

/-- One run of `consume(row)`. -/
structure Consume where
  /-- `running` when it begins: otherwise it returns at once. -/
  running : Bool := true
  how : ConsumeEnd := .returned
  acts : List HandlerAct
  /-- `running` when it has ended. -/
  stillRunning : Bool := true
  /-- The clocks before it and after it. -/
  entered : Reading := {}
  left : Reading := {}

/-! ## dispatch_one -/

namespace Inline

/-- What a dispatch works on: the database, and the calls of the metrics recorder so far. -/
structure State where
  world : World
  metrics : List (Event × Tags) := []

/-- What escapes a flush. -/
inductive Raised where
  /-- An exception of the renderer. -/
  | renderer (e : PyException)
  /-- An exception of the client. -/
  | client (e : Error)
deriving DecidableEq, Repr

section Recorder

variable (recorder : Event → Tags → Except PyException Unit) (cfg : SubscriberConfig)

/-- `_emit_metric`. -/
def emitMetric (s : State) (event : Event) (tags : Tags) : State :=
  match recorder event tags with
  | .ok () => { s with metrics := s.metrics ++ [(event, tags)] }
  -- swallowed and logged
  | .error _ => { s with metrics := s.metrics ++ [(event, tags)] }

/-- `_emit_lease_lost`. -/
def emitLeaseLost (s : State) (m : OutboxInnerMessage) (phase : Phase) : State :=
  emitMetric recorder s .leaseLost
    { baseTags cfg m.row.queue with
      phase := some phase
      rowId := some m.row.id
      deliveriesCount := some m.row.deliveriesCount
      durationSeconds := m.handlerDurationSeconds }

/-- `_emit_dispatch_abandoned`. -/
def emitDispatchAbandoned (s : State) (m : OutboxInnerMessage) : State :=
  match m.handlerDurationSeconds with
  | none => s
  | some duration =>
    emitMetric recorder s .dispatchAbandoned
      { baseTags cfg m.row.queue with
        deliveriesCount := some m.row.deliveriesCount
        durationSeconds := some duration }

variable (b : Backend)

/-- `_flush_terminal`. -/
def flushTerminal (s : State) (m : OutboxInnerMessage) : Except Raised Bool × State :=
  match m.row.acquiredToken with
  | none => (.ok false, s)
  | some token =>
    match Worker.dlqPayload cfg m with
    | .error e => (.error (.renderer e), s)
    | .ok payload =>
      let r := s.world.step b (.deleteWithLease cfg.dlqTable m.row.id token payload)
      let s := { s with world := r.2 }
      match r.1 with
      | .deleted (.error e) => (.error (.client e), s)
      | .deleted (.ok true) =>
        (.ok true, if payload.isSome then
            emitMetric recorder s .dlqWritten
              (withExceptionType
                { baseTags cfg m.row.queue with
                  deliveriesCount := some m.row.deliveriesCount
                  failureReason := m.terminalFailureReason } m)
          else s)
      | _ => (.ok false, emitLeaseLost recorder cfg s m .terminal)

/-- `_flush_retry`. -/
def flushRetry (s : State) (m : OutboxInnerMessage) : Except Raised Bool × State :=
  match m.row.acquiredToken, m.pendingDelaySeconds with
  | some token, some delay =>
    let r := s.world.step b (.markPendingWithLease m.row.id token
      { delaySeconds := delay
        attemptsCount := m.attemptsCount
        firstAttemptAt := m.firstAttemptAt
        lastAttemptAt := m.lastAttemptAt })
    let s := { s with world := r.2 }
    match r.1 with
    | .rescheduled true => (.ok true, s)
    | _ => (.ok false, emitLeaseLost recorder cfg s m .retry)
  | _, _ => (.ok false, s)

/-- `_safe_flush`, and the metric of a flush that landed; whether it raised. Without a writer
    connection there is nothing to rebuild, and the exception is logged. -/
def safeFlush (writerConn : Bool) (flush : Except Raised Bool × State) (m : OutboxInnerMessage)
    (event : Event) (tags : Tags) : Bool × State :=
  match flush with
  | (.ok true, s) => (false, emitMetric recorder s event tags)
  | (.ok false, s) => (false, s)
  | (.error _, s) => (writerConn, emitDispatchAbandoned recorder cfg s m)

/-- `_write_outcome` without a buffer; whether it raised. -/
def writeOutcome (writerConn stillRunning : Bool) (r : Reading) (s : State)
    (m : OutboxInnerMessage) : Bool × State :=
  if !m.stateSet && !stillRunning then
    (false, emitDispatchAbandoned recorder cfg s m)
  else
    let m := m.assertStateSet r
    let common : Tags :=
      { baseTags cfg m.row.queue with
        deliveriesCount := some m.row.deliveriesCount
        durationSeconds := m.handlerDurationSeconds }
    match m.outcome with
    | some (.terminal reason) =>
      safeFlush recorder cfg writerConn (flushTerminal recorder cfg b s m) m .nackedTerminal
        (withExceptionType { common with reason := some reason } m)
    | some (.retry delay) =>
      safeFlush recorder cfg writerConn (flushRetry recorder cfg b s m) m .nackedRetried
        (withExceptionType { common with nextDelaySeconds := some delay } m)
    | _ => safeFlush recorder cfg writerConn (flushTerminal recorder cfg b s m) m .acked common

/-- `dispatch_one` without a buffer; whether it raised. -/
def dispatchOne (writerConn : Bool) (s : State) (m : OutboxInnerMessage) (c : Consume) :
    Bool × State :=
  let m := { m with retryStrategy := cfg.retryStrategy }
  let base := { baseTags cfg m.row.queue with deliveriesCount := some m.row.deliveriesCount }
  let (allowed, m) := m.allowDelivery cfg.maxDeliveries
  if !allowed then
    safeFlush recorder cfg writerConn (flushTerminal recorder cfg b s m) m .nackedTerminal
      { base with reason := some .maxDeliveries }
  else
    let s := emitMetric recorder s .dispatched { base with sizeBytes := some m.row.payload.length }
    let m := if c.running then c.acts.foldl (fun m a => a.run m) m else m
    let m := { m with
      handlerDurationSeconds := some (c.left.perfCounter - c.entered.perfCounter) }
    match if c.running then c.how else .returned with
    | .returned | .stopConsume => writeOutcome recorder cfg b writerConn c.stillRunning c.left s m
    -- the outcome is written, and the error is raised again
    | .configError => (true, (writeOutcome recorder cfg b writerConn c.stillRunning c.left s m).2)
    | .exception => (false, emitDispatchAbandoned recorder cfg s m)
    | .cancelledError => (true, s)

end Recorder

end Inline

end Outbox
