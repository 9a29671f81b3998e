import Outbox.Native.Schema

/-!
# Messages and retry strategies

`OutboxInnerMessage` (`message.py`) is the in-memory copy of a claimed row. The handler
and the ack middleware only record an `Outcome` on it; the worker writes it later. Which
outcome a nack records is decided by the retry strategy (`retry.py`).

The columns of the row that nothing in memory changes are the field `row`; the three that
`_record_attempt` updates are fields of their own. Delays and clocks are in microseconds.
-/

namespace Outbox

/-- An exception, as far as the code looks at it: its type's name and its `repr`. -/
structure PyException where
  typeName : String
  /-- `none` if its `__repr__` raises. -/
  repr : Option String
deriving DecidableEq, Repr

/-- `DLQFailureReason`. -/
inductive DlqFailureReason where
  | maxDeliveries
  | retryTerminal
  | rejected
deriving DecidableEq, Repr

/-- The literal the reason is stored and tagged as. -/
def DlqFailureReason.text : DlqFailureReason → String
  | .maxDeliveries => "max_deliveries"
  | .retryTerminal => "retry_terminal"
  | .rejected => "rejected"

/-- The canonical delivery outcome: `Ack | Retry | Terminal`. -/
inductive Outcome where
  | ack
  | retry (delaySeconds : Int)
  | terminal (reason : DlqFailureReason)
deriving DecidableEq, Repr

/-! ## Retry strategies -/

/-- The knobs of `_RetryStrategyTemplate` and its abstract `_delay_seconds`, which may
    draw a random number (the jitter) and may raise. `__post_init__` checks the knobs. -/
structure RetryStrategyTemplate where
  maxAttempts : Option Nat
  maxTotalDelaySeconds : Option Int
  delaySeconds : (attemptsCount : Nat) → (draw : Int) → Except PyException Int
  maxAttempts_pos : ∀ m, maxAttempts = some m → 1 ≤ m
  maxTotalDelaySeconds_pos : ∀ total, maxTotalDelaySeconds = some total → 0 < total

/-- `_RetryStrategyTemplate.get_next_attempt_delay`; `none` is terminal. -/
def RetryStrategyTemplate.getNextAttemptDelay (s : RetryStrategyTemplate)
    (firstAttemptAt lastAttemptAt : Int) (attemptsCount : Nat) (draw : Int) :
    Except PyException (Option Int) :=
  if s.maxAttempts.any fun m => decide (m ≤ attemptsCount) then
    .ok none
  else
    match s.delaySeconds attemptsCount draw with
    | .error e => .error e
    | .ok delay =>
      -- the total delay is spent on the attempts so far and the delay to come
      if s.maxTotalDelaySeconds.any fun total =>
          decide (total < (lastAttemptAt - firstAttemptAt) + delay) then
        .ok none
      else
        .ok (some delay)

/-- A strategy a subscriber is configured with. -/
inductive RetryStrategy where
  /-- `NoRetry`: the first nack is terminal. -/
  | noRetry
  /-- `ConstantRetry`, `LinearRetry` and `ExponentialRetry`: the template. -/
  | template (s : RetryStrategyTemplate)
  /-- A user's implementation of `RetryStrategyProto`. -/
  | custom (get : (firstAttemptAt lastAttemptAt : Int) → (attemptsCount : Nat) →
      (exception : Option PyException) → (draw : Int) → Except PyException (Option Int))

/-- `get_next_attempt_delay` of a strategy. -/
def RetryStrategy.getNextAttemptDelay (s : RetryStrategy) (firstAttemptAt lastAttemptAt : Int)
    (attemptsCount : Nat) (exception : Option PyException) (draw : Int) :
    Except PyException (Option Int) :=
  match s with
  | .noRetry => .ok none
  | .template t => t.getNextAttemptDelay firstAttemptAt lastAttemptAt attemptsCount draw
  | .custom get => get firstAttemptAt lastAttemptAt attemptsCount exception draw

/-! ## Messages -/

/-- The in-memory copy of a claimed row. -/
structure OutboxInnerMessage where
  row : Row
  attemptsCount : Nat
  firstAttemptAt : Option Int
  lastAttemptAt : Option Int
  retryStrategy : Option RetryStrategy := none
  lastException : Option PyException := none
  outcome : Option Outcome := none
  claimedAtMonotonic : Int
  handlerDurationSeconds : Option Int := none

/-- The clocks and the random number one stretch of code reads. -/
structure Reading where
  utcnow : Int := 0
  monotonic : Int := 0
  perfCounter : Int := 0
  draw : Int := 0
deriving DecidableEq, Repr

namespace OutboxInnerMessage

/-- The message a fetch builds from a row it claimed. -/
def ofRow (row : Row) (monotonic : Int) : OutboxInnerMessage :=
  { row := row
    attemptsCount := row.attemptsCount
    firstAttemptAt := row.firstAttemptAt
    lastAttemptAt := row.lastAttemptAt
    claimedAtMonotonic := monotonic }

/-- What tells one claim of one row apart: the row's id and the token of the claim. -/
def key (m : OutboxInnerMessage) : Nat × Option UUID := (m.row.id, m.row.acquiredToken)

/-- `state_set`. -/
def stateSet (m : OutboxInnerMessage) : Bool := m.outcome.isSome

/-- `terminal_failure_reason`: the reason of a `Terminal` outcome. -/
def terminalFailureReason (m : OutboxInnerMessage) : Option DlqFailureReason :=
  match m.outcome with
  | some (.terminal reason) => some reason
  | _ => none

/-- `pending_delay_seconds`: the delay of a `Retry` outcome. -/
def pendingDelaySeconds (m : OutboxInnerMessage) : Option Int :=
  match m.outcome with
  | some (.retry delay) => some delay
  | _ => none

/-- `_record_attempt`. -/
def recordAttempt (m : OutboxInnerMessage) (utcnow : Int) : OutboxInnerMessage :=
  { m with
    attemptsCount := m.attemptsCount + 1
    lastAttemptAt := some utcnow
    firstAttemptAt := some (m.firstAttemptAt.getD utcnow) }

/-- `ack`: a no-op once an outcome is recorded. -/
def ack (m : OutboxInnerMessage) (r : Reading) : OutboxInnerMessage :=
  if m.stateSet then m
  else { m.recordAttempt r.utcnow with outcome := some .ack }

/-- The outcome `_nack` records for a message whose attempt is recorded. A strategy that
    raises is a terminal failure, like one that gives up. -/
def nackOutcome (m : OutboxInnerMessage) (draw : Int) : Outcome :=
  match m.retryStrategy with
  | none => .terminal .retryTerminal
  | some strategy =>
    match strategy.getNextAttemptDelay (m.firstAttemptAt.getD 0) (m.lastAttemptAt.getD 0)
        m.attemptsCount m.lastException draw with
    | .error _ => .terminal .retryTerminal
    | .ok none => .terminal .retryTerminal
    | .ok (some delay) => .retry delay

/-- `nack`: ask the retry strategy, once an attempt is recorded. -/
def nack (m : OutboxInnerMessage) (r : Reading) : OutboxInnerMessage :=
  if m.stateSet then m
  else
    let m := m.recordAttempt r.utcnow
    { m with outcome := some (m.nackOutcome r.draw) }

/-- `reject`. -/
def reject (m : OutboxInnerMessage) (r : Reading) : OutboxInnerMessage :=
  if m.stateSet then m
  else { m.recordAttempt r.utcnow with outcome := some (.terminal .rejected) }

/-- `allow_delivery`: past the cap, the message is marked for deletion. -/
def allowDelivery (m : OutboxInnerMessage) (maxDeliveries : Option Nat) :
    Bool × OutboxInnerMessage :=
  if maxDeliveries.any fun cap => decide (cap < m.row.deliveriesCount) then
    (false, { m with outcome := some (.terminal .maxDeliveries) })
  else
    (true, m)

/-- `assert_state_set`: nack a failed delivery that recorded nothing, reject a handler that
    returned cleanly and forgot to ack. -/
def assertStateSet (m : OutboxInnerMessage) (r : Reading) : OutboxInnerMessage :=
  if m.stateSet then m
  else if m.lastException.isSome then m.nack r
  else m.reject r

end OutboxInnerMessage

/-- What the handler and the middlewares around it do to the message. -/
inductive HandlerAct where
  | ack (r : Reading)
  | nack (r : Reading)
  | reject (r : Reading)
  /-- `_CaptureExceptionMiddleware` stashes the handler's exception. -/
  | capture (e : PyException)
deriving DecidableEq, Repr

/-- One of them, on the message. -/
def HandlerAct.run (a : HandlerAct) (m : OutboxInnerMessage) : OutboxInnerMessage :=
  match a with
  | .ack r => m.ack r
  | .nack r => m.nack r
  | .reject r => m.reject r
  | .capture e => { m with lastException := some e }

end Outbox
