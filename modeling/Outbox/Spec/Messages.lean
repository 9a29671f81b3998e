import Outbox.Native.System

/-!
# What is recorded on a message

A message leaves the in-flight queue as the copy of its row and changes once: an `ack`, a
`nack` or a `reject` records an outcome together with one attempt, and whatever is recorded
first stays. Past the delivery cap the outcome is recorded without an attempt. A statement
of a worker is then justified by what its message recorded.

## Key results

- `HandlerAct.run_recorded`, `assertStateSet_recorded`: the handler and the fallback record
  at most one attempt
- `Stmt.Justified`: what a statement says about its messages
-/

namespace Outbox

/-- `retry_strategy` lets an attempt that is recorded on the message be followed by another
    after `delay`. -/
def Granted (cfg : SubscriberConfig) (m : OutboxInnerMessage) (delay : Int) : Prop :=
  ∃ strategy exception draw, cfg.retryStrategy = some strategy ∧
    strategy.getNextAttemptDelay (m.firstAttemptAt.getD 0) (m.lastAttemptAt.getD 0)
      m.attemptsCount exception draw = .ok (some delay)

namespace OutboxInnerMessage

/-- The message is a copy of a leased row among the `known` ones. -/
structure Claimed (known : Row → Prop) (m : OutboxInnerMessage) : Prop where
  known : known m.row
  leased : m.row.acquiredToken.isSome

/-- Nothing is recorded on the message: its accounting is the row's. -/
structure Untouched (m : OutboxInnerMessage) : Prop where
  attempts : m.attemptsCount = m.row.attemptsCount
  first : m.firstAttemptAt = m.row.firstAttemptAt
  last : m.lastAttemptAt = m.row.lastAttemptAt
  outcome : m.outcome = none

/-- The message as a fetch builds it. -/
structure Fresh (m : OutboxInnerMessage) : Prop extends m.Untouched where
  exception : m.lastException = none
  duration : m.handlerDurationSeconds = none

/-- One attempt and its outcome are recorded on the message. -/
structure Attempted (cfg : SubscriberConfig) (m : OutboxInnerMessage) : Prop where
  attempts : m.attemptsCount = m.row.attemptsCount + 1
  outcome : ∃ o, m.outcome = some o ∧ o ≠ .terminal .maxDeliveries
  stamped : ∃ utcnow, m.lastAttemptAt = some utcnow ∧
    m.firstAttemptAt = some (m.row.firstAttemptAt.getD utcnow)
  granted : ∀ delay, m.outcome = some (.retry delay) → Granted cfg m delay

/-- The delivery is within the cap, and the message was handed the strategy. -/
structure Admitted (cfg : SubscriberConfig) (m : OutboxInnerMessage) : Prop where
  strategy : m.retryStrategy = cfg.retryStrategy
  cap : ∀ cap, cfg.maxDeliveries = some cap → m.row.deliveriesCount ≤ cap

/-- The delivery is past the cap, and the message is marked for deletion as it is. -/
structure Capped (cfg : SubscriberConfig) (m : OutboxInnerMessage) : Prop where
  attempts : m.attemptsCount = m.row.attemptsCount
  outcome : m.outcome = some (.terminal .maxDeliveries)
  exception : m.lastException = none
  duration : m.handlerDurationSeconds = none
  cap : ∃ cap, cfg.maxDeliveries = some cap ∧ cap < m.row.deliveriesCount

/-- What a handler leaves on an admitted message. -/
def Recorded (cfg : SubscriberConfig) (m : OutboxInnerMessage) : Prop :=
  m.Admitted cfg ∧ (m.Untouched ∨ m.Attempted cfg)

/-- What a worker writes: one attempt, or none past the cap. -/
def Settled (cfg : SubscriberConfig) (m : OutboxInnerMessage) : Prop :=
  m.Admitted cfg ∧ m.Attempted cfg ∨ m.Capped cfg

/-- The outcome is one of the two that delete the row: `Ack` or `Terminal`. -/
def Deletes (m : OutboxInnerMessage) : Prop :=
  m.outcome = some .ack ∨ ∃ reason, m.outcome = some (.terminal reason)

section Acts

variable {cfg : SubscriberConfig} {m : OutboxInnerMessage}

theorem Claimed.mono {known known' : Row → Prop} (h : m.Claimed known)
    (hmono : ∀ r, known r → known' r) : m.Claimed known' :=
  ⟨hmono _ h.known, h.leased⟩

theorem fresh_ofRow (row : Row) (monotonic : Int) : (ofRow row monotonic).Fresh where
  attempts := rfl
  first := rfl
  last := rfl
  outcome := rfl
  exception := rfl
  duration := rfl

theorem stateSet_iff : m.stateSet = true ↔ ∃ o, m.outcome = some o := by
  simp [stateSet, Option.isSome_iff_exists]

theorem Untouched.stateSet (h : m.Untouched) : m.stateSet = false := by
  simp [OutboxInnerMessage.stateSet, h.outcome]

theorem Attempted.stateSet (h : m.Attempted cfg) : m.stateSet = true := by
  obtain ⟨o, ho, _⟩ := h.outcome
  exact stateSet_iff.mpr ⟨o, ho⟩

theorem Capped.stateSet (h : m.Capped cfg) : m.stateSet = true :=
  stateSet_iff.mpr ⟨_, h.outcome⟩

/-- An outcome recorded with the attempt of an untouched message. -/
theorem Untouched.attempted (h : m.Untouched) (utcnow : Int) {o : Outcome}
    (hcap : o ≠ .terminal .maxDeliveries)
    (hgranted : ∀ delay, o = .retry delay → Granted cfg (m.recordAttempt utcnow) delay) :
    Attempted cfg { m.recordAttempt utcnow with outcome := some o } where
  attempts := by
    show m.attemptsCount + 1 = m.row.attemptsCount + 1
    rw [h.attempts]
  outcome := ⟨o, rfl, hcap⟩
  stamped := by
    refine ⟨utcnow, rfl, ?_⟩
    show some (m.firstAttemptAt.getD utcnow) = some (m.row.firstAttemptAt.getD utcnow)
    rw [h.first]
  granted := fun delay hdelay => hgranted delay (Option.some_inj.mp hdelay)

/-- The outcome of a nack is a retry only where the strategy grants one. -/
theorem nackOutcome_granted (hstrategy : m.retryStrategy = cfg.retryStrategy) {draw delay : Int}
    (h : m.nackOutcome draw = .retry delay) : Granted cfg m delay := by
  unfold nackOutcome at h
  cases hs : m.retryStrategy with
  | none => simp [hs] at h
  | some strategy =>
    simp only [hs] at h
    split at h
    · cases h
    · cases h
    · rename_i delay' hget
      cases h
      exact ⟨strategy, _, _, hstrategy ▸ hs, hget⟩

theorem nackOutcome_ne_maxDeliveries (draw : Int) :
    m.nackOutcome draw ≠ .terminal .maxDeliveries := by
  unfold nackOutcome
  split
  · simp
  · split <;> simp

theorem Untouched.nack (h : m.Untouched) (hadm : m.Admitted cfg) (r : Reading) :
    (m.nack r).Attempted cfg := by
  unfold OutboxInnerMessage.nack
  rw [if_neg (by simp [h.stateSet])]
  exact h.attempted r.utcnow (nackOutcome_ne_maxDeliveries _) fun delay hdelay =>
    nackOutcome_granted (m := m.recordAttempt r.utcnow) hadm.strategy hdelay

theorem Untouched.reject (h : m.Untouched) (r : Reading) : (m.reject r).Attempted cfg := by
  unfold OutboxInnerMessage.reject
  rw [if_neg (by simp [h.stateSet])]
  exact h.attempted r.utcnow (by simp) (by simp)

theorem Untouched.ack (h : m.Untouched) (r : Reading) : (m.ack r).Attempted cfg := by
  unfold OutboxInnerMessage.ack
  rw [if_neg (by simp [h.stateSet])]
  exact h.attempted r.utcnow (by simp) (by simp)

end Acts

end OutboxInnerMessage

open OutboxInnerMessage

section Handler

variable {cfg : SubscriberConfig} {m : OutboxInnerMessage}

/-- What a handler does keeps the row, the strategy, the claim time and the duration. -/
theorem HandlerAct.run_frame (a : HandlerAct) (m : OutboxInnerMessage) :
    (a.run m).row = m.row ∧ (a.run m).retryStrategy = m.retryStrategy ∧
      (a.run m).claimedAtMonotonic = m.claimedAtMonotonic ∧
      (a.run m).handlerDurationSeconds = m.handlerDurationSeconds := by
  cases a with
  | ack r => simp only [run, OutboxInnerMessage.ack]; split <;> exact ⟨rfl, rfl, rfl, rfl⟩
  | nack r => simp only [run, OutboxInnerMessage.nack]; split <;> exact ⟨rfl, rfl, rfl, rfl⟩
  | reject r => simp only [run, OutboxInnerMessage.reject]; split <;> exact ⟨rfl, rfl, rfl, rfl⟩
  | capture e => exact ⟨rfl, rfl, rfl, rfl⟩

/-- What a handler does records at most one attempt. -/
theorem HandlerAct.run_recorded (a : HandlerAct) (h : m.Recorded cfg) :
    (a.run m).Recorded cfg := by
  obtain ⟨hrow, hstrategy, _, _⟩ := a.run_frame m
  have hadm : (a.run m).Admitted cfg :=
    ⟨hstrategy.trans h.1.strategy, fun cap hcap => hrow ▸ h.1.cap cap hcap⟩
  refine ⟨hadm, ?_⟩
  cases h.2 with
  | inl hun =>
    cases a with
    | ack r => exact Or.inr (hun.ack r)
    | nack r => exact Or.inr (hun.nack h.1 r)
    | reject r => exact Or.inr (hun.reject r)
    | capture e => exact Or.inl ⟨hun.attempts, hun.first, hun.last, hun.outcome⟩
  | inr hat =>
    -- the first outcome stays
    have hset := hat.stateSet
    cases a with
    | ack r => exact Or.inr (by simpa [run, OutboxInnerMessage.ack, hset] using hat)
    | nack r => exact Or.inr (by simpa [run, OutboxInnerMessage.nack, hset] using hat)
    | reject r => exact Or.inr (by simpa [run, OutboxInnerMessage.reject, hset] using hat)
    | capture e => exact Or.inr ⟨hat.attempts, hat.outcome, hat.stamped, hat.granted⟩

theorem HandlerAct.foldl_recorded (acts : List HandlerAct) (h : m.Recorded cfg) :
    (acts.foldl (fun m a => a.run m) m).Recorded cfg ∧
      (acts.foldl (fun m a => a.run m) m).row = m.row := by
  induction acts generalizing m with
  | nil => exact ⟨h, rfl⟩
  | cons a acts ih =>
    have hrest := ih (a.run_recorded h)
    exact ⟨hrest.1, hrest.2.trans (a.run_frame m).1⟩

/-- `assert_state_set` leaves exactly one attempt recorded. -/
theorem assertStateSet_recorded (h : m.Recorded cfg) (r : Reading) :
    (m.assertStateSet r).Admitted cfg ∧ (m.assertStateSet r).Attempted cfg ∧
      (m.assertStateSet r).row = m.row ∧
      (m.assertStateSet r).handlerDurationSeconds = m.handlerDurationSeconds := by
  unfold assertStateSet
  cases h.2 with
  | inr hat =>
    rw [if_pos hat.stateSet]
    exact ⟨h.1, hat, rfl, rfl⟩
  | inl hun =>
    rw [if_neg (by simp [hun.stateSet])]
    split
    · obtain ⟨hrow, hstrategy, _, hduration⟩ := (HandlerAct.nack r).run_frame m
      exact ⟨⟨hstrategy.trans h.1.strategy, fun cap hcap => hrow ▸ h.1.cap cap hcap⟩,
        hun.nack h.1 r, hrow, hduration⟩
    · obtain ⟨hrow, hstrategy, _, hduration⟩ := (HandlerAct.reject r).run_frame m
      exact ⟨⟨hstrategy.trans h.1.strategy, fun cap hcap => hrow ▸ h.1.cap cap hcap⟩,
        hun.reject r, hrow, hduration⟩

end Handler

/-! ## Statements -/

/-- The metric of a delete is a closing one and carries the duration of its message. -/
structure Tagged (m : OutboxInnerMessage) (event : Event) (tags : Tags) : Prop where
  event : event = .acked ∨ event = .nackedTerminal
  duration : tags.durationSeconds = m.handlerDurationSeconds

/-- A delete a worker may batch: nothing of the message is archived. -/
structure Batchable (known : Row → Prop) (cfg : SubscriberConfig) (p : PendingFlush) : Prop where
  claimed : p.row.Claimed known
  settled : p.row.Settled cfg
  deletes : p.row.Deletes
  unarchived : Worker.terminalHasDlq cfg p.row = false
  tagged : Tagged p.row p.event p.tags

/-- What a statement of a subscriber says about the messages it carries. -/
def Stmt.Justified (known : Row → Prop) (cfg : SubscriberConfig) : Stmt → Prop
  | .fetch _ queues _ leaseTtl => queues = cfg.queues ∧ leaseTtl = cfg.leaseTtlSeconds
  | .deleteWithLease m token dlqTable payload =>
    m.Claimed known ∧ m.row.acquiredToken = some token ∧ m.Settled cfg ∧ m.Deletes ∧
      dlqTable = cfg.dlqTable ∧ Worker.dlqPayload cfg m = .ok payload
  | .markPendingWithLease m token delay =>
    m.Claimed known ∧ m.row.acquiredToken = some token ∧ m.Admitted cfg ∧ m.Attempted cfg ∧
      m.outcome = some (.retry delay)
  | .deleteBatchWithLease pending => ∀ p ∈ pending, Batchable known cfg p

/-- Knowing more rows keeps a statement justified. -/
theorem Stmt.Justified.mono {known known' : Row → Prop} (h : ∀ r, known r → known' r)
    {cfg : SubscriberConfig} {stmt : Stmt} (hstmt : stmt.Justified known cfg) :
    stmt.Justified known' cfg := by
  cases stmt with
  | fetch token queues limit leaseTtl => exact hstmt
  | deleteWithLease m token dlqTable payload => exact ⟨hstmt.1.mono h, hstmt.2⟩
  | markPendingWithLease m token delay => exact ⟨hstmt.1.mono h, hstmt.2⟩
  | deleteBatchWithLease pending =>
    exact fun p hp => { hstmt p hp with claimed := (hstmt p hp).claimed.mono h }

end Outbox
