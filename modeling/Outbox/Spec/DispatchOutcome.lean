import Outbox.Native.Dispatch
import Outbox.Spec.WorldStep

/-!
# A dispatch writes the outcome recorded first

Of the handler's calls, the call of the ack middleware and the fallback of `assert_state_set`,
the first one settles the message. `Verdict` is what it records, in terms of the claimed row
and the handler; `Verdict.effect` is what that outcome means for the store. A dispatch with a
writer connection leaves exactly this effect, unless the outcome is to be archived and the
exception on the message cannot be rendered: the retry strategy and the metrics recorder may
raise, but an exception of the renderer escapes the flush.

## Key results

- `HandlerRun.settled`: the message is settled by the first call
- `Inline.dispatchOne_went`: the dispatch has the effect of the verdict, or raises
- `Worker.walk_agrees`: a worker dispatches like this, await by await
- `dispatch_writes_outcome`: the dispatch has the effect of the verdict iff it can be archived
- `renderer_escapes`: a renderer that raises
-/

namespace Outbox

/-! ## The outcome recorded first -/

/-- The call that settles the message: the handler's first, else the middleware's, else the
    fallback. -/
def HandlerRun.firstCall (h : HandlerRun) (policy : AckPolicy) (left : Reading) :
    Settle × Reading :=
  match h.calls with
  | c :: _ => c
  | [] =>
    match policy.call h.ending with
    | some c => (c, h.reading)
    | none => (if h.ending.exception.isSome then .nack else .reject, left)

/-- The exception the retry strategy sees: a handler that nacks has not raised yet. -/
def HandlerRun.seen (h : HandlerRun) : Option PyException :=
  match h.calls with
  | _ :: _ => none
  | [] => h.ending.exception

/-- The outcome a call records for a claimed row. -/
def Settle.outcome (c : Settle) (r : Reading) (strategy : Option RetryStrategy) (row : Row)
    (exception : Option PyException) : Outcome :=
  match c with
  | .ack => .ack
  | .reject => .terminal .rejected
  | .nack =>
    match strategy with
    | none => .terminal .retryTerminal
    | some strategy =>
      match strategy.getNextAttemptDelay (row.firstAttemptAt.getD r.utcnow) r.utcnow
          (row.attemptsCount + 1) exception r.draw with
      | .ok (some delay) => .retry delay
      -- it gives up, or it raises
      | _ => .terminal .retryTerminal

/-- What a dispatch has to write. -/
structure Verdict where
  outcome : Outcome
  /-- The exception on the message. -/
  exception : Option PyException
  /-- When the attempt was recorded. -/
  attemptAt : Int

/-- The verdict on a claimed row: past `max_deliveries` the handler does not run. -/
def HandlerRun.verdict (h : HandlerRun) (cfg : SubscriberConfig) (policy : AckPolicy)
    (left : Reading) (row : Row) : Verdict :=
  if cfg.maxDeliveries.any fun cap => decide (cap < row.deliveriesCount) then
    { outcome := .terminal .maxDeliveries, exception := none, attemptAt := left.utcnow }
  else
    let c := h.firstCall policy left
    { outcome := c.1.outcome c.2 cfg.retryStrategy row h.seen
      exception := h.ending.exception
      attemptAt := c.2.utcnow }

namespace Verdict

/-- The text of the `last_exception` column. -/
def lastException (v : Verdict) (cfg : SubscriberConfig) : Option String :=
  match renderLastException v.exception cfg.lastExceptionRenderer with
  | .ok rendered => rendered
  | .error _ => none

/-- What the verdict on a claimed row means for a store. -/
def effect (v : Verdict) (cfg : SubscriberConfig) (row : Row) (s : Store) (now : Int) : Store :=
  match v.outcome with
  | .ack => { s with rows := s.rows.filter fun r => r.id != row.id }
  | .terminal reason =>
    { s with
      rows := s.rows.filter fun r => r.id != row.id
      dlqRows := s.dlqRows ++ if cfg.dlqTable then
          (s.row? row.id).toList.map fun r =>
            dlqProjection r now reason.text (v.lastException cfg)
        else [] }
  | .retry delay =>
    { s with rows := s.rows.map fun r =>
        if r.id = row.id then
          { r with
            nextAttemptAt := now + max 0 delay
            attemptsCount := row.attemptsCount + 1
            firstAttemptAt := some (row.firstAttemptAt.getD v.attemptAt)
            lastAttemptAt := some v.attemptAt
            acquiredAt := none
            acquiredToken := none }
        else r }

/-- The verdict is to be archived, and the exception cannot be rendered. -/
def Unrenderable (v : Verdict) (cfg : SubscriberConfig) : Prop :=
  (∃ reason, v.outcome = .terminal reason) ∧ cfg.dlqTable = true ∧
    ∃ e, renderLastException v.exception cfg.lastExceptionRenderer = .error e

end Verdict

/-! ## The message is settled once -/

namespace OutboxInnerMessage

/-- The message as it was claimed, but for an exception stashed on it. -/
structure Unsettled (cfg : SubscriberConfig) (row : Row) (exception : Option PyException)
    (m : OutboxInnerMessage) : Prop where
  claimed : m.row = row
  attemptsCount : m.attemptsCount = row.attemptsCount
  firstAttemptAt : m.firstAttemptAt = row.firstAttemptAt
  retryStrategy : m.retryStrategy = cfg.retryStrategy
  lastException : m.lastException = exception
  outcome : m.outcome = none

/-- The message with an outcome, recorded at the given time. -/
structure Decided (row : Row) (exception : Option PyException) (outcome : Outcome)
    (attemptAt : Int) (m : OutboxInnerMessage) : Prop where
  claimed : m.row = row
  attemptsCount : m.attemptsCount = row.attemptsCount + 1
  firstAttemptAt : m.firstAttemptAt = some (row.firstAttemptAt.getD attemptAt)
  lastAttemptAt : m.lastAttemptAt = some attemptAt
  lastException : m.lastException = exception
  outcome : m.outcome = some outcome

variable {cfg : SubscriberConfig} {row : Row} {exception : Option PyException}
  {m : OutboxInnerMessage}

/-- The first call records its outcome. -/
theorem Unsettled.run (h : Unsettled cfg row exception m) (c : Settle) (r : Reading) :
    Decided row exception (c.outcome r cfg.retryStrategy row exception) r.utcnow
      ((c.act r).run m) := by
  -- the guard of each call passes: nothing is recorded yet
  have hset : m.stateSet = false := by rw [stateSet, h.outcome]; rfl
  have hrecorded : ∀ outcome : Outcome, Decided row exception outcome r.utcnow
      { m.recordAttempt r.utcnow with outcome := some outcome } := by
    intro outcome
    refine ⟨h.claimed, ?_, ?_, rfl, h.lastException, rfl⟩
    · show m.attemptsCount + 1 = _
      rw [h.attemptsCount]
    · show some (m.firstAttemptAt.getD r.utcnow) = _
      rw [h.firstAttemptAt]
  cases c with
  | ack =>
    show Decided row exception _ r.utcnow (m.ack r)
    rw [ack, if_neg (by simp [hset])]
    exact hrecorded _
  | reject =>
    show Decided row exception _ r.utcnow (m.reject r)
    rw [reject, if_neg (by simp [hset])]
    exact hrecorded _
  | nack =>
    show Decided row exception _ r.utcnow (m.nack r)
    rw [nack, if_neg (by simp [hset])]
    have hnack : (m.recordAttempt r.utcnow).nackOutcome r.draw =
        Settle.nack.outcome r cfg.retryStrategy row exception := by
      unfold nackOutcome Settle.outcome
      simp only [recordAttempt, h.retryStrategy, h.firstAttemptAt, h.attemptsCount,
        h.lastException, Option.getD_some]
      cases cfg.retryStrategy with
      | none => rfl
      | some strategy =>
        dsimp only
        split <;> simp_all
    simp only [hnack]
    exact hrecorded _

/-- A later call changes nothing. -/
theorem Decided.run {outcome : Outcome} {attemptAt : Int}
    (h : Decided row exception outcome attemptAt m) (c : Settle) (r : Reading) :
    (c.act r).run m = m := by
  have hset : m.stateSet = true := by rw [stateSet, h.outcome]; rfl
  cases c with
  | ack => exact if_pos hset
  | nack => exact if_pos hset
  | reject => exact if_pos hset

theorem Decided.calls {outcome : Outcome} {attemptAt : Int}
    (h : Decided row exception outcome attemptAt m) (calls : List (Settle × Reading)) :
    (calls.map fun c => c.1.act c.2).foldl (fun m a => a.run m) m = m := by
  induction calls with
  | nil => rfl
  | cons c calls ih =>
    rw [List.map_cons, List.foldl_cons, h.run]
    exact ih

/-- The exception of the handler is stashed on the message. -/
theorem Decided.capture {outcome : Outcome} {attemptAt : Int}
    (h : Decided row exception outcome attemptAt m) {e : Option PyException}
    (hnone : e = none → exception = none) :
    Decided row e outcome attemptAt
      ((e.toList.map HandlerAct.capture).foldl (fun m a => a.run m) m) := by
  cases e with
  | none =>
    obtain rfl := hnone rfl
    exact h
  | some e =>
    exact ⟨h.claimed, h.attemptsCount, h.firstAttemptAt, h.lastAttemptAt, rfl, h.outcome⟩

theorem Unsettled.capture (h : Unsettled cfg row none m) (e : Option PyException) :
    Unsettled cfg row e ((e.toList.map HandlerAct.capture).foldl (fun m a => a.run m) m) := by
  cases e with
  | none => exact h
  | some e =>
    exact ⟨h.claimed, h.attemptsCount, h.firstAttemptAt, h.retryStrategy, rfl, h.outcome⟩

/-- How long the handler took is no part of the outcome. -/
theorem Decided.timed {outcome : Outcome} {attemptAt : Int}
    (h : Decided row exception outcome attemptAt m) (duration : Option Int) :
    Decided row exception outcome attemptAt { m with handlerDurationSeconds := duration } :=
  ⟨h.claimed, h.attemptsCount, h.firstAttemptAt, h.lastAttemptAt, h.lastException, h.outcome⟩

theorem Unsettled.timed (h : Unsettled cfg row exception m) (duration : Option Int) :
    Unsettled cfg row exception { m with handlerDurationSeconds := duration } :=
  ⟨h.claimed, h.attemptsCount, h.firstAttemptAt, h.retryStrategy, h.lastException, h.outcome⟩

/-- The fallback settles what nothing has settled. -/
theorem Unsettled.assertStateSet (h : Unsettled cfg row exception m) (r : Reading) :
    m.assertStateSet r = (Settle.act (if exception.isSome then .nack else .reject) r).run m := by
  have hset : m.stateSet = false := by rw [stateSet, h.outcome]; rfl
  rw [OutboxInnerMessage.assertStateSet, if_neg (by simp [hset]), h.lastException]
  split <;> rfl

theorem Decided.assertStateSet {outcome : Outcome} {attemptAt : Int}
    (h : Decided row exception outcome attemptAt m) (r : Reading) : m.assertStateSet r = m := by
  have hset : m.stateSet = true := by rw [stateSet, h.outcome]; rfl
  exact if_pos hset

end OutboxInnerMessage

/-- **The message is settled by the first call**, whatever is called after it. -/
theorem HandlerRun.settled (h : HandlerRun) (policy : AckPolicy) (left : Reading)
    {cfg : SubscriberConfig} {row : Row} {m : OutboxInnerMessage} (hm : m.Unsettled cfg row none)
    (duration : Option Int) :
    let c := h.firstCall policy left
    let m' := (h.acts policy).foldl (fun m a => a.run m) m
    OutboxInnerMessage.Decided row h.ending.exception (c.1.outcome c.2 cfg.retryStrategy row h.seen)
      c.2.utcnow
      (OutboxInnerMessage.assertStateSet { m' with handlerDurationSeconds := duration } left) := by
  intro c m'
  have hacts : m' = ((policy.call h.ending).toList.map fun c => c.act h.reading).foldl
      (fun m a => a.run m) ((h.ending.exception.toList.map HandlerAct.capture).foldl
        (fun m a => a.run m)
          ((h.calls.map fun c => c.1.act c.2).foldl (fun m a => a.run m) m)) := by
    show (h.acts policy).foldl _ m = _
    rw [HandlerRun.acts, List.foldl_append, List.foldl_append]
  rw [hacts]
  obtain ⟨calls, ending, reading⟩ := h
  cases calls with
  | cons first rest =>
    -- a call of the handler
    rw [List.map_cons, List.foldl_cons]
    have hfirst := hm.run first.1 first.2
    rw [hfirst.calls rest]
    have hcaptured := hfirst.capture (e := ending.exception) fun _ => rfl
    cases hcall : policy.call ending with
    | none =>
      have htimed := hcaptured.timed duration
      exact (htimed.assertStateSet left).symm ▸ htimed
    | some call =>
      have htimed := hcaptured.timed duration
      simp only [Option.toList_some, List.map_cons, List.map_nil, List.foldl_cons, List.foldl_nil,
        hcaptured.run]
      exact (htimed.assertStateSet left).symm ▸ htimed
  | nil =>
    have hcaptured := hm.capture ending.exception
    cases hcall : policy.call ending with
    | none =>
      -- the fallback
      have hfirst : c = (if ending.exception.isSome then .nack else .reject, left) := by
        simp [c, HandlerRun.firstCall, hcall]
      have htimed := hcaptured.timed duration
      rw [hfirst]
      show OutboxInnerMessage.Decided row _ _ _ (OutboxInnerMessage.assertStateSet _ left)
      exact (htimed.assertStateSet left).symm ▸ htimed.run _ left
    | some call =>
      -- the ack middleware
      have hfirst : c = (call, reading) := by simp [c, HandlerRun.firstCall, hcall]
      have htimed := (hcaptured.run call reading).timed duration
      rw [hfirst]
      exact (htimed.assertStateSet left).symm ▸ htimed

/-! ## A write under a current lease -/

section Held

variable {w : World} (hwf : w.store.WF) (b : Backend) {id : Nat} {token : UUID} {stored : Row}
  (hstored : w.store.row? id = some stored) (htoken : stored.acquiredToken = some token)
include hwf hstored htoken

/-- A delete removes the row, and archives it if it has a payload. -/
theorem World.step_deleteWithLease {dlqTable : Bool} {payload : Option DlqPayload}
    (hok : DlqPayload.Acceptable dlqTable payload) :
    w.step b (.deleteWithLease dlqTable id token payload) =
      (.deleted (.ok true), { w with store := { w.store with
        rows := w.store.rows.filter fun r => r.id != id
        dlqRows := w.store.dlqRows ++ payload.toList.flatMap fun p =>
          (w.store.row? id).toList.map fun r =>
            dlqProjection r w.now (p.failureReason.getD "") (p.lastException.getD none) } }) := by
  have hheld : w.store.Holds id token := ⟨stored, hstored, htoken⟩
  have hrows : (w.store.rows.filter fun r => !OutboxClient.leased id token r) =
      w.store.rows.filter fun r => r.id != id := by
    refine List.filter_congr fun r hr => ?_
    rw [OutboxClient.leased_eq_of_held hwf hstored htoken hr]
    rfl
  have hdelete := World.apply_deleteWithLease hwf b hok id token
  rw [decide_eq_true hheld, hrows] at hdelete
  have harchived : OutboxClient.archived w.store w.now id token payload =
      payload.toList.flatMap fun p => (w.store.row? id).toList.map fun r =>
        dlqProjection r w.now (p.failureReason.getD "") (p.lastException.getD none) := by
    cases payload with
    | none => rfl
    | some p => simp [OutboxClient.archived, hstored,
        OutboxClient.filter_leased_of_held hwf hstored htoken]
  rw [harchived] at hdelete
  simp only [World.step, World.clock, hdelete]

/-- A reschedule rewrites the row. -/
theorem World.step_markPendingWithLease (args : MarkPendingArgs) :
    w.step b (.markPendingWithLease id token args) =
      (.rescheduled true, { w with store := { w.store with
        rows := w.store.rows.map fun r =>
          if r.id = id then pendingSet r w.now args else r } }) := by
  have hheld : w.store.Holds id token := ⟨stored, hstored, htoken⟩
  have hmark := World.apply_markPendingWithLease hwf b id token args
  have hrows : (w.store.rows.map fun r =>
      if OutboxClient.leased id token r then pendingSet r w.now args else r) =
      w.store.rows.map fun r => if r.id = id then pendingSet r w.now args else r := by
    refine List.map_congr_left fun r hr => ?_
    rw [OutboxClient.leased_eq_of_held hwf hstored htoken hr]
    simp
  rw [decide_eq_true hheld, hrows] at hmark
  simp only [World.step, World.clock, hmark]

end Held

/-! ## Flushing -/

namespace Inline

variable (recorder : Event → Tags → Except PyException Unit) (cfg : SubscriberConfig)
  (b : Backend) {s : State} {m : OutboxInnerMessage}

/-- Whatever the recorder does, the database does not notice. -/
@[simp] theorem emitMetric_world (event : Event) (tags : Tags) :
    (emitMetric recorder s event tags).world = s.world := by
  unfold emitMetric
  split <;> rfl

@[simp] theorem emitDispatchAbandoned_world :
    (emitDispatchAbandoned recorder cfg s m).world = s.world := by
  unfold emitDispatchAbandoned
  split
  · rfl
  · exact emitMetric_world recorder _ _

@[simp] theorem emitLeaseLost_world (phase : Phase) :
    (emitLeaseLost recorder cfg s m phase).world = s.world := emitMetric_world recorder _ _

/-- A flush that landed. -/
theorem safeFlush_landed {flush : Except Raised Bool × State} (h : flush.1 = .ok true)
    (writerConn : Bool) (event : Event) (tags : Tags) :
    (safeFlush recorder cfg writerConn flush m event tags).1 = false ∧
    (safeFlush recorder cfg writerConn flush m event tags).2.world = flush.2.world := by
  obtain ⟨landed, s'⟩ := flush
  obtain rfl := h
  exact ⟨rfl, emitMetric_world recorder event tags⟩

section Held

variable (hwf : s.world.store.WF) {token : UUID} {row stored : Row}
  (hstored : s.world.store.row? row.id = some stored) (htoken : stored.acquiredToken = some token)
  (hrow : row.acquiredToken = some token) (hm : m.row = row)
include hwf hstored htoken hrow hm

/-- A delete that renders lands. -/
theorem flushTerminal_landed {payload : Option DlqPayload}
    (hpayload : Worker.dlqPayload cfg m = .ok payload)
    (hok : DlqPayload.Acceptable cfg.dlqTable payload) :
    (flushTerminal recorder cfg b s m).1 = .ok true ∧
    (flushTerminal recorder cfg b s m).2.world = { s.world with store := { s.world.store with
      rows := s.world.store.rows.filter fun r => r.id != row.id
      dlqRows := s.world.store.dlqRows ++ payload.toList.flatMap fun p =>
        (s.world.store.row? row.id).toList.map fun r =>
          dlqProjection r s.world.now (p.failureReason.getD "")
            (p.lastException.getD none) } } := by
  have hstep := World.step_deleteWithLease hwf b hstored htoken hok
  unfold flushTerminal
  simp only [hm, hrow, hpayload, hstep]
  refine ⟨trivial, ?_⟩
  split
  · exact emitMetric_world recorder _ _
  · rfl

/-- An update lands. -/
theorem flushRetry_landed {delay : Int} (hdelay : m.outcome = some (.retry delay)) :
    (flushRetry recorder cfg b s m).1 = .ok true ∧
    (flushRetry recorder cfg b s m).2.world = { s.world with store := { s.world.store with
      rows := s.world.store.rows.map fun r => if r.id = row.id then pendingSet r s.world.now
        { delaySeconds := delay
          attemptsCount := m.attemptsCount
          firstAttemptAt := m.firstAttemptAt
          lastAttemptAt := m.lastAttemptAt } else r } } := by
  have hpending : m.pendingDelaySeconds = some delay := by
    rw [OutboxInnerMessage.pendingDelaySeconds, hdelay]
  unfold flushRetry
  simp only [hm, hrow, hpending, World.step_markPendingWithLease hwf b hstored htoken]
  exact ⟨trivial, trivial⟩

/-- A terminal outcome is flushed unless its exception cannot be rendered. -/
theorem flushTerminal_eq {v : Verdict} (houtcome : m.outcome = some v.outcome)
    (hexception : m.lastException = v.exception) (hretry : ∀ delay, v.outcome ≠ .retry delay) :
    ¬v.Unrenderable cfg ∧ (flushTerminal recorder cfg b s m).1 = .ok true ∧
      (flushTerminal recorder cfg b s m).2.world =
        { s.world with store := v.effect cfg row s.world.store s.world.now } ∨
    v.Unrenderable cfg ∧ ∃ e, flushTerminal recorder cfg b s m = (.error e, s) := by
  have hlanded := @flushTerminal_landed recorder cfg b s m hwf token row stored hstored htoken
    hrow hm
  cases hv : v.outcome with
  | retry delay => exact absurd hv (hretry delay)
  | ack =>
    have hpayload : Worker.dlqPayload cfg m = .ok none := by
      simp [Worker.dlqPayload, OutboxInnerMessage.terminalFailureReason, houtcome, hv]
    refine .inl ⟨fun hno => by simp [Verdict.Unrenderable, hv] at hno, ?_⟩
    simpa [Verdict.effect, hv] using hlanded hpayload trivial
  | terminal reason =>
    have hreason : m.terminalFailureReason = some reason := by
      rw [OutboxInnerMessage.terminalFailureReason, houtcome, hv]
    cases htable : cfg.dlqTable with
    | false =>
      have hpayload : Worker.dlqPayload cfg m = .ok none := by
        simp [Worker.dlqPayload, hreason, htable]
      refine .inl ⟨fun hno => by simp [Verdict.Unrenderable, htable] at hno, ?_⟩
      simpa [Verdict.effect, hv, htable] using hlanded hpayload trivial
    | true =>
      cases hrender : renderLastException v.exception cfg.lastExceptionRenderer with
      | error e =>
        refine .inr ⟨⟨⟨reason, hv⟩, htable, e, hrender⟩, .renderer e, ?_⟩
        have hpayload : Worker.dlqPayload cfg m = .error e := by
          simp [Worker.dlqPayload, hreason, htable, hexception, hrender, Except.map]
        simp [flushTerminal, hm, hrow, hpayload]
      | ok rendered =>
        have hpayload : Worker.dlqPayload cfg m =
            .ok (some { failureReason := some reason.text, lastException := some rendered }) := by
          simp [Worker.dlqPayload, hreason, htable, hexception, hrender, Except.map]
        refine .inl ⟨fun hno => by simp [Verdict.Unrenderable, hrender] at hno, ?_⟩
        simpa [Verdict.effect, Verdict.lastException, hv, htable, hrender]
          using hlanded hpayload ⟨htable, rfl, rfl⟩

/-- The two ways a dispatch may go, whether it raises and what it leaves. -/
def Went (cfg : SubscriberConfig) (writerConn : Bool) (s : State) (v : Verdict) (row : Row)
    (out : Bool × State) : Prop :=
  ¬v.Unrenderable cfg ∧ out.1 = false ∧
      out.2.world = { s.world with store := v.effect cfg row s.world.store s.world.now } ∨
    v.Unrenderable cfg ∧ out.1 = writerConn ∧ out.2.world = s.world

theorem safeFlush_terminal {v : Verdict} (houtcome : m.outcome = some v.outcome)
    (hexception : m.lastException = v.exception) (hretry : ∀ delay, v.outcome ≠ .retry delay)
    (writerConn : Bool) (event : Event) (tags : Tags) :
    Went cfg writerConn s v row
      (safeFlush recorder cfg writerConn (flushTerminal recorder cfg b s m) m event tags) := by
  rcases flushTerminal_eq recorder cfg b hwf hstored htoken hrow hm houtcome hexception hretry with
    ⟨hrenders, hlanded, hworld⟩ | ⟨hno, e, hraised⟩
  · obtain ⟨hquiet, hsame⟩ := safeFlush_landed recorder cfg (m := m) hlanded writerConn event
      tags
    exact .inl ⟨hrenders, hquiet, hsame.trans hworld⟩
  · rw [hraised]
    exact .inr ⟨hno, rfl, emitDispatchAbandoned_world recorder cfg⟩

/-- The flush of a settled message. -/
theorem writeOutcome_went {v : Verdict}
    (hsettled : m.Decided row v.exception v.outcome v.attemptAt) {m₀ : OutboxInnerMessage}
    {left : Reading} (hm₀ : m₀.assertStateSet left = m) (writerConn : Bool) :
    Went cfg writerConn s v row (writeOutcome recorder cfg b writerConn true left s m₀) := by
  unfold writeOutcome
  simp only [Bool.not_true, Bool.and_false, Bool.false_eq_true, if_false, hm₀]
  cases hv : v.outcome with
  | ack =>
    simp only [hsettled.outcome, hv]
    exact safeFlush_terminal recorder cfg b hwf hstored htoken hrow hm hsettled.outcome
      hsettled.lastException (by simp [hv]) writerConn _ _
  | terminal reason =>
    simp only [hsettled.outcome, hv]
    exact safeFlush_terminal recorder cfg b hwf hstored htoken hrow hm hsettled.outcome
      hsettled.lastException (by simp [hv]) writerConn _ _
  | retry delay =>
    simp only [hsettled.outcome, hv]
    obtain ⟨hlanded, hworld⟩ := flushRetry_landed recorder cfg b hwf hstored htoken hrow hm
      (hv ▸ hsettled.outcome)
    obtain ⟨hquiet, hsame⟩ := safeFlush_landed recorder cfg (m := m) hlanded writerConn
      .nackedRetried _
    refine .inl ⟨fun hno => by simp [Verdict.Unrenderable, hv] at hno, hquiet, hsame.trans ?_⟩
    rw [hworld]
    simp only [Verdict.effect, hv, pendingSet, hsettled.attemptsCount, hsettled.firstAttemptAt,
      hsettled.lastAttemptAt]

end Held

/-- Past `max_deliveries` the message is flushed at once. -/
theorem dispatchOne_of_capped {m' : OutboxInnerMessage}
    (h : OutboxInnerMessage.allowDelivery { m with retryStrategy := cfg.retryStrategy }
      cfg.maxDeliveries = (false, m')) (writerConn : Bool) (c : Consume) :
    dispatchOne recorder cfg b writerConn s m c =
      safeFlush recorder cfg writerConn (flushTerminal recorder cfg b s m') m' .nackedTerminal
        { baseTags cfg m.row.queue with
          deliveriesCount := some m.row.deliveriesCount
          reason := some .maxDeliveries } := by
  unfold dispatchOne
  simp only [h]
  rfl

/-- Otherwise the handler runs, and the outcome is written. -/
theorem dispatchOne_of_allowed {m' : OutboxInnerMessage}
    (h : OutboxInnerMessage.allowDelivery { m with retryStrategy := cfg.retryStrategy }
      cfg.maxDeliveries = (true, m')) (writerConn : Bool) (acts : List HandlerAct)
    (entered left : Reading) :
    dispatchOne recorder cfg b writerConn s m { acts := acts, entered := entered, left := left } =
      writeOutcome recorder cfg b writerConn true left
        (emitMetric recorder s .dispatched
          { baseTags cfg m.row.queue with
            deliveriesCount := some m.row.deliveriesCount
            sizeBytes := some m'.row.payload.length })
        { acts.foldl (fun m a => a.run m) m' with
          handlerDurationSeconds := some (left.perfCounter - entered.perfCounter) } := by
  unfold dispatchOne
  simp only [h]
  rfl

/-- **One dispatch of a claim whose lease is current.** -/
theorem dispatchOne_went (hwf : s.world.store.WF) {token : UUID} {row stored : Row}
    (hstored : s.world.store.row? row.id = some stored) (htoken : stored.acquiredToken = some token)
    (hrow : row.acquiredToken = some token) (policy : AckPolicy) (h : HandlerRun)
    (entered left : Reading) (monotonic : Int) (writerConn : Bool) :
    Went cfg writerConn s (h.verdict cfg policy left row) row
      (dispatchOne recorder cfg b writerConn s (OutboxInnerMessage.ofRow row monotonic)
        { acts := h.acts policy, entered := entered, left := left }) := by
  unfold HandlerRun.verdict
  by_cases hcapped : (cfg.maxDeliveries.any fun cap => decide (cap < row.deliveriesCount)) = true
  · -- the handler does not run
    rw [if_pos hcapped, dispatchOne_of_capped recorder cfg b
      (m := OutboxInnerMessage.ofRow row monotonic) (if_pos hcapped)]
    exact safeFlush_terminal recorder cfg b hwf hstored htoken hrow rfl rfl rfl
      (fun delay => by simp) writerConn _ _
  · have hunsettled : OutboxInnerMessage.Unsettled cfg row none
        { OutboxInnerMessage.ofRow row monotonic with retryStrategy := cfg.retryStrategy } :=
      ⟨rfl, rfl, rfl, rfl, rfl, rfl⟩
    have hsettled := h.settled policy left hunsettled
      (some (left.perfCounter - entered.perfCounter))
    rw [if_neg hcapped, dispatchOne_of_allowed recorder cfg b
      (m := OutboxInnerMessage.ofRow row monotonic) (if_neg hcapped)]
    -- the `dispatched` leaves the database alone
    generalize hs' : emitMetric recorder s .dispatched _ = s'
    have hworld : s'.world = s.world := hs' ▸ emitMetric_world recorder _ _
    have hwent := writeOutcome_went recorder cfg b
      (v := { outcome := _, exception := _, attemptAt := _ })
      (hworld ▸ hwf) (hworld ▸ hstored) htoken hrow hsettled.claimed hsettled rfl writerConn
    unfold Went at hwent ⊢
    rwa [hworld] at hwent

end Inline

/-! ## The worker's dispatch

A worker dispatches in three stretches: up to `consume()`, from its end to the write, and from
the reply on. Without batching, and with a writer connection, they make up `dispatch_one`. -/

namespace Worker

/-- The write at the end of a dispatch, and the stretch after it. -/
def finish (b : Backend) (cfg : SubscriberConfig) (w : World) (replied : Reading)
    (out : Frame × WorkerPc) : World × WorkerPc :=
  match out.2, pending cfg { pc := out.2 } with
  | .writing m _ kind _, some stmt =>
    let r := w.step b (stmt.op [])
    match writeReplied cfg replied out.1 m kind r.1 with
    | some next => (r.2, next.2)
    | none => (r.2, out.2)
  | pc, _ => (w, pc)

/-- The three stretches of a dispatch whose `consume()` returns. -/
def walk (b : Backend) (cfg : SubscriberConfig) (w : World) (f : Frame) (m : OutboxInnerMessage)
    (acts : List HandlerAct) (entered left replied : Reading) : World × WorkerPc :=
  match dispatchOne cfg entered f m with
  | (f, .consuming m startPerf) =>
    finish b cfg w replied (consumeEnded cfg .returned acts left f m startPerf)
  | out => finish b cfg w replied out

/-- The worker goes on with its loop if the dispatch did not raise, and with the same
    database. -/
def Agrees (walked : World × WorkerPc) (out : Bool × Inline.State) : Prop :=
  walked.1 = out.2.world ∧ (walked.2 = .loop ↔ out.1 = false)

variable {cfg : SubscriberConfig} {f : Frame}

theorem afterDispatch_loop (hbuffer : f.buffer = []) (r : Reading) (m : OutboxInnerMessage)
    (isBuffered : Bool) : (afterDispatch cfg r f m isBuffered).2 = .loop := by
  have hended : (if isBuffered then f.note (.buffered m.key)
      else (f.note (.ended m.key)).taskDone).buffer = [] := by
    split <;> exact hbuffer
  unfold afterDispatch
  simp only [hended, Bool.false_eq_true, if_false]

theorem writeRaised_closing (hengine : cfg.engine = true) (hbuffer : f.buffer = []) (r : Reading)
    (m : OutboxInnerMessage) : (writeRaised cfg r f m).2 = .closing .error := by
  have hempty : ((f.emitDispatchAbandoned cfg m).note (.ended m.key)).taskDone.buffer.isEmpty =
      true := by
    show (f.emitDispatchAbandoned cfg m).buffer.isEmpty = true
    unfold Frame.emitDispatchAbandoned
    split <;> exact List.isEmpty_iff.mpr hbuffer
  unfold writeRaised dispatchRaised unwind flushBuffer
  simp only [hengine, if_true, hempty, resume, leave]

theorem finish_loop (b : Backend) (w : World) (replied : Reading) {out : Frame × WorkerPc}
    (h : out.2 = .loop) : finish b cfg w replied out = (w, .loop) := by
  unfold finish
  rw [h]

theorem finish_closing (b : Backend) (w : World) (replied : Reading) {out : Frame × WorkerPc}
    {why : Exit} (h : out.2 = .closing why) : finish b cfg w replied out = (w, .closing why) := by
  unfold finish
  rw [h]

section Agrees

variable (recorder : Event → Tags → Except PyException Unit) (b : Backend) (w : World)
  {s : Inline.State} (hworld : s.world = w) (hengine : cfg.engine = true)
  (hbatch : cfg.terminalFlushBatchSize = 1) (hbuffer : f.buffer = []) (left replied : Reading)
  (m : OutboxInnerMessage)
include hworld hengine hbatch hbuffer

/-- A terminal flush, awaited or not. -/
theorem flushOrBuffer_agrees (event event' : Event) (tags tags' : Tags) (useBuffer : Bool) :
    Agrees (finish b cfg w replied (flushOrBuffer cfg left f m event tags useBuffer))
      (Inline.safeFlush recorder cfg true (Inline.flushTerminal recorder cfg b s m) m event'
        tags') := by
  subst hworld
  -- a batch of one is written at once
  have hinline : (useBuffer && decide (1 < cfg.terminalFlushBatchSize) && !terminalHasDlq cfg m) =
      false := by simp [hbatch]
  unfold flushOrBuffer Inline.flushTerminal
  rw [hinline, if_neg Bool.false_ne_true]
  cases htoken : m.row.acquiredToken with
  | none =>
    dsimp only
    rw [finish_loop b s.world replied (afterDispatch_loop hbuffer left m false)]
    exact ⟨rfl, fun _ => rfl, fun _ => rfl⟩
  | some token =>
    dsimp only
    cases hpayload : dlqPayload cfg m with
    | error e =>
      dsimp only
      -- the renderer raised, and no statement is sent
      rw [finish_closing b s.world replied (writeRaised_closing hengine hbuffer left m)]
      exact ⟨(Inline.emitDispatchAbandoned_world recorder cfg).symm, nofun, nofun⟩
    | ok payload =>
      obtain ⟨landed, w', hstep⟩ : ∃ landed w', s.world.step b
          (.deleteWithLease cfg.dlqTable m.row.id token payload) = (.deleted landed, w') :=
        ⟨_, _, rfl⟩
      dsimp only [finish, pending, Stmt.op]
      rw [hstep]
      cases landed with
      | error e =>
        -- a worker that goes on to its loop did not close its writer
        refine ⟨by simp [writeReplied, Inline.safeFlush], fun hloop => ?_, nofun⟩
        have hloop : (writeRaised cfg replied (f.note (.writeIssued m.key)) m).2 = .loop := hloop
        rw [writeRaised_closing (f := f.note _) hengine hbuffer replied m] at hloop
        cases hloop
      | ok landed =>
        cases landed with
        | true =>
          refine ⟨?_, fun _ => rfl, fun _ => afterDispatch_loop ?_ replied m false⟩
          · show w' = (Inline.emitMetric recorder _ event' tags').world
            rw [Inline.emitMetric_world]
            split <;> simp
          · split <;> exact hbuffer
        | false =>
          refine ⟨by simp [writeReplied, Inline.safeFlush], fun _ => rfl, fun _ => ?_⟩
          exact afterDispatch_loop (f := (f.note _).emitLeaseLost cfg m .terminal) hbuffer replied m
            false

omit hworld in
/-- A flush does not run the handler. -/
theorem flushOrBuffer_pc (event : Event) (tags : Tags) (useBuffer : Bool)
    (m' : OutboxInnerMessage) (startPerf : Int) :
    (flushOrBuffer cfg left f m event tags useBuffer).2 ≠ .consuming m' startPerf := by
  have hinline : (useBuffer && decide (1 < cfg.terminalFlushBatchSize) && !terminalHasDlq cfg m) =
      false := by simp [hbatch]
  unfold flushOrBuffer
  rw [hinline, if_neg Bool.false_ne_true]
  split
  · rw [afterDispatch_loop hbuffer left m false]
    simp
  · split
    · rw [writeRaised_closing hengine hbuffer left m]
      simp
    · simp

/-- The write of an outcome. -/
theorem writeOutcome_agrees (hrunning : f.shared.running = true) :
    Agrees (finish b cfg w replied (writeOutcome cfg left f m true))
      (Inline.writeOutcome recorder cfg b true true left s m) := by
  unfold writeOutcome Inline.writeOutcome
  simp only [hrunning, Bool.not_true, Bool.and_false, Bool.false_eq_true, if_false]
  generalize m.assertStateSet left = m'
  cases houtcome : m'.outcome with
  | none =>
    dsimp only
    exact flushOrBuffer_agrees recorder b w hworld hengine hbatch hbuffer left replied m' _ _ _ _ _
  | some outcome =>
    cases outcome with
    | ack =>
      dsimp only
      exact flushOrBuffer_agrees recorder b w hworld hengine hbatch hbuffer left replied m' _ _ _ _
        _
    | terminal reason =>
      dsimp only
      exact flushOrBuffer_agrees recorder b w hworld hengine hbatch hbuffer left replied m' _ _ _ _
        _
    | retry delay =>
      subst hworld
      have hpending : m'.pendingDelaySeconds = some delay := by
        rw [OutboxInnerMessage.pendingDelaySeconds, houtcome]
      dsimp only
      unfold Inline.flushRetry
      cases htoken : m'.row.acquiredToken with
      | none =>
        dsimp only
        rw [finish_loop b s.world replied (afterDispatch_loop hbuffer left m' false)]
        exact ⟨rfl, fun _ => rfl, fun _ => rfl⟩
      | some token =>
        obtain ⟨landed, w', hstep⟩ : ∃ landed w', s.world.step b
            (.markPendingWithLease m'.row.id token
              { delaySeconds := delay
                attemptsCount := m'.attemptsCount
                firstAttemptAt := m'.firstAttemptAt
                lastAttemptAt := m'.lastAttemptAt }) = (.rescheduled landed, w') :=
          ⟨_, _, rfl⟩
        dsimp only [finish, pending, Stmt.op]
        rw [hpending]
        dsimp only
        rw [hstep]
        cases landed with
        | true =>
          refine ⟨by simp [writeReplied, Inline.safeFlush], fun _ => rfl, fun _ => ?_⟩
          exact afterDispatch_loop (f := (f.note _).emitMetric m' _ _) hbuffer replied m' false
        | false =>
          refine ⟨by simp [writeReplied, Inline.safeFlush], fun _ => rfl, fun _ => ?_⟩
          exact afterDispatch_loop (f := (f.note _).emitLeaseLost cfg m' .retry) hbuffer replied m'
            false

/-- **A worker dispatches as `dispatch_one` does.** -/
theorem walk_agrees (hrunning : f.shared.running = true) (acts : List HandlerAct)
    (entered : Reading) :
    Agrees (walk b cfg w f m acts entered left replied)
      (Inline.dispatchOne recorder cfg b true s m
        { acts := acts, entered := entered, left := left }) := by
  obtain ⟨allowed, m', hallowed⟩ : ∃ allowed m', OutboxInnerMessage.allowDelivery
      { m with retryStrategy := cfg.retryStrategy } cfg.maxDeliveries = (allowed, m') :=
    ⟨_, _, rfl⟩
  unfold walk dispatchOne
  simp only [hallowed]
  cases allowed with
  | false =>
    rw [Inline.dispatchOne_of_capped recorder cfg b hallowed]
    simp only [Bool.not_false, if_true]
    split
    · rename_i hpc
      exact absurd (congrArg Prod.snd hpc)
        (flushOrBuffer_pc (f := f.note _) hengine hbatch hbuffer entered m' _ _ _ _ _)
    · exact flushOrBuffer_agrees (f := f.note _) recorder b w hworld hengine hbatch hbuffer entered
        replied m' _ _ _ _ _
  | true =>
    rw [Inline.dispatchOne_of_allowed recorder cfg b hallowed]
    simp only [Bool.not_true, Bool.false_eq_true, if_false]
    generalize hg : f.emitMetric m' .dispatched _ = g
    obtain ⟨hshared, hempty⟩ : g.shared = f.shared ∧ g.buffer = f.buffer := by
      rw [← hg]
      exact ⟨rfl, rfl⟩
    rw [← hshared] at hrunning
    rw [if_pos hrunning]
    unfold consumeEnded
    exact writeOutcome_agrees (f := g.note _) recorder b w
      ((Inline.emitMetric_world recorder _ _).trans hworld) hengine hbatch (hempty.trans hbuffer)
      left replied _ hrunning

end Agrees

end Worker

/-! ## The claim -/

/-- **A dispatch with a writer connection writes the outcome recorded first**, and does not
    raise, if and only if that outcome can be archived. -/
theorem dispatch_writes_outcome (b : Backend) (cfg : SubscriberConfig)
    (recorder : Event → Tags → Except PyException Unit) (policy : AckPolicy) (h : HandlerRun)
    (entered left : Reading) (monotonic : Int) (s : Inline.State) (hwf : s.world.store.WF)
    (row stored : Row) (token : UUID) (hstored : s.world.store.row? row.id = some stored)
    (htoken : stored.acquiredToken = some token) (hrow : row.acquiredToken = some token) :
    let out := Inline.dispatchOne recorder cfg b true s (OutboxInnerMessage.ofRow row monotonic)
      { acts := h.acts policy, entered := entered, left := left }
    let v := h.verdict cfg policy left row
    (out.1 = false ∧
      out.2.world = { s.world with store := v.effect cfg row s.world.store s.world.now }) ↔
    ¬v.Unrenderable cfg := by
  intro out v
  rcases Inline.dispatchOne_went recorder cfg b hwf hstored htoken hrow policy h entered left
    monotonic true with ⟨hrenders, hquiet, hworld⟩ | ⟨hno, hraised, _⟩
  · exact ⟨fun _ => hrenders, fun _ => ⟨hquiet, hworld⟩⟩
  · exact ⟨fun hquiet => absurd (hraised.symm.trans hquiet.1) (by simp), fun h => absurd hno h⟩

/-- A claim of row 1 under token 7. -/
def claimedRow : Row :=
  { id := 1, queue := "orders", payload := [1], headers := none, createdAt := 0, nextAttemptAt := 0
    acquiredAt := some 0, acquiredToken := some 7, deliveriesCount := 1 }

/-- The database it was claimed from. -/
def claimedState : Inline.State := { world := { store := { rows := [claimedRow], nextId := 2 } } }

theorem claimedState_wf : claimedState.world.store.WF where
  nodup_ids := by decide
  ids_lt := by decide
  lease_ck := by decide
  timer_uq := by decide

/-- A broker with a dead-letter table and the renderer. -/
def archivingConfig (renderer : PyException → Except PyException (Option String)) :
    SubscriberConfig :=
  { plainConfig with dlqTable := true, lastExceptionRenderer := some renderer }

/-- A handler that raises. -/
def raisingHandler : HandlerRun where
  calls := []
  ending := .raised { typeName := "ValueError", repr := some "ValueError()" }
  reading := {}

/-- A recorder that raises is not noticed. -/
theorem dispatch_writes_outcome_archived :
    (Inline.dispatchOne (fun _ _ => .error { typeName := "TypeError", repr := none })
      (archivingConfig fun e => .ok (some e.typeName)) .postgres true claimedState
      (OutboxInnerMessage.ofRow claimedRow 0)
      { acts := raisingHandler.acts .rejectOnError }).2.world.store =
    { rows := [], nextId := 2
      dlqRows := [dlqProjection claimedRow 0 "rejected" (some "ValueError")] } := by
  have hwrites := (dispatch_writes_outcome .postgres
    (archivingConfig fun e => .ok (some e.typeName))
    (fun _ _ => .error { typeName := "TypeError", repr := none }) .rejectOnError raisingHandler {}
    {} 0 claimedState claimedState_wf claimedRow claimedRow 7 rfl rfl rfl).mpr
    fun ⟨_, _, e, he⟩ => nomatch he
  rw [hwrites.2]
  rfl

/-- **A renderer that raises escapes the flush**, and the outcome is not written. -/
theorem renderer_escapes :
    ¬ ∀ (b : Backend) (cfg : SubscriberConfig)
      (recorder : Event → Tags → Except PyException Unit) (policy : AckPolicy) (h : HandlerRun)
      (entered left : Reading) (monotonic : Int) (s : Inline.State) (_ : s.world.store.WF)
      (row stored : Row) (token : UUID) (_ : s.world.store.row? row.id = some stored)
      (_ : stored.acquiredToken = some token) (_ : row.acquiredToken = some token),
      let out := Inline.dispatchOne recorder cfg b true s (OutboxInnerMessage.ofRow row monotonic)
        { acts := h.acts policy, entered := entered, left := left }
      out.1 = false ∧ out.2.world = { s.world with
        store := (h.verdict cfg policy left row).effect cfg row s.world.store s.world.now } := by
  intro hclaim
  have hquiet := (hclaim .postgres (archivingConfig fun e => .error e) (fun _ _ => .ok ())
    .rejectOnError raisingHandler {} {} 0 claimedState claimedState_wf claimedRow claimedRow 7 rfl
    rfl rfl).1
  have hraised : (Inline.dispatchOne (fun _ _ => .ok ()) (archivingConfig fun e => .error e)
      .postgres true claimedState (OutboxInnerMessage.ofRow claimedRow 0)
      { acts := raisingHandler.acts .rejectOnError }).1 = true := rfl
  exact absurd (hraised.symm.trans hquiet) (by simp)

end Outbox
