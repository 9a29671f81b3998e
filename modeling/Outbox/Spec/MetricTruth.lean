import Outbox.Spec.NoRowLost

/-!
# The metrics tell the truth

A metric about a claim names the row, the subscriber and the delivery of that claim. The
metric of an outcome goes out on the strength of a reply: an `acked`, a `nacked_retried`, a
`nacked_terminal` or a `dlq_written` of one that says the write landed, a `lease_lost` of one
that says it did not. Every reply a worker acts on is one the database gave it, so each of
these metrics is about an operation the database ran.

## Key results

- `Worker.step_honest`: what a worker says is backed by the reply it was resumed with
- `System.run_honest`: every metric of a run is backed by an operation the database ran
- `metrics_truthful`: what each metric says about the tables
-/

namespace Outbox

open List

/-! ## What a metric says -/

/-- The tags name the queue and the delivery of the row, and the subscriber. -/
structure Names (cfg : SubscriberConfig) (row : Row) (tags : Tags) : Prop where
  queue : tags.queue = row.queue
  subscriber : tags.subscriber = cfg.callName
  deliveries : tags.deliveriesCount = some row.deliveriesCount

/-- The metric is that of the outcome recorded on the message. -/
inductive Reports (m : OutboxInnerMessage) : Event → Tags → Prop where
  | acked {tags : Tags} (h : m.outcome = some .ack) : Reports m .acked tags
  | rescheduled {tags : Tags} {delay : Int} (h : m.outcome = some (.retry delay))
      (htag : tags.nextDelaySeconds = some delay) : Reports m .nackedRetried tags
  | failed {tags : Tags} {reason : DlqFailureReason} (h : m.outcome = some (.terminal reason))
      (htag : tags.reason = some reason) : Reports m .nackedTerminal tags

/-- The metrics a reply to a statement warrants for a message the statement writes. -/
inductive Warrants : Stmt → Reply → OutboxInnerMessage → Event → Tags → Prop where
  | deleted {m : OutboxInnerMessage} {token : UUID} {dlqTable : Bool}
      {payload : Option DlqPayload} {event : Event} {tags : Tags} (h : Reports m event tags) :
      Warrants (.deleteWithLease m token dlqTable payload) (.deleted (.ok true)) m event tags
  | archived {m : OutboxInnerMessage} {token : UUID} {dlqTable : Bool}
      {payload : Option DlqPayload} {tags : Tags} (h : payload.isSome)
      (htag : tags.failureReason = m.terminalFailureReason) :
      Warrants (.deleteWithLease m token dlqTable payload) (.deleted (.ok true)) m .dlqWritten
        tags
  | notDeleted {m : OutboxInnerMessage} {token : UUID} {dlqTable : Bool}
      {payload : Option DlqPayload} {tags : Tags} (htag : tags.phase = some .terminal) :
      Warrants (.deleteWithLease m token dlqTable payload) (.deleted (.ok false)) m .leaseLost
        tags
  | rescheduled {m : OutboxInnerMessage} {token : UUID} {delay : Int} {event : Event}
      {tags : Tags} (h : Reports m event tags) :
      Warrants (.markPendingWithLease m token delay) (.rescheduled true) m event tags
  | notRescheduled {m : OutboxInnerMessage} {token : UUID} {delay : Int} {tags : Tags}
      (htag : tags.phase = some .retry) :
      Warrants (.markPendingWithLease m token delay) (.rescheduled false) m .leaseLost tags
  | deletedBatch {pending : List PendingFlush} {pairs : Finset (Nat × UUID)} {p : PendingFlush}
      {token : UUID} (hp : p ∈ pending) (htoken : p.row.row.acquiredToken = some token)
      (hpair : (p.row.row.id, token) ∈ pairs) (h : Reports p.row p.event p.tags) :
      Warrants (.deleteBatchWithLease pending) (.deletedBatch pairs) p.row p.event p.tags
  | notInBatch {pending : List PendingFlush} {pairs : Finset (Nat × UUID)} {p : PendingFlush}
      {tags : Tags} (hp : p ∈ pending) (htag : tags.phase = some .terminal)
      (hpair : ∀ token, p.row.row.acquiredToken = some token → (p.row.row.id, token) ∉ pairs) :
      Warrants (.deleteBatchWithLease pending) (.deletedBatch pairs) p.row .leaseLost tags

/-- The metrics that say nothing about an outcome. -/
def Event.plain (event : Event) : Bool :=
  match event with
  | .dispatched | .dispatchAbandoned => true
  | _ => false

section Honest

variable (known : Row → Prop) (told : Stmt → Reply → Prop) (cfg : SubscriberConfig)

/-- A note, seen by someone who has the replies `told`: a metric about a claim names it, and
    says no more of its outcome than a reply did. -/
def Note.Honest : Note → Prop
  | .metric (some key) event tags => ∃ m : OutboxInnerMessage, m.Claimed known ∧ m.key = key ∧
    Names cfg m.row tags ∧
      (event.plain = true ∨ ∃ stmt reply, told stmt reply ∧ Warrants stmt reply m event tags)
  | _ => True

/-- The metric a buffered delete goes with. -/
structure PendingFlush.Honest (p : PendingFlush) : Prop where
  claimed : p.row.Claimed known
  names : Names cfg p.row.row p.tags
  reports : Reports p.row p.event p.tags

/-- The locals of a suspended worker. -/
def WorkerPc.Honest : WorkerPc → Prop
  | .consuming m _ => m.Claimed known
  | .writing m _ kind _ =>
    m.Claimed known ∧ Names cfg m.row kind.metric.2 ∧ Reports m kind.metric.1 kind.metric.2
  | _ => True

/-- A worker that has just issued a statement has no reply to it. -/
def WorkerPc.unanswered : WorkerPc → Bool
  | .writing _ _ _ reply => reply.isNone
  | .flushing _ reply => reply.isNone
  | _ => true

/-- What a stretch has said and buffered so far. -/
structure Frame.Honest (f : Frame) : Prop where
  notes : ∀ n ∈ f.notes, n.Honest known told cfg
  buffer : ∀ p ∈ f.buffer, p.Honest known cfg

/-- A stretch that ends at an await. -/
structure Spoken (out : Frame × WorkerPc) : Prop where
  frame : out.1.Honest known told cfg
  pc : out.2.Honest known cfg
  unanswered : out.2.unanswered = true

end Honest

section Mono

variable {known known' : Row → Prop} {told told' : Stmt → Reply → Prop} {cfg : SubscriberConfig}
  (hknown : ∀ row, known row → known' row)
include hknown

theorem Note.Honest.mono (htold : ∀ stmt reply, told stmt reply → told' stmt reply) {n : Note}
    (h : n.Honest known told cfg) : n.Honest known' told' cfg := by
  unfold Note.Honest at h ⊢
  split at h
  · obtain ⟨m, hclaimed, hkey, hnames, hplain | ⟨stmt, reply, hreply, hwarrants⟩⟩ := h
    · exact ⟨m, hclaimed.mono hknown, hkey, hnames, .inl hplain⟩
    · exact ⟨m, hclaimed.mono hknown, hkey, hnames,
        .inr ⟨stmt, reply, htold stmt reply hreply, hwarrants⟩⟩
  · trivial

theorem PendingFlush.Honest.mono {p : PendingFlush} (h : p.Honest known cfg) :
    p.Honest known' cfg :=
  ⟨h.claimed.mono hknown, h.names, h.reports⟩

theorem WorkerPc.Honest.mono {pc : WorkerPc} (h : pc.Honest known cfg) :
    pc.Honest known' cfg := by
  unfold WorkerPc.Honest at h ⊢
  split at h
  · exact h.mono hknown
  · exact ⟨h.1.mono hknown, h.2⟩
  · trivial

end Mono

/-! ## One stretch of a worker -/

section Stretch

variable {known : Row → Prop} {told : Stmt → Reply → Prop} {cfg : SubscriberConfig} {f : Frame}

namespace Frame.Honest

/-- A note that is no metric of a claim. -/
theorem note (h : f.Honest known told cfg) (n : Note) (hn : n.Honest known told cfg) :
    (f.note n).Honest known told cfg where
  notes n' hn' := by
    rw [Frame.note_notes, mem_append, mem_singleton] at hn'
    cases hn' with
    | inl hold => exact h.notes n' hold
    | inr hnew => exact hnew ▸ hn
  buffer := h.buffer

theorem taskDone (h : f.Honest known told cfg) : f.taskDone.Honest known told cfg :=
  ⟨h.notes, h.buffer⟩

theorem cleared (h : f.Honest known told cfg) :
    Frame.Honest known told cfg { f with buffer := [] } where
  notes := h.notes
  buffer p hp := by cases hp

theorem reshared (h : f.Honest known told cfg) (sh : Shared) :
    Frame.Honest known told cfg { f with shared := sh } :=
  ⟨h.notes, h.buffer⟩

/-- A metric of a claim that says nothing of its outcome. -/
theorem plain (h : f.Honest known told cfg) {m : OutboxInnerMessage} (hm : m.Claimed known)
    {event : Event} (hevent : event.plain = true) {tags : Tags} (htags : Names cfg m.row tags) :
    (f.emitMetric m event tags).Honest known told cfg :=
  h.note _ ⟨m, hm, rfl, htags, .inl hevent⟩

/-- A metric of a claim that a reply warrants. -/
theorem warranted (h : f.Honest known told cfg) {m : OutboxInnerMessage} (hm : m.Claimed known)
    {stmt : Stmt} {reply : Reply} (htold : told stmt reply) {event : Event} {tags : Tags}
    (hwarrants : Warrants stmt reply m event tags) (htags : Names cfg m.row tags) :
    (f.emitMetric m event tags).Honest known told cfg :=
  h.note _ ⟨m, hm, rfl, htags, .inr ⟨stmt, reply, htold, hwarrants⟩⟩

theorem abandoned (h : f.Honest known told cfg) {m : OutboxInnerMessage}
    (hm : m.Claimed known) : (f.emitDispatchAbandoned cfg m).Honest known told cfg := by
  unfold Frame.emitDispatchAbandoned
  split
  · exact h
  · exact h.plain hm rfl ⟨rfl, rfl, rfl⟩

theorem leaseLost (h : f.Honest known told cfg) {m : OutboxInnerMessage} (hm : m.Claimed known)
    {stmt : Stmt} {reply : Reply} (htold : told stmt reply) {phase : Phase}
    (hwarrants : ∀ tags : Tags, tags.phase = some phase →
      Warrants stmt reply m .leaseLost tags) :
    (f.emitLeaseLost cfg m phase).Honest known told cfg :=
  h.warranted hm htold (hwarrants _ rfl) ⟨rfl, rfl, rfl⟩

end Frame.Honest

namespace Worker

theorem leave_spoken (h : f.Honest known told cfg) (why : Exit) :
    Spoken known told cfg (leave cfg f why) := by
  unfold leave
  split
  · exact ⟨h, trivial, rfl⟩
  · cases why <;> exact ⟨h, trivial, rfl⟩

theorem resume_spoken (h : f.Honest known told cfg) (next : AfterFlush) :
    Spoken known told cfg (resume cfg f next) := by
  cases next with
  | exit why => exact leave_spoken h why
  | _ => exact ⟨h, trivial, rfl⟩

theorem flushBuffer_spoken (h : f.Honest known told cfg) (next : AfterFlush) :
    Spoken known told cfg (flushBuffer cfg f next) := by
  unfold flushBuffer
  split
  · exact resume_spoken h next
  · refine ⟨⟨fun n hn => ?_, h.buffer⟩, trivial, rfl⟩
    rw [mem_append, mem_map] at hn
    obtain hold | ⟨p, _, rfl⟩ := hn
    · exact h.notes n hold
    · trivial

theorem unwind_spoken (h : f.Honest known told cfg) (why : Exit) :
    Spoken known told cfg (unwind cfg f why) :=
  flushBuffer_spoken h (.exit why)

theorem flushIfDue_spoken (h : f.Honest known told cfg) (due : Bool) :
    Spoken known told cfg (if due then flushBuffer cfg f .loop else (f, .loop)) := by
  split
  · exact flushBuffer_spoken h .loop
  · exact ⟨h, trivial, rfl⟩

theorem afterDispatch_spoken (h : f.Honest known told cfg) (r : Reading)
    (m : OutboxInnerMessage) (buffered : Bool) :
    Spoken known told cfg (afterDispatch cfg r f m buffered) := by
  have hended : Frame.Honest known told cfg
      (if buffered then f.note (.buffered m.key) else (f.note (.ended m.key)).taskDone) := by
    split
    · exact h.note (.buffered m.key) trivial
    · exact (h.note (.ended m.key) trivial).taskDone
  exact flushIfDue_spoken hended _

theorem dispatchRaised_spoken (h : f.Honest known told cfg) (m : OutboxInnerMessage)
    (why : Exit) : Spoken known told cfg (dispatchRaised cfg f m why) :=
  unwind_spoken (h.note (.ended m.key) trivial).taskDone why

theorem writeRaised_spoken (h : f.Honest known told cfg) (r : Reading) {m : OutboxInnerMessage}
    (hm : m.Claimed known) : Spoken known told cfg (writeRaised cfg r f m) := by
  unfold writeRaised
  dsimp only
  split
  · exact dispatchRaised_spoken (h.abandoned hm) m .error
  · exact afterDispatch_spoken (h.abandoned hm) r m false

/-- One row of a flush: the reply tells whether its delete landed. -/
theorem closePending_honest (h : f.Honest known told cfg) {pending : List PendingFlush}
    {pairs : Finset (Nat × UUID)}
    (htold : told (.deleteBatchWithLease pending) (.deletedBatch pairs)) {p : PendingFlush}
    (hmem : p ∈ pending) (hp : p.Honest known cfg) :
    (closePending cfg pairs f p).Honest known told cfg := by
  unfold closePending
  dsimp only
  split
  · rename_i hlanded
    obtain ⟨token, htoken, hpair⟩ := (Option.any_eq_true _ _).mp hlanded
    exact (h.warranted hp.claimed htold
      (.deletedBatch hmem htoken (of_decide_eq_true hpair) hp.reports) hp.names).taskDone
  · rename_i hlanded
    refine (h.leaseLost hp.claimed htold fun tags htag => .notInBatch hmem htag ?_).taskDone
    intro token htoken hpair
    simp [htoken, hpair] at hlanded

theorem foldl_closePending_honest (h : f.Honest known told cfg) {pending : List PendingFlush}
    {pairs : Finset (Nat × UUID)}
    (htold : told (.deleteBatchWithLease pending) (.deletedBatch pairs))
    (buffer : List PendingFlush) (hmem : ∀ p ∈ buffer, p ∈ pending)
    (hbuffer : ∀ p ∈ buffer, p.Honest known cfg) :
    (buffer.foldl (closePending cfg pairs) f).Honest known told cfg := by
  induction buffer generalizing f with
  | nil => exact h
  | cons p rest ih =>
    exact ih (closePending_honest h htold (hmem p mem_cons_self) (hbuffer p mem_cons_self))
      (fun q hq => hmem q (mem_cons_of_mem p hq)) fun q hq => hbuffer q (mem_cons_of_mem p hq)

theorem flushed_spoken (h : f.Honest known told cfg) {pairs : Finset (Nat × UUID)}
    (htold : told (.deleteBatchWithLease f.buffer) (.deletedBatch pairs)) (next : AfterFlush) :
    Spoken known told cfg (flushed cfg f pairs next) :=
  resume_spoken (foldl_closePending_honest h htold f.buffer (fun _ hp => hp) h.buffer).cleared next

theorem foldl_abandoned_honest (h : f.Honest known told cfg) (buffer : List PendingFlush)
    (hbuffer : ∀ p ∈ buffer, p.Honest known cfg) :
    (buffer.foldl (fun f p => (f.emitDispatchAbandoned cfg p.row).taskDone) f).Honest
      known told cfg := by
  induction buffer generalizing f with
  | nil => exact h
  | cons p rest ih =>
    exact ih (h.abandoned (hbuffer p mem_cons_self).claimed).taskDone
      fun q hq => hbuffer q (mem_cons_of_mem p hq)

theorem flushRaised_spoken (h : f.Honest known told cfg) (next : AfterFlush) (why : Exit) :
    Spoken known told cfg (flushRaised cfg f next why) := by
  have hcleared := (foldl_abandoned_honest h f.buffer h.buffer).cleared
  unfold flushRaised
  dsimp only
  split
  · exact leave_spoken hcleared _
  · exact unwind_spoken hcleared why

theorem flushOrBuffer_spoken (h : f.Honest known told cfg) (r : Reading)
    {m : OutboxInnerMessage} (hm : m.Claimed known) {event : Event} {tags : Tags}
    (htags : Names cfg m.row tags) (hreports : Reports m event tags) (useBuffer : Bool) :
    Spoken known told cfg (flushOrBuffer cfg r f m event tags useBuffer) := by
  unfold flushOrBuffer
  split
  · have hbuffer : Frame.Honest known told cfg
        { f with buffer := f.buffer ++ [{ row := m, event := event, tags := tags }] } := by
      refine ⟨h.notes, fun p hp => ?_⟩
      rw [mem_append, mem_singleton] at hp
      obtain hold | rfl := hp
      · exact h.buffer p hold
      · exact ⟨hm, htags, hreports⟩
    exact afterDispatch_spoken hbuffer r m true
  · split
    · exact afterDispatch_spoken h r m false
    · split
      · exact writeRaised_spoken h r hm
      · exact ⟨h.note (.writeIssued m.key) trivial, ⟨hm, htags, hreports⟩, rfl⟩

/-- The fallback records an outcome on a message that has none. -/
theorem assertStateSet_frame (m : OutboxInnerMessage) (r : Reading) :
    (m.assertStateSet r).row = m.row ∧ (m.assertStateSet r).stateSet = true := by
  unfold OutboxInnerMessage.assertStateSet
  split
  · exact ⟨rfl, ‹_›⟩
  · rename_i hset
    split
    · rw [OutboxInnerMessage.nack, if_neg hset]
      exact ⟨rfl, rfl⟩
    · rw [OutboxInnerMessage.reject, if_neg hset]
      exact ⟨rfl, rfl⟩

theorem writeOutcome_spoken (h : f.Honest known told cfg) (r : Reading)
    {m : OutboxInnerMessage} (hm : m.Claimed known) (useBuffer : Bool) :
    Spoken known told cfg (writeOutcome cfg r f m useBuffer) := by
  unfold writeOutcome
  split
  · exact afterDispatch_spoken ((h.note (.leftToLease m.key) trivial).abandoned hm) r m false
  · obtain ⟨hrow, hset⟩ := assertStateSet_frame m r
    dsimp only
    generalize m.assertStateSet r = m' at hrow hset
    have hm' : m'.Claimed known := ⟨hrow ▸ hm.known, hrow ▸ hm.leased⟩
    split
    · rename_i reason hout
      exact flushOrBuffer_spoken h r hm' ⟨rfl, rfl, rfl⟩ (.failed hout rfl) useBuffer
    · rename_i delay hout
      split
      · exact afterDispatch_spoken h r m' false
      · exact ⟨h.note (.writeIssued m'.key) trivial,
          ⟨hm', ⟨rfl, rfl, rfl⟩, .rescheduled hout rfl⟩, rfl⟩
    · rename_i hterminal hretry
      -- an outcome is recorded, and it is neither of the others
      have hack : m'.outcome = some .ack := by
        obtain ⟨o, ho⟩ := OutboxInnerMessage.stateSet_iff.mp hset
        cases o with
        | ack => exact ho
        | retry delay => exact absurd ho (hretry delay)
        | terminal reason => exact absurd ho (hterminal reason)
      exact flushOrBuffer_spoken h r hm' ⟨rfl, rfl, rfl⟩ (.acked hack) useBuffer

theorem dispatchOne_spoken (h : f.Honest known told cfg) (r : Reading)
    {m : OutboxInnerMessage} (hm : m.Claimed known) :
    Spoken known told cfg (dispatchOne cfg r f m) := by
  unfold dispatchOne OutboxInnerMessage.allowDelivery
  dsimp only
  split
  · exact flushOrBuffer_spoken
      (m := { m with
        retryStrategy := cfg.retryStrategy
        outcome := some (.terminal .maxDeliveries) })
      (h.note (.capped _) trivial) r ⟨hm.known, hm.leased⟩ ⟨rfl, rfl, rfl⟩ (.failed rfl rfl) true
  · have hm' : OutboxInnerMessage.Claimed known { m with retryStrategy := cfg.retryStrategy } :=
      ⟨hm.known, hm.leased⟩
    have hnames : Names cfg m.row
        { baseTags cfg m.row.queue with
          deliveriesCount := some m.row.deliveriesCount
          sizeBytes := some m.row.payload.length } := ⟨rfl, rfl, rfl⟩
    have hdispatched := h.plain hm' (show Event.dispatched.plain = true from rfl) hnames
    simp only [Bool.not_true, Bool.false_eq_true, if_false]
    split
    · exact ⟨hdispatched.note _ trivial, ⟨hm.known, hm.leased⟩, rfl⟩
    · exact writeOutcome_spoken
        (m := { m with
          retryStrategy := cfg.retryStrategy
          handlerDurationSeconds := some 0 }) hdispatched r ⟨hm.known, hm.leased⟩ true

theorem handle_spoken (h : f.Honest known told cfg) (r : Reading) (generation : Nat)
    {m : OutboxInnerMessage} (hm : m.Claimed known) :
    Spoken known told cfg (handle cfg r generation f m) := by
  unfold handle
  split
  · exact flushBuffer_spoken (h.reshared _) .stale
  · exact dispatchOne_spoken (h.reshared _) r hm

theorem consumeEnded_spoken (h : f.Honest known told cfg) (how : ConsumeEnd)
    (acts : List HandlerAct) (r : Reading) {m : OutboxInnerMessage} (hm : m.Claimed known)
    (startPerf : Int) : Spoken known told cfg (consumeEnded cfg how acts r f m startPerf) := by
  have hrow : (acts.foldl (fun m a => a.run m) m).row = m.row := by
    induction acts generalizing m with
    | nil => rfl
    | cons a acts ih =>
      have hframe := (a.run_frame m).1
      exact (ih ⟨hframe ▸ hm.known, hframe ▸ hm.leased⟩).trans hframe
  unfold consumeEnded
  dsimp only
  generalize acts.foldl (fun m a => a.run m) m = m' at hrow
  -- the measured duration changes nothing of the claim
  have hm' : m'.Claimed known := ⟨hrow ▸ hm.known, hrow ▸ hm.leased⟩
  have htimed : ∀ duration, OutboxInnerMessage.Claimed known
      { m' with handlerDurationSeconds := some duration } := fun _ => ⟨hm'.known, hm'.leased⟩
  cases how with
  | returned => exact writeOutcome_spoken h r (htimed _) true
  | stopConsume => exact writeOutcome_spoken h r (htimed _) true
  | configError => exact writeOutcome_spoken h r (htimed _) false
  | exception =>
    exact afterDispatch_spoken ((h.note (.leftToLease m'.key) trivial).abandoned (htimed _)) r m'
      false
  | cancelledError =>
    exact dispatchRaised_spoken (h.note (.interrupted m'.key) trivial) m' .cancelled

/-- A write of one claim has its reply. -/
theorem writeReplied_spoken (h : f.Honest known told cfg) {r : Reading} {m : OutboxInnerMessage}
    {token : UUID} {kind : WriteKind} {stale : Option Reply}
    (hpc : (WorkerPc.writing m token kind stale).Honest known cfg) {reply : Reply}
    (htold : told (kind.stmt cfg m token) reply) {out : Frame × WorkerPc}
    (hout : writeReplied cfg r f m kind reply = some out) : Spoken known told cfg out := by
  obtain ⟨hm, hnames, hreports⟩ := hpc
  unfold writeReplied at hout
  split at hout
  · rename_i event tags payload
    cases hout
    have harchived : Frame.Honest known told cfg (if payload.isSome then
        f.emitMetric m .dlqWritten
          (withExceptionType
            { baseTags cfg m.row.queue with
              deliveriesCount := some m.row.deliveriesCount
              failureReason := m.terminalFailureReason } m)
        else f) := by
      split
      · exact h.warranted hm htold (.archived ‹_› rfl) ⟨rfl, rfl, rfl⟩
      · exact h
    exact afterDispatch_spoken (harchived.warranted hm htold (.deleted hreports) hnames) r m false
  · cases hout
    exact afterDispatch_spoken (h.leaseLost hm htold fun _ => .notDeleted) r m false
  · cases hout
    exact writeRaised_spoken h r hm
  · cases hout
    exact afterDispatch_spoken (h.warranted hm htold (.rescheduled hreports) hnames) r m false
  · cases hout
    exact afterDispatch_spoken (h.leaseLost hm htold fun _ => .notRescheduled) r m false
  · cases hout

theorem cancelAt_spoken (h : f.Honest known told cfg) {pc : WorkerPc}
    (hpc : pc.Honest known cfg) : Spoken known told cfg (cancelAt cfg f pc) := by
  cases pc with
  | loop | getting | invalidating => exact unwind_spoken h .cancelled
  | writing m token kind reply =>
    exact dispatchRaised_spoken (h.abandoned hpc.1) m .cancelled
  | flushing next reply => exact flushRaised_spoken h next .cancelled
  | _ => exact ⟨h, trivial, rfl⟩

end Worker

end Stretch

/-! ## Workers -/

/-- The statement a worker has the reply to. -/
def Worker.answered (cfg : SubscriberConfig) (w : Worker) : Option (Stmt × Reply) :=
  match w.pc with
  | .writing m token kind (some reply) => some (kind.stmt cfg m token, reply)
  | .flushing _ (some reply) => some (.deleteBatchWithLease w.buffer, reply)
  | _ => none

/-- A worker whose metrics will be backed. -/
structure Worker.Honest (known : Row → Prop) (told : Stmt → Reply → Prop)
    (cfg : SubscriberConfig) (w : Worker) : Prop where
  buffer : ∀ p ∈ w.buffer, p.Honest known cfg
  pc : w.pc.Honest known cfg
  answered : ∀ stmt reply, w.answered cfg = some (stmt, reply) → told stmt reply

namespace Worker

variable {known : Row → Prop} {told : Stmt → Reply → Prop} {cfg : SubscriberConfig}

/-- A worker that waits for nothing it has issued. -/
theorem answered_of_unanswered {w : Worker} (h : w.pc.unanswered = true) :
    w.answered cfg = none := by
  unfold answered
  split
  · rename_i hpc
    rw [hpc] at h
    cases h
  · rename_i hpc
    rw [hpc] at h
    cases h
  · rfl

theorem new_honest (generation : Nat) (cancelled : Bool) :
    Worker.Honest known told cfg { generation := generation, cancelled := cancelled } where
  buffer p hp := by cases hp
  pc := trivial
  answered stmt reply h := by cases h

/-- **What a worker says in a step is backed by the reply it was resumed with.** -/
theorem step_honest {sh : Shared} {w : Worker} (h : w.Honest known told cfg)
    (hqueue : ∀ m ∈ sh.inflight, m.Claimed known) {act : WorkerAct} {out : StepOut}
    (hstep : step cfg sh w act = some out) : Spoken known told cfg (out.frame, out.pc) := by
  have hframe : ∀ sh : Shared, (w.frame sh).Honest known told cfg := fun sh =>
    ⟨(by simp [frame]), h.buffer⟩
  cases step_stepped hstep with
  | connects _ _ | enters _ _ | ends _ _ | opened _ | openFailed _ | closeFailed _ | retries _ =>
    exact ⟨hframe _, trivial, rfl⟩
  | stops _ _ => exact unwind_spoken (hframe _) .normal
  | idles _ _ => exact flushBuffer_spoken (hframe _) .get
  | took _ hget => exact handle_spoken (hframe _) _ _ (hqueue _ (hget ▸ mem_cons_self))
  | awaited _ hget => exact handle_spoken (hframe _) _ _ (hqueue _ (hget ▸ mem_cons_self))
  | consumed hpc =>
    have hm := h.pc
    rw [hpc] at hm
    exact consumeEnded_spoken (hframe _) _ _ _ hm _
  | wrote hpc hnext =>
    have hm := h.pc
    have htold := h.answered
    unfold answered at htold
    rw [hpc] at hm htold
    exact writeReplied_spoken (hframe _) hm (htold _ _ rfl) hnext
  | writeFailed hpc =>
    have hm := h.pc
    rw [hpc] at hm
    exact writeRaised_spoken (hframe _) _ hm.1
  | deleted hpc =>
    have htold := h.answered
    unfold answered at htold
    rw [hpc] at htold
    exact flushed_spoken (hframe _) (htold _ _ rfl) _
  | flushFailed _ => exact flushRaised_spoken (hframe _) _ .error
  | invalidated _ => exact unwind_spoken (hframe _) .stale
  | invalidateFailed _ => exact unwind_spoken (hframe _) .error
  | @closed why _ => cases why <;> exact ⟨hframe _, trivial, rfl⟩
  | cancelled _ _ _ => exact cancelAt_spoken (hframe _) h.pc

/-- A worker that was asked to stop, or not. -/
theorem Honest.recancelled {w : Worker} (h : w.Honest known told cfg) (cancelled : Bool) :
    Worker.Honest known told cfg { w with cancelled := cancelled } :=
  ⟨h.buffer, h.pc, h.answered⟩

/-- The worker has got the reply of the statement it awaits. -/
theorem Honest.delivered {w : Worker} (h : w.Honest known told cfg) {stmt : Stmt}
    (hstmt : w.pending cfg = some stmt) {reply : Reply} (htold : told stmt reply) :
    (w.deliver reply).Honest known told cfg := by
  have hpc := h.pc
  unfold pending at hstmt
  unfold deliver
  split at hstmt
  · rename_i heq
    cases hstmt
    rw [heq] at hpc ⊢
    exact ⟨h.buffer, hpc, fun stmt' reply' hanswered => by cases hanswered; exact htold⟩
  · rename_i heq
    cases hstmt
    rw [heq] at hpc ⊢
    exact ⟨h.buffer, hpc, fun stmt' reply' hanswered => by cases hanswered; exact htold⟩
  · rename_i heq
    cases hstmt
    rw [heq]
    exact ⟨h.buffer, trivial, fun stmt' reply' hanswered => by cases hanswered; exact htold⟩
  · cases hstmt

end Worker

/-! ## Subscribers -/

/-- A subscriber whose metrics are backed, and will be. -/
structure Subscriber.Honest (known : Row → Prop) (told : Stmt → Reply → Prop)
    (s : Subscriber) : Prop where
  log : ∀ n ∈ s.log, n.Honest known told s.cfg
  workers : ∀ w ∈ s.workers, w.Honest known told s.cfg

/-- What the fetch loop, `_on_notify` and `stop()` log is about no claim's outcome. -/
theorem Note.honest_of_aside {known : Row → Prop} {told : Stmt → Reply → Prop}
    {cfg : SubscriberConfig} {n : Note} (h : n.aside = true) : n.Honest known told cfg := by
  unfold Note.aside at h
  split at h
  all_goals trivial

namespace Subscriber

variable {known known' : Row → Prop} {told told' : Stmt → Reply → Prop} {s s' : Subscriber}

theorem Honest.mono (hknown : ∀ row, known row → known' row)
    (htold : ∀ stmt reply, told stmt reply → told' stmt reply) (h : s.Honest known told) :
    s.Honest known' told' where
  log n hn := (h.log n hn).mono hknown htold
  workers w hw := by
    obtain ⟨hbuffer, hpc, hanswered⟩ := h.workers w hw
    exact ⟨fun p hp => (hbuffer p hp).mono hknown, hpc.mono hknown,
      fun stmt reply hreply => htold stmt reply (hanswered stmt reply hreply)⟩

/-- A step of one worker. -/
theorem afterWorker_honest (h : s.Honest known told)
    (hqueue : ∀ m ∈ s.shared.inflight, m.Claimed known) {i : Nat} {w : Worker}
    (hw : s.workers[i]? = some w) {act : WorkerAct} {out : Worker.StepOut}
    (hstep : w.step s.cfg s.shared act = some out) :
    (s.afterWorker i out).Honest known told := by
  have hspoken := Worker.step_honest (h.workers w (mem_of_getElem? hw)) hqueue hstep
  refine ⟨fun n hn => ?_, fun w' hw' => ?_⟩
  · have hn : n ∈ s.log ++ out.frame.notes := hn
    rw [mem_append] at hn
    cases hn with
    | inl hold => exact h.log n hold
    | inr hnew => exact hspoken.frame.notes n hnew
  · obtain ⟨j, hj⟩ := mem_iff_getElem?.mp hw'
    cases afterWorker_cases hw hj with
    | inl hmoved =>
      -- it has just issued its statement, if any, and has no reply to it
      obtain ⟨_, hpc, hbuffer, _⟩ := hmoved
      have hnone : w'.answered s.cfg = none :=
        Worker.answered_of_unanswered (hpc ▸ hspoken.unanswered)
      refine ⟨hbuffer ▸ hspoken.frame.buffer, hpc ▸ hspoken.pc, fun stmt reply hreply => ?_⟩
      exact nomatch hnone.symm.trans hreply
    | inr hother => exact h.workers w' (mem_of_getElem? hother.2)

/-- A step that is no worker's. -/
theorem stands_honest (h : s.Honest known told) {act : SubscriberAct} {orphan : Option Stmt}
    (hstep : s.step act = some (s', orphan)) (hother : ∀ j wact, act ≠ .worker j wact)
    (hworkers : ∀ w' ∈ s'.workers, w'.Honest known told s.cfg) : s'.Honest known told := by
  cases step_cases hstep with
  | inl hworker =>
    obtain ⟨_, _, _, _, hact, _⟩ := hworker
    exact absurd hact (hother _ _)
  | inr haside =>
    obtain ⟨hcfg, notes, hlog, haside⟩ := haside
    refine ⟨fun n hn => ?_, hcfg ▸ hworkers⟩
    rw [hlog, mem_append] at hn
    rw [hcfg]
    cases hn with
    | inl hold => exact h.log n hold
    | inr hnew => exact Note.honest_of_aside (haside n hnew)

/-- **Every step keeps the metrics backed.** -/
theorem step_honest (h : s.Honest known told)
    (hqueue : ∀ m ∈ s.shared.inflight, m.Claimed known) {act : SubscriberAct}
    {orphan : Option Stmt} (hstep : s.step act = some (s', orphan)) : s'.Honest known told := by
  obtain ⟨j, w, wact, out, rfl, hw, hout, rfl⟩ | ⟨fact, out, rfl, _, rfl⟩ |
    ⟨hother, _, hstands⟩ := step_stands hstep
  · exact afterWorker_honest h hqueue hw hout
  · exact stands_honest h hstep nofun h.workers
  · refine stands_honest h hstep hother fun w' hw' => ?_
    obtain ⟨j, hj⟩ := mem_iff_getElem?.mp hw'
    obtain rfl | ⟨w, hw, heq⟩ := hstands.workers j w' hj
    · exact Worker.new_honest 0 false
    · rw [heq]
      exact (h.workers w (mem_of_getElem? hw)).recancelled _

end Subscriber

/-! ## The system -/

namespace System

/-- The database gave the reply to the statement of the subscriber with the given index. -/
def told (s : System) (index : Nat) (stmt : Stmt) (reply : Reply) : Prop :=
  ∃ e ∈ s.executed, e.source = .subscriber index stmt ∧ e.entry.output = reply

/-- Every metric is backed. -/
def Honest (s : System) : Prop :=
  ∀ (index : Nat) (sub : Subscriber), s.subscribers[index]? = some sub →
    sub.Honest (s.known index) (s.told index)

variable {b : Backend} {s s' : System}

theorem Grows.told (h : s.Grows s') (index : Nat) (stmt : Stmt) (reply : Reply)
    (hreply : s.told index stmt reply) : s'.told index stmt reply := by
  obtain ⟨e, he, hrest⟩ := hreply
  exact ⟨e, h.executed e he, hrest⟩

theorem execute_grows (source : Source) (op : Op) : s.Grows (s.execute b source op).2 where
  executed _ he := mem_append.mpr (.inl he)
  subscribers _ sub hsub := ⟨sub, hsub, rfl, [], (append_nil _).symm⟩

/-- A system that has done more. -/
theorem Grows.honest (h : s.Grows s') (hs : s.Honest) {index : Nat} {sub : Subscriber}
    (hsub : s.subscribers[index]? = some sub) : sub.Honest (s'.known index) (s'.told index) :=
  (hs index sub hsub).mono (h.known index) (h.told index)

/-- The database runs an operation, and one subscriber moves on. -/
theorem executed_honest (hs : s.Honest) (source : Source) (op : Op) {index : Nat}
    {sub' : Subscriber}
    (hsub' : sub'.Honest (known (s.execute b source op).2 index)
      (told (s.execute b source op).2 index)) :
    Honest { (s.execute b source op).2 with
      subscribers := s.subscribers.set index sub' } :=
  forall_getElem?_set (fun _ _ ht => (execute_grows source op).honest hs ht) hsub'

/-- **Every step of the system keeps the metrics backed.** -/
theorem step_honest (hinv : s.Inv b) (hs : s.Honest) {act : Act}
    (hstep : s.step b act = some s') : s'.Honest := by
  cases step_stepped hstep with
  | external _ => exact fun index sub hsub => (execute_grows _ _).honest hs hsub
  | appliedOrphan _ => exact fun index sub hsub => (execute_grows _ _).honest hs hsub
  | @subscriber index _ sub sub' _ hsub _ hout =>
    -- the database runs nothing
    have hqueue : ∀ m ∈ sub.shared.inflight, m.Claimed (s.known index) := fun m hm =>
      ((hinv.subscribers index sub hsub).books.queue m hm).1
    exact forall_getElem?_set hs (Subscriber.step_honest (hs index sub hsub) hqueue hout)
  | @appliedWorker index _ sub w stmt hsub hw hstmt =>
    have hgrown := (execute_grows (b := b) (.subscriber index stmt) (stmt.op [])).honest hs hsub
    refine executed_honest hs _ _ ⟨hgrown.log, fun w' hw' => ?_⟩
    obtain hw' | rfl := mem_or_eq_of_mem_set hw'
    · exact hgrown.workers w' hw'
    · exact (hgrown.workers w (mem_of_getElem? hw)).delivered hstmt
        ⟨_, mem_append.mpr (.inr mem_cons_self), rfl, rfl⟩
  | @appliedFetch index locked sub stmt hsub _ =>
    have hgrown := (execute_grows (b := b) (.subscriber index stmt) (stmt.op locked)).honest hs hsub
    exact executed_honest hs _ _ ⟨hgrown.log, hgrown.workers⟩

/-- **Every metric of a run is backed by an operation the database ran.** -/
theorem run_honest (b : Backend) (start : Int) (cfgs : List SubscriberConfig)
    (acts : List Act) : ((init start cfgs).run b acts).Honest := by
  have hinit : (init start cfgs).Honest := by
    intro index sub hsub
    obtain ⟨cfg, _, rfl⟩ := mem_map.mp (mem_of_getElem? hsub)
    exact { log := fun _ hn => (nomatch hn), workers := fun _ hw => (nomatch hw) }
  exact run_invariant hinit acts fun _ _ _ _ hinv hs hstep => step_honest hinv hs hstep

end System

/-! ## What the metrics say of the tables -/

/-- A task of the subscriber with the given index issued the operation. -/
def Executed.By (e : Executed) (index : Nat) : Prop := ∃ stmt, e.source = .subscriber index stmt

/-- The operation deleted the row of the claim and left one dead letter of it. -/
def Executed.Archives (e : Executed) (row : Row) (reason : DlqFailureReason) : Prop :=
  e.Removes row.id row ∧ ∃ lastException,
    e.archived = [dlqProjection row e.entry.before.now reason.text lastException]

/-- The phase of a write: that of an outcome that ends the row, or that of a retry. -/
def Op.phase : Op → Phase
  | .markPendingWithLease _ _ _ => .retry
  | _ => .terminal

/-- The operation wrote under the token of the claim, and the row was not held under it. -/
def Executed.MissesLease (e : Executed) (row : Row) : Prop :=
  ∃ token, row.acquiredToken = some token ∧ e.entry.input.Carries row.id token ∧
    ¬e.entry.before.store.Holds row.id token ∧ e.archived = []

/-- The operation put the row of the claim back, with one more attempt, for after the delay. -/
def Executed.Reschedules (e : Executed) (row : Row) (delay : Int) : Prop :=
  e.entry.before.store.row? row.id = some row ∧ ∃ utcnow,
    e.entry.after.store.row? row.id = some
      { row with
        nextAttemptAt := e.entry.before.now + max 0 delay
        attemptsCount := row.attemptsCount + 1
        firstAttemptAt := some (row.firstAttemptAt.getD utcnow)
        lastAttemptAt := some utcnow
        acquiredAt := none
        acquiredToken := none }

/-- What the database did, as a metric about a claim of the row has it. -/
def System.Shows (s : System) (index : Nat) (cfg : SubscriberConfig) (row : Row) (tags : Tags) :
    Event → Prop
  | .dispatched | .dispatchAbandoned => True
  | .acked => ∃ e ∈ s.executed, e.By index ∧ e.Removes row.id row ∧ e.archived = []
  | .nackedTerminal => ∃ reason, tags.reason = some reason ∧ ∃ e ∈ s.executed, e.By index ∧
      if cfg.dlqTable then e.Archives row reason
      else e.Removes row.id row ∧ e.archived = []
  | .dlqWritten => ∃ reason, tags.failureReason = some reason ∧ ∃ e ∈ s.executed, e.By index ∧
      e.Archives row reason
  | .nackedRetried => ∃ delay, tags.nextDelaySeconds = some delay ∧ ∃ e ∈ s.executed,
      e.By index ∧ e.Reschedules row delay
  | .leaseLost => ∃ e ∈ s.executed, e.By index ∧ e.MissesLease row ∧
      tags.phase = some e.entry.input.phase
  -- these are about no claim
  | .fetched | .drainTimeout => False

namespace Worker

variable {cfg : SubscriberConfig} {m : OutboxInnerMessage} {payload : Option DlqPayload}

/-- What a worker archives, the client accepts. -/
theorem dlqPayload_acceptable (h : dlqPayload cfg m = .ok payload) :
    DlqPayload.Acceptable cfg.dlqTable payload := by
  unfold dlqPayload at h
  split at h
  · cases h
    trivial
  · split at h
    · rename_i htable
      cases hrendered : renderLastException m.lastException cfg.lastExceptionRenderer with
      | error exc =>
        rw [hrendered] at h
        cases h
      | ok rendered =>
        rw [hrendered] at h
        cases h
        exact ⟨htable, rfl, rfl⟩
    · cases h
      trivial

/-- A payload is that of a terminal outcome, for a broker with a dead-letter table. -/
theorem dlqPayload_of_isSome (h : dlqPayload cfg m = .ok payload) (hsome : payload.isSome) :
    cfg.dlqTable = true ∧ ∃ reason, m.outcome = some (.terminal reason) := by
  unfold dlqPayload OutboxInnerMessage.terminalFailureReason at h
  split at h
  · cases h
    cases hsome
  · rename_i reason hreason
    split at hreason
    · split at h
      · exact ⟨‹_›, _, ‹_›⟩
      · cases h
        cases hsome
    · cases hreason

end Worker

/-- What `mark_pending_with_lease` makes of the row it finds. -/
theorem RowStep.of_rescheduled {id nextId : Nat} {now : Int} {token : UUID}
    {args : MarkPendingArgs} {r r' : Option Row}
    (h : RowStep id nextId now (.markPendingWithLease id token args) (.rescheduled true) r r') :
    ∃ row, r = some row ∧ r' = some (pendingSet row now args) := by
  cases h with
  | same _ hlanded _ => exact absurd ⟨⟨rfl, rfl⟩, rfl⟩ (hlanded token)
  | rescheduled _ => exact ⟨_, rfl, rfl⟩

namespace System

variable {b : Backend} {start : Int} {cfgs : List SubscriberConfig} {acts : List Act}
  {index : Nat} {sub : Subscriber} {m : OutboxInnerMessage} {event : Event} {tags : Tags}

/-- A delete that landed for a claim shows the outcome of the claim. -/
theorem run_shows_of_deleted
    (hsub : ((init start cfgs).run b acts).subscribers[index]? = some sub) {e : Executed}
    (he : e ∈ ((init start cfgs).run b acts).executed) {stmt : Stmt}
    (hsource : e.source = .subscriber index stmt) (hdelete : stmt.isDelete = true)
    (hjustified : stmt.Justified (((init start cfgs).run b acts).known index) sub.cfg)
    (hm : m ∈ stmt.messages) (hlanded : e.LandedFor m) (hreports : Reports m event tags) :
    ((init start cfgs).run b acts).Shows index sub.cfg m.row tags event := by
  have h := run_inv b start cfgs acts
  have hrow := run_written b start cfgs acts e he index stmt hsource m hm hlanded
  obtain ⟨hremoves, harchived⟩ := h.deleted_landed he hsource hdelete hsub hm hlanded hrow
  obtain ⟨houtcome, hpayload⟩ := hjustified.deletes hdelete hm
  cases hreports with
  | acked hack =>
    exact ⟨e, he, ⟨stmt, hsource⟩, hremoves, harchived.trans (m.archive_of_ack hack _ _)⟩
  | rescheduled hretry _ =>
    -- such an outcome deletes nothing
    simp [OutboxInnerMessage.Deletes, hretry] at houtcome
  | @failed _ reason hterminal htag =>
    have hletters := OutboxInnerMessage.archive_of_terminal hterminal hpayload e.entry.before.now
    rw [← harchived] at hletters
    refine ⟨reason, htag, e, he, ⟨stmt, hsource⟩, ?_⟩
    split at hletters
    · rw [if_pos ‹_›]
      exact ⟨hremoves, hletters⟩
    · rw [if_neg ‹_›]
      exact ⟨hremoves, hletters⟩

/-- A write that reports no success did not find the lease. -/
theorem Inv.missesLease {s : System} (h : s.Inv b) {e : Executed} (he : e ∈ s.executed)
    {token : UUID} (htoken : m.row.acquiredToken = some token)
    (hok : e.entry.input.Acceptable) (hcarries : e.entry.input.Carries m.row.id token)
    (hmissed : ¬Landed e.entry.input e.entry.output m.row.id token) (harchived : e.archived = []) :
    e.MissesLease m.row := by
  obtain ⟨hwf, hstep⟩ := h.steps e he
  refine ⟨token, htoken, hcarries, fun hholds => hmissed ?_, harchived⟩
  have hlanded := World.landed_of_holds hwf b hok hcarries hholds
  have hreply : (e.entry.before.apply b e.entry.input).1 = e.entry.output :=
    congrArg Prod.fst hstep
  rwa [hreply] at hlanded

/-- A reply of the database shows the metrics it warrants. -/
theorem run_shows_of_warrants
    (hsub : ((init start cfgs).run b acts).subscribers[index]? = some sub) {stmt : Stmt}
    {reply : Reply} (htold : ((init start cfgs).run b acts).told index stmt reply)
    (hwarrants : Warrants stmt reply m event tags) :
    ((init start cfgs).run b acts).Shows index sub.cfg m.row tags event := by
  have h := run_inv b start cfgs acts
  obtain ⟨e, he, hsource, rfl⟩ := htold
  have hsent := h.sent e he
  rw [hsource] at hsent
  obtain ⟨⟨sub', hsub', hjustified, _⟩, locked, hinput⟩ := hsent
  obtain rfl : sub = sub' := Option.some_inj.mp (hsub.symm.trans hsub')
  have hby : e.By index := ⟨stmt, hsource⟩
  generalize hreply : e.entry.output = reply at hwarrants
  cases hwarrants with
  | @deleted _ token dlqTable payload _ _ hreports =>
    have hlanded : e.LandedFor m := by
      refine ⟨token, hjustified.2.1, ?_⟩
      rw [hinput, hreply]
      exact ⟨⟨rfl, rfl⟩, rfl⟩
    exact run_shows_of_deleted hsub he hsource rfl hjustified (mem_singleton.mpr rfl) hlanded
      hreports
  | @archived _ token dlqTable payload _ hsome htag =>
    obtain ⟨_, htoken, _, _, rfl, hpayload⟩ := hjustified
    obtain ⟨htable, reason, hterminal⟩ := Worker.dlqPayload_of_isSome hpayload hsome
    have hlanded : e.LandedFor m := by
      refine ⟨token, htoken, ?_⟩
      rw [hinput, hreply]
      exact ⟨⟨rfl, rfl⟩, rfl⟩
    have hrow := run_written b start cfgs acts e he index _ hsource m (mem_singleton.mpr rfl)
      hlanded
    obtain ⟨hremoves, harchived⟩ := h.deleted_landed he hsource rfl hsub (mem_singleton.mpr rfl)
      hlanded hrow
    have hletters := OutboxInnerMessage.archive_of_terminal hterminal ⟨payload, hpayload⟩
      e.entry.before.now
    rw [if_pos htable, ← harchived] at hletters
    refine ⟨reason, ?_, e, he, hby, hremoves, hletters⟩
    rw [htag, OutboxInnerMessage.terminalFailureReason, hterminal]
  | @notDeleted _ token dlqTable payload _ htag =>
    obtain ⟨_, htoken, _, _, rfl, hpayload⟩ := hjustified
    refine ⟨e, he, hby, h.missesLease he htoken ?_ ?_ ?_ ?_, by rw [hinput]; exact htag⟩
    · rw [hinput]
      exact Worker.dlqPayload_acceptable hpayload
    · rw [hinput]
      exact ⟨rfl, rfl⟩
    · simp [hinput, hreply, Landed, Stmt.op]
    · simp [Executed.archived, World.archivedBy, hinput, hreply, Stmt.op]
  | @rescheduled _ token delay _ _ hreports =>
    obtain ⟨_, htoken, _, hattempted, hretry⟩ := hjustified
    have hlanded : e.LandedFor m := by
      refine ⟨token, htoken, ?_⟩
      rw [hinput, hreply]
      exact ⟨⟨rfl, rfl⟩, rfl⟩
    have hrow := run_written b start cfgs acts e he index _ hsource m (mem_singleton.mpr rfl)
      hlanded
    have hstep := h.executed_rowStep he m.row.id
    rw [hinput, hreply] at hstep
    obtain ⟨row, hbefore, hafter⟩ := hstep.of_rescheduled
    obtain rfl : m.row = row := Option.some_inj.mp (hrow.symm.trans hbefore)
    obtain ⟨utcnow, hlast, hfirst⟩ := hattempted.stamped
    cases hreports with
    | acked hack => simp [hretry] at hack
    | failed hterminal _ => simp [hretry] at hterminal
    | rescheduled hdelay htag =>
      obtain rfl : delay = _ := by simpa [hretry] using hdelay
      refine ⟨delay, htag, e, he, hby, hrow, utcnow, ?_⟩
      rw [hafter, pendingSet, hattempted.attempts, hlast, hfirst]
  | @notRescheduled _ token delay _ htag =>
    obtain ⟨_, htoken, _⟩ := hjustified
    refine ⟨e, he, hby, h.missesLease he htoken ?_ ?_ ?_ ?_, by rw [hinput]; exact htag⟩
    · rw [hinput]
      trivial
    · rw [hinput]
      exact ⟨rfl, rfl⟩
    · simp [hinput, hreply, Landed, Stmt.op]
    · simp [Executed.archived, World.archivedBy, hinput, Stmt.op]
  | @deletedBatch pending pairs p token hp htoken hpair hreports =>
    have hlanded : e.LandedFor p.row := by
      refine ⟨token, htoken, ?_⟩
      rw [hinput, hreply]
      exact hpair
    exact run_shows_of_deleted hsub he hsource rfl hjustified (mem_map_of_mem hp) hlanded hreports
  | @notInBatch pending pairs p _ hp htag hpair =>
    obtain ⟨token, htoken⟩ := Option.isSome_iff_exists.mp (hjustified p hp).claimed.leased
    refine ⟨e, he, hby, h.missesLease he htoken ?_ ?_ ?_ ?_, by rw [hinput]; exact htag⟩
    · rw [hinput]
      trivial
    · rw [hinput]
      exact mem_filterMap.mpr ⟨p, hp, by rw [htoken]; rfl⟩
    · rw [hinput, hreply]
      exact hpair token htoken
    · simp [Executed.archived, World.archivedBy, hinput, Stmt.op]

end System

/-- Every metric about a claim tells what became of its row. -/
theorem System.run_shows (b : Backend) (start : Int) (cfgs : List SubscriberConfig)
    (acts : List Act) :
    let s := (System.init start cfgs).run b acts
    ∀ index sub, s.subscribers[index]? = some sub → ∀ key event tags,
      Note.metric (some key) event tags ∈ sub.log →
      ∃ row, s.known index row ∧ (row.id, row.acquiredToken) = key ∧ Names sub.cfg row tags ∧
        s.Shows index sub.cfg row tags event := by
  intro s index sub hsub key event tags hmem
  obtain ⟨m, hclaimed, hkey, hnames, hbacked⟩ :=
    (System.run_honest b start cfgs acts index sub hsub).log _ hmem
  refine ⟨m.row, hclaimed.known, hkey, hnames, ?_⟩
  cases hbacked with
  | inl hplain => cases event <;> trivial
  | inr hreplied =>
    obtain ⟨stmt, reply, htold, hwarrants⟩ := hreplied
    exact System.run_shows_of_warrants hsub htold hwarrants

/-- The metrics that say that the row of a claim was deleted. -/
def Event.deletes : Event → Bool
  | .acked | .nackedTerminal | .dlqWritten => true
  | _ => false

/-- A metric that says so is about an operation that took the row away. -/
theorem System.Shows.removes {s : System} {index : Nat} {cfg : SubscriberConfig} {row : Row}
    {tags : Tags} {event : Event} (h : s.Shows index cfg row tags event)
    (hdeletes : event.deletes = true) :
    ∃ e ∈ s.executed, e.By index ∧ e.Removes row.id row := by
  cases event with
  | acked =>
    obtain ⟨e, he, hby, hremoves, _⟩ := h
    exact ⟨e, he, hby, hremoves⟩
  | nackedTerminal =>
    obtain ⟨reason, _, e, he, hby, hremoves⟩ := h
    split at hremoves <;> exact ⟨e, he, hby, hremoves.1⟩
  | dlqWritten =>
    obtain ⟨reason, _, e, he, hby, hremoves, _⟩ := h
    exact ⟨e, he, hby, hremoves⟩
  | _ => cases hdeletes

/-- **The metrics tell the truth.** At every point of every run, a metric about a claim names
    a row its subscriber was returned under that claim, and the queue, the subscriber and the
    delivery. What it says became of the row is what an operation of that subscriber did:
    `acked` that it deleted the row and archived nothing, `nacked_terminal` that it deleted it
    and left the one dead letter there is to be, `nacked_retried` that it put the row back with
    one more attempt and the delay of the tag, `lease_lost` that its write, of the phase of the
    tag, did not find the lease. And no two claims, of whatever subscribers, both say that they
    deleted one row. -/
theorem metrics_truthful (b : Backend) (start : Int) (cfgs : List SubscriberConfig)
    (acts : List Act) :
    let s := (System.init start cfgs).run b acts
    (∀ index sub, s.subscribers[index]? = some sub → ∀ key event tags,
      Note.metric (some key) event tags ∈ sub.log →
      ∃ row, s.known index row ∧ (row.id, row.acquiredToken) = key ∧ Names sub.cfg row tags ∧
        s.Shows index sub.cfg row tags event) ∧
    ∀ (index index' : Nat) (sub sub' : Subscriber), s.subscribers[index]? = some sub →
      s.subscribers[index']? = some sub' → ∀ key key' event event' tags tags',
      Note.metric (some key) event tags ∈ sub.log →
      Note.metric (some key') event' tags' ∈ sub'.log →
      event.deletes = true → event'.deletes = true → key.1 = key'.1 →
      index = index' ∧ key = key' := by
  have htruth := System.run_shows b start cfgs acts
  intro s
  refine ⟨htruth, ?_⟩
  intro index index' sub sub' hsub hsub' key key' event event' tags tags' hmem hmem' hdel hdel' hid
  obtain ⟨row, _, hkey, _, hshows⟩ := htruth index sub hsub key event tags hmem
  obtain ⟨row', _, hkey', _, hshows'⟩ := htruth index' sub' hsub' key' event' tags' hmem'
  obtain ⟨e, he, ⟨stmt, hsource⟩, hremoves⟩ := hshows.removes hdel
  obtain ⟨e', he', ⟨stmt', hsource'⟩, hremoves'⟩ := hshows'.removes hdel'
  subst hkey hkey'
  -- a row is removed once, and ids are drawn once
  have hid : row.id = row'.id := hid
  rw [← hid] at hremoves'
  obtain rfl := (System.run_lineage b start cfgs acts).once e he e' he' row.id row row' hremoves
    hremoves'
  rw [hsource] at hsource'
  cases hsource'
  have hrow : row = row' := Option.some_inj.mp (hremoves.1.symm.trans hremoves'.1)
  exact ⟨rfl, by rw [hrow]⟩

end Outbox
