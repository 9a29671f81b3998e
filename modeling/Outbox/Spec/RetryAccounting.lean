import Outbox.Spec.History

/-!
# Retry accounting over the life of a row

The attempt counter is read with the claim, raised in memory and written back much later. It
counts the writes that landed, since a write lands only on the row as its message has it; an
extend that moves the deadline starts the count again.

## Key results

- `RowStep.accounted`: what one operation does to the accounting of a row
- `retry_accounting`: the counter and the two timestamps tell of the retries of a row, and stay
  below `max_attempts`
-/

namespace Outbox

open List

/-! ## The retries of a row -/

/-- What a `mark_pending_with_lease` that succeeded on the row wrote. -/
def Executed.reschedule (e : Executed) (id : Nat) : Option MarkPendingArgs :=
  match e.entry.input, e.entry.output with
  | .markPendingWithLease messageId _ args, .rescheduled true =>
    if messageId = id then some args else none
  | _, _ => none

/-- The operation inserted the row, or extended it to a later deadline. -/
def Executed.restarts (e : Executed) (id : Nat) : Bool :=
  match e.entry.input with
  | .insert _ _ | .insertBatch _ _ =>
    match e.entry.before.store.row? id, e.entry.after.store.row? id with
    | none, some _ => true
    | some r, some r' => decide (r.nextAttemptAt < r'.nextAttemptAt)
    | _, none => false
  | _ => false

/-- The retries written to the row since it was inserted, or extended to a later deadline,
    oldest first. -/
def retries (executed : List Executed) (id : Nat) : List MarkPendingArgs :=
  executed.foldl (fun written e =>
    if e.restarts id then [] else written ++ (e.reschedule id).toList) []

theorem retries_snoc (executed : List Executed) (e : Executed) (id : Nat) :
    retries (executed ++ [e]) id =
      if e.restarts id then [] else retries executed id ++ (e.reschedule id).toList := by
  rw [retries, foldl_append]
  rfl

/-- The row's accounting tells of its retries. -/
structure Row.Accounted (r : Row) (written : List MarkPendingArgs) : Prop where
  attempts : r.attemptsCount = written.length
  firstNull : r.firstAttemptAt = none ↔ r.attemptsCount = 0
  lastNull : r.lastAttemptAt = none ↔ r.attemptsCount = 0
  /-- `first_attempt_at` is what the first of them wrote. -/
  first : r.firstAttemptAt = written.head?.bind MarkPendingArgs.firstAttemptAt

/-- What a retry writes: one attempt more than the row has, and when it was made. -/
structure MarkPendingArgs.Counts (args : MarkPendingArgs) (r : Row) : Prop where
  attempts : args.attemptsCount = r.attemptsCount + 1
  stamped : ∃ utcnow, args.lastAttemptAt = some utcnow ∧
    args.firstAttemptAt = some (r.firstAttemptAt.getD utcnow)

/-! ## One operation -/

/-- A row no retry was written to. -/
theorem Row.Accounted.none {r : Row} (hattempts : r.attemptsCount = 0)
    (hfirst : r.firstAttemptAt = none) (hlast : r.lastAttemptAt = none) : r.Accounted [] where
  attempts := hattempts
  firstNull := by simp [hfirst, hattempts]
  lastNull := by simp [hlast, hattempts]
  first := hfirst

/-- The accounting is in three columns. -/
theorem Row.Accounted.congr {r r' : Row} {written : List MarkPendingArgs} (h : r.Accounted written)
    (hattempts : r'.attemptsCount = r.attemptsCount) (hfirst : r'.firstAttemptAt = r.firstAttemptAt)
    (hlast : r'.lastAttemptAt = r.lastAttemptAt) : r'.Accounted written where
  attempts := hattempts.trans h.attempts
  firstNull := by rw [hfirst, hattempts, h.firstNull]
  lastNull := by rw [hlast, hattempts, h.lastNull]
  first := hfirst.trans h.first

/-- A retry is written to the row. -/
theorem Row.Accounted.pending {r : Row} {written : List MarkPendingArgs} (h : r.Accounted written)
    {args : MarkPendingArgs} (hargs : args.Counts r) (now : Int) :
    (pendingSet r now args).Accounted (written ++ [args]) := by
  obtain ⟨utcnow, hlast, hfirst⟩ := hargs.stamped
  have hcount : (pendingSet r now args).attemptsCount = r.attemptsCount + 1 := hargs.attempts
  exact {
    attempts := by
      rw [hcount, h.attempts, length_append, length_singleton]
    firstNull := by
      rw [hcount]
      simp [pendingSet, hfirst]
    lastNull := by
      rw [hcount]
      simp [pendingSet, hlast]
    first := by
      show args.firstAttemptAt = _
      cases written with
      | nil => rfl
      | cons args₀ rest =>
        -- the row keeps what the first write stamped
        have hsome : r.firstAttemptAt ≠ Option.none := by
          rw [ne_eq, h.firstNull, h.attempts]
          exact Nat.succ_ne_zero _
        obtain ⟨t, ht⟩ := Option.ne_none_iff_exists'.mp hsome
        rw [hfirst, ht, Option.getD_some, ← ht, h.first]
        rfl }

/-- **What one operation does to the accounting of a row.** -/
theorem RowStep.accounted {e : Executed} {id : Nat} (h : RowStep id e.entry.before.store.nextId
      e.entry.before.now e.entry.input e.entry.output (e.entry.before.store.row? id)
      (e.entry.after.store.row? id))
    {written : List MarkPendingArgs}
    (hbefore : ∀ r, e.entry.before.store.row? id = some r → r.Accounted written)
    (hcounts : ∀ token args r, e.entry.input = .markPendingWithLease id token args →
      e.entry.before.store.row? id = some r → r.acquiredToken = some token → args.Counts r)
    {r : Row} (hr : e.entry.after.store.row? id = some r) :
    r.Accounted (if e.restarts id then [] else written ++ (e.reschedule id).toList) := by
  unfold Executed.restarts Executed.reschedule
  rw [hr] at h
  generalize e.entry.before.store.row? id = before at *
  generalize e.entry.after.store.row? id = after at *
  generalize e.entry.input = op at *
  generalize e.entry.output = reply at *
  subst hr
  generalize hafter : some r = after at h
  cases h with
  | same _ hlanded _ =>
    subst hafter
    -- a row that stayed as it was has no reschedule that landed
    have hquiet : ∀ token args, op = .markPendingWithLease id token args →
        reply ≠ .rescheduled true := fun token args hop hreply => by
      refine hlanded token ?_
      rw [hop, hreply]
      exact ⟨⟨rfl, rfl⟩, rfl⟩
    have hsame := hbefore r rfl
    cases op with
    | insert at_ args => simpa using hsame
    | insertBatch at_ args => simpa using hsame
    | markPendingWithLease messageId token args =>
      by_cases hid : messageId = id
      · subst hid
        have hreply := hquiet token args rfl
        cases reply with
        | rescheduled landed =>
          cases landed with
          | true => exact absurd rfl hreply
          | false => simpa using hsame
        | _ => simpa using hsame
      · cases reply with
        | rescheduled landed => cases landed <;> simpa [hid] using hsame
        | _ => simpa using hsame
    | _ => simpa using hsame
  | inserted _ =>
    cases hafter
    exact .none rfl rfl rfl
  | insertedBatch _ _ =>
    cases hafter
    exact .none rfl rfl rfl
  | @extended _ _ t new _ _ _ _ _ _ =>
    cases hafter
    have hold := hbefore t rfl
    by_cases hlater : t.nextAttemptAt < new.nextAttemptAt
    · -- a later deadline resets the accounting
      have hmoved : t.nextAttemptAt < max t.nextAttemptAt new.nextAttemptAt := by omega
      simp only [OutboxClient.extendSet, hmoved, decide_true, if_true]
      exact .none (by simp [hlater]) (by simp [hlater]) (by simp [hlater])
    · have hstays : ¬t.nextAttemptAt < max t.nextAttemptAt new.nextAttemptAt := by omega
      simp only [OutboxClient.extendSet, hstays, decide_false, Option.toList_none, append_nil]
      exact hold.congr (by simp [hlater]) (by simp [hlater]) (by simp [hlater])
  | @claimed token _ _ _ _ _ t _ _ =>
    cases hafter
    have hkept : (OutboxClient.claimSet t e.entry.before.now token).Accounted written :=
      (hbefore t rfl).congr rfl rfl rfl
    simpa using hkept
  | rescheduled htoken =>
    cases hafter
    -- the write carries the counters of the claim it was made under
    have hcount := hcounts _ _ _ rfl rfl htoken
    simpa using (hbefore _ rfl).pending hcount _
  | deleted _ => cases hafter
  | deletedBatch _ _ _ => cases hafter
  | cancelled _ _ => cases hafter

/-- A row that was not there before restarts its accounting. -/
theorem RowStep.restarts {e : Executed} {id : Nat} {nextId : Nat} {now : Int}
    (h : RowStep id nextId now e.entry.input e.entry.output (e.entry.before.store.row? id)
      (e.entry.after.store.row? id)) (hbefore : e.entry.before.store.row? id = none) {r : Row}
    (hr : e.entry.after.store.row? id = some r) : e.restarts id = true := by
  unfold Executed.restarts
  rw [hbefore, hr] at h ⊢
  generalize e.entry.input = op at *
  generalize e.entry.output = reply at *
  cases h <;> rfl

/-! ## Runs -/

namespace System

variable {b : Backend} {s : System}

/-- A retry that lands is written by a message that has the row as it is, with the attempt that
    its subscriber's strategy granted. -/
theorem Inv.of_reschedule (h : s.Inv b) {source : Source} {id : Nat} {token : UUID}
    {args : MarkPendingArgs} (hsends : s.Sends source (.markPendingWithLease id token args))
    {r : Row} (hr : s.world.store.row? id = some r) (htoken : r.acquiredToken = some token) :
    ∃ (index : Nat) (sub : Subscriber) (m : OutboxInnerMessage) (delay : Int),
      s.subscribers[index]? = some sub ∧ s.known index r ∧ m.row = r ∧ m.Attempted sub.cfg ∧
      m.outcome = some (.retry delay) ∧ args =
        { delaySeconds := delay
          attemptsCount := m.attemptsCount
          firstAttemptAt := m.firstAttemptAt
          lastAttemptAt := m.lastAttemptAt } := by
  cases source with
  | external =>
    have hop : Op.isExternal (.markPendingWithLease id token args) = true := hsends
    cases hop
  | subscriber index stmt =>
    obtain ⟨⟨sub, hsub, hjustified, _⟩, locked, hop⟩ := hsends
    cases stmt with
    | markPendingWithLease m token' delay =>
      cases hop
      obtain ⟨hclaimed, hcurrent, _, hattempted, hdelay⟩ := hjustified
      have hsame := h.row_of_held hclaimed.known hr hcurrent htoken
      exact ⟨index, sub, m, delay, hsub, hsame ▸ hclaimed.known, hsame.symm, hattempted, hdelay,
        rfl⟩
    | _ => cases hop

/-- The retry a subscriber writes counts one attempt more. -/
theorem Inv.counts (h : s.Inv b) {source : Source} {id : Nat} {token : UUID}
    {args : MarkPendingArgs} (hsends : s.Sends source (.markPendingWithLease id token args))
    {r : Row} (hr : s.world.store.row? id = some r) (htoken : r.acquiredToken = some token) :
    args.Counts r := by
  obtain ⟨_, _, m, _, _, _, rfl, hattempted, _, rfl⟩ := h.of_reschedule hsends hr htoken
  exact ⟨hattempted.attempts, hattempted.stamped⟩

/-- Every live row is accounted for. -/
theorem ran_accounted (h : s.Inv b) {source : Source} {op : Op} (hsends : s.Sends source op)
    (hold : ∀ id r, s.world.store.row? id = some r → r.Accounted (retries s.executed id)) :
    ∀ id r, (s.world.step b op).2.store.row? id = some r →
      r.Accounted (retries (s.executed ++ [s.ran b source op]) id) := by
  intro id r hr
  rw [retries_snoc]
  refine (ran_rowStep h source op id).accounted (e := s.ran b source op) (hold id) ?_ hr
  intro token args t hop ht htoken
  have hop : op = .markPendingWithLease id token args := hop
  exact h.counts (hop ▸ hsends) ht htoken

/-- **Every live row is accounted for**, at every point of a run. -/
theorem run_accounted (b : Backend) (start : Int) (cfgs : List SubscriberConfig)
    (acts : List Act) : ∀ id r, ((init start cfgs).run b acts).world.store.row? id = some r →
      r.Accounted (retries ((init start cfgs).run b acts).executed id) := by
  refine run_history (P := fun w executed => ∀ id r, w.store.row? id = some r →
    r.Accounted (retries executed id)) (fun id r hr => by cases hr) acts ?_
  intro s source op h _ hold hsends
  exact ran_accounted h hsends hold

/-! ## The bound -/

/-- What a run with the bound `m` on the attempts of a queue leaves. -/
structure Bounded (queue : String) (m : Nat) (w : World) (executed : List Executed) : Prop where
  lineage : Lineage w executed
  accounted : ∀ id r, w.store.row? id = some r → r.Accounted (retries executed id)
  /-- A live row is in the record. -/
  recorded : ∀ id r, w.store.row? id = some r → ∃ e ∈ executed,
    e.entry.after.store.row? id = some r
  below : ∀ e ∈ executed, ∀ id r, e.entry.after.store.row? id = some r → r.queue = queue →
    (retries executed id).length < m

variable {queue : String} {m : Nat} {cfgs : List SubscriberConfig} (hm : 1 ≤ m)
  (hattempts : ∀ cfg ∈ cfgs, queue ∈ cfg.queues →
    ∃ t, cfg.retryStrategy = some (.template t) ∧ t.maxAttempts = some m)

include hattempts in
/-- The built-in strategy grants no attempt at the bound. -/
theorem granted_below {cfg : SubscriberConfig} (hcfg : cfg ∈ cfgs) (hserves : queue ∈ cfg.queues)
    {message : OutboxInnerMessage} {delay : Int} (hgranted : Granted cfg message delay) :
    message.attemptsCount < m := by
  obtain ⟨strategy, exception, draw, hstrategy, hget⟩ := hgranted
  obtain ⟨t, htemplate, hmax⟩ := hattempts cfg hcfg hserves
  rw [htemplate] at hstrategy
  cases hstrategy
  refine Nat.lt_of_not_le fun hle => ?_
  simp [RetryStrategy.getNextAttemptDelay, RetryStrategyTemplate.getNextAttemptDelay, hmax, hle]
    at hget

include hm hattempts in
/-- An operation of a run keeps the bound. -/
theorem ran_bounded (h : s.Inv b) (hcfgs : ∀ sub ∈ s.subscribers, sub.cfg ∈ cfgs)
    (hbounded : Bounded queue m s.world s.executed) {source : Source} {op : Op}
    (hsends : s.Sends source op) :
    Bounded queue m (s.world.step b op).2 (s.executed ++ [s.ran b source op]) where
  lineage := ran_lineage h hbounded.lineage source op
  accounted := ran_accounted h hsends hbounded.accounted
  recorded id r hr := ⟨s.ran b source op, mem_append.mpr (.inr mem_cons_self), hr⟩
  below e he id r hr hqueue := by
    have hrow := ran_rowStep h source op id
    rw [retries_snoc]
    by_cases hrestarts : (s.ran b source op).restarts id = true
    · rw [if_pos hrestarts]
      exact hm
    rw [if_neg hrestarts]
    -- the row was there before, on the same queue
    have hbefore : ∃ e₀ ∈ s.executed, ∃ r₀, e₀.entry.after.store.row? id = some r₀ ∧
        r₀.queue = queue := by
      rw [mem_append, mem_singleton] at he
      cases he with
      | inl hold => exact ⟨e, hold, r, hr, hqueue⟩
      | inr hnew =>
        subst hnew
        cases hnow : s.world.store.row? id with
        | none =>
          exact absurd (RowStep.restarts (e := s.ran b source op) hrow hnow hr) hrestarts
        | some r₀ =>
          obtain ⟨e₀, he₀, hr₀⟩ := hbounded.recorded id r₀ hnow
          rw [hnow, hr] at hrow
          exact ⟨e₀, he₀, r₀, hr₀, hrow.precedes.queue.symm.trans hqueue⟩
    obtain ⟨e₀, he₀, r₀, hr₀, hqueue₀⟩ := hbefore
    have hlt := hbounded.below e₀ he₀ id r₀ hr₀ hqueue₀
    cases hargs : (s.ran b source op).reschedule id with
    | none => simpa using hlt
    | some args =>
      -- the strategy granted the attempt that was just written
      obtain ⟨token, hop, hreply⟩ : ∃ token, op = .markPendingWithLease id token args ∧
          (s.ran b source op).entry.output = .rescheduled true := by
        unfold Executed.reschedule at hargs
        split at hargs
        · rename_i messageId token args' hinput hreply
          split at hargs
          · rename_i hid
            cases hargs
            exact ⟨token, hid ▸ hinput, hreply⟩
          · cases hargs
        · cases hargs
      subst hop
      have hland : Landed (.markPendingWithLease id token args)
          (s.ran b source (.markPendingWithLease id token args)).entry.output id token := by
        rw [hreply]
        exact ⟨⟨rfl, rfl⟩, rfl⟩
      obtain ⟨⟨stored, hstored, htoken⟩, _⟩ := hrow.of_landed hland
      obtain ⟨index, sub, message, delay, hsub, hknown, hmessage, hattempted, hdelay, _⟩ :=
        h.of_reschedule hsends hstored htoken
      have hserves : stored.queue = queue :=
        (hbounded.lineage.past e₀ he₀ id r₀ stored hr₀ hstored).queue.trans hqueue₀
      have hbelow := granted_below hattempts (hcfgs sub (mem_of_getElem? hsub))
        (hserves ▸ h.serves hsub hknown) (hattempted.granted delay hdelay)
      -- below the bound before the write, so at most at it after
      have hcount := hattempted.attempts
      have haccounted := (hbounded.accounted id stored hstored).attempts
      rw [hmessage] at hcount
      rw [Option.toList_some, length_append, length_singleton]
      omega

include hm hattempts in
theorem run_bounded (b : Backend) (start : Int) (acts : List Act) :
    Bounded queue m ((init start cfgs).run b acts).world
      ((init start cfgs).run b acts).executed := by
  refine run_history (P := Bounded queue m) ⟨init_lineage start, ?_, ?_, ?_⟩ acts ?_
  · intro id r hr
    cases hr
  · intro id r hr
    cases hr
  · intro e he
    cases he
  · intro s source op h hcfgs hbounded hsends
    exact ran_bounded hm hattempts h hcfgs hbounded hsends

end System

/-- **Retry accounting loses no update**: at every point of a run the attempt counter of a live
    row is the number of retries written to it since its insertion or its last extend to a later
    deadline, its timestamps are set iff there is one, the first as the first of them wrote it;
    and where every subscriber of the queue has a built-in strategy with `max_attempts = m`,
    the counter and the number of retries stay below `m`. -/
theorem retry_accounting (b : Backend) (start : Int) (cfgs : List SubscriberConfig)
    (acts : List Act) :
    let s := (System.init start cfgs).run b acts
    (∀ id r, s.world.store.row? id = some r → r.Accounted (retries s.executed id)) ∧
    ∀ queue m, 1 ≤ m → (∀ cfg ∈ cfgs, queue ∈ cfg.queues →
        ∃ t, cfg.retryStrategy = some (.template t) ∧ t.maxAttempts = some m) →
      (∀ id r, s.world.store.row? id = some r → r.queue = queue → r.attemptsCount < m) ∧
      ∀ e ∈ s.executed, ∀ id r, e.entry.after.store.row? id = some r → r.queue = queue →
        (retries s.executed id).length ≤ m - 1 := by
  refine ⟨System.run_accounted b start cfgs acts, fun queue m hm hattempts => ?_⟩
  have hbounded := System.run_bounded hm hattempts b start acts
  constructor
  · intro id r hr hqueue
    obtain ⟨e, he, hafter⟩ := hbounded.recorded id r hr
    have hlt := hbounded.below e he id r hafter hqueue
    have hcount := (hbounded.accounted id r hr).attempts
    omega
  · intro e he id r hr hqueue
    have hlt := hbounded.below e he id r hr hqueue
    omega

/-- Two attempts, a second apart. -/
def twoAttempts : RetryStrategyTemplate where
  maxAttempts := some 2
  maxTotalDelaySeconds := none
  delaySeconds _ _ := .ok 1000000
  maxAttempts_pos := by simp
  maxTotalDelaySeconds_pos := by simp

def retryingConfig : SubscriberConfig :=
  { plainConfig with retryStrategy := some (.template twoAttempts) }

/-- The handler nacks, and the retry lands. -/
def nackedActs : List Act :=
  consumingActs ++
  [.subscriber 0 (.worker 0 (.consumed .returned [.nack { utcnow := 5 }] false {})),
    .applyWorker 0 0,
    .subscriber 0 (.worker 0 (.replied {}))]

theorem retry_accounting_nackedRun :
    let s := (System.init 0 [retryingConfig]).run .postgres nackedActs
    s.world.store.rows.map (fun r => (r.id, r.attemptsCount, r.firstAttemptAt)) =
      [(1, 1, some 5)] ∧
    (retries s.executed 1).length = 1 ∧
    ∀ id r, s.world.store.row? id = some r → r.queue = "orders" → r.attemptsCount < 2 :=
  ⟨by decide +kernel, by decide +kernel,
    ((retry_accounting .postgres 0 [retryingConfig] nackedActs).2 "orders" 2 (by decide)
      fun cfg hcfg _ => ⟨twoAttempts, by rw [mem_singleton.mp hcfg]; rfl, rfl⟩).1⟩

end Outbox
