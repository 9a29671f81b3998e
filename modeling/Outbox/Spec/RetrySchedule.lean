import Outbox.Spec.ClaimProgress
import Outbox.Spec.RetryAccounting

/-!
# The schedule of retries

A retry is written with a delay, counted on the clock of the database, and with the two
timestamps of its message, taken from the clocks of workers. Whoever claims the row next, it
waits the delay out: the row is unleased and not due before, and an extend moves it to no
earlier deadline. And the strategy weighs the delay against the budget with the timestamp the
first retry stamped, however many subscribers the row went through since.

## Key results

- `Promised.step`: an operation keeps the promise of a deadline
- `Inv.returned_due`: a claim finds the row due
- `retry_schedule`: retries wait their delays out, and stay within `max_total_delay_seconds`
-/

namespace Outbox

open List

/-! ## The delay -/

/-- What a retry of the record is. -/
theorem Executed.reschedule_eq_some {e : Executed} {id : Nat} {args : MarkPendingArgs}
    (h : e.reschedule id = some args) :
    ∃ token, e.entry.input = .markPendingWithLease id token args ∧
      e.entry.output = .rescheduled true := by
  unfold Executed.reschedule at h
  split at h
  · rename_i messageId token args' hinput hreply
    split at h
    · rename_i hid
      cases h
      exact ⟨token, hid ▸ hinput, hreply⟩
    · cases h
  · cases h

/-- A retry that lands sets a deadline, and the first timestamp. -/
theorem RowStep.retry_lands {id nextId : Nat} {now : Int} {token : UUID} {args : MarkPendingArgs}
    {r r' : Option Row}
    (h : RowStep id nextId now (.markPendingWithLease id token args) (.rescheduled true) r r') :
    ∀ row, r' = some row → (row.acquiredToken = none ∧
      now + args.delaySeconds ≤ row.nextAttemptAt) ∧ row.firstAttemptAt = args.firstAttemptAt := by
  intro row hrow
  cases h with
  | same _ hlanded _ => exact absurd ⟨⟨rfl, rfl⟩, rfl⟩ (hlanded token)
  | rescheduled _ =>
    cases hrow
    refine ⟨⟨rfl, ?_⟩, rfl⟩
    show now + args.delaySeconds ≤ now + max 0 args.delaySeconds
    omega

/-- An operation keeps the promise of a deadline. -/
theorem Promised.step {d : Int} {id : Nat} {w : World} (h : Promised d id w) (hwf : w.store.WF)
    (b : Backend) (op : Op) : Promised d id (w.step b op).2 where
  drawn := Nat.lt_of_lt_of_le h.drawn (World.apply_nextId_le hwf b op)
  due := by
    have hclock : w.now ≤ (w.step b op).2.now := w.le_clock op
    cases (World.apply_rowStep hwf b op id).keeps_deadline h.drawn h.due with
    | inl hnow => exact Or.inl (by omega)
    | inr hrow => exact Or.inr hrow

namespace System

variable {b : Backend} {s : System}

/-- A claim finds the row due. -/
theorem Inv.returned_due (h : s.Inv b) {d : Int} {id : Nat} (hpromised : Promised d id s.world)
    {source : Source} {op : Op} {row : Row} (hreturns : (s.ran b source op).Returns row)
    (hid : row.id = id) : d ≤ s.world.now := by
  obtain ⟨rows, hrows, hrow⟩ := hreturns
  have hreply : (s.world.step b op).1 = .claimed rows := hrows
  cases op with
  | fetch token queues limit leaseTtl locked =>
    obtain ⟨rows', hreply', _, _, hstamped⟩ := World.fetch_reply h.wf b token queues limit
      leaseTtl locked
    rw [hreply] at hreply'
    cases hreply'
    obtain ⟨r, hr, hclaimable, _⟩ := hstamped row hrow
    cases hpromised.due with
    | inl hnow => exact hnow
    | inr hwaits =>
      have hdue := (hwaits r (hid ▸ hr)).2
      have hnow := hclaimable.2.1
      omega
  | _ => cases hreply

/-- What a run leaves of the delays of its retries. -/
structure Waits (w : World) (executed : List Executed) : Prop where
  promised : ∀ e ∈ executed, ∀ id args, e.reschedule id = some args →
    Promised (e.entry.before.now + args.delaySeconds) id w
  ordered : executed.Pairwise fun e e' => ∀ id args row, e.reschedule id = some args →
    e'.Returns row → row.id = id →
    e.entry.before.now + args.delaySeconds ≤ e'.entry.before.now

/-- An operation of a run waits out the delays before it, and adds its own. -/
theorem ran_waits (h : s.Inv b) (hwaits : Waits s.world s.executed) (source : Source) (op : Op) :
    Waits (s.world.step b op).2 (s.executed ++ [s.ran b source op]) where
  promised e he id args hargs := by
    cases mem_append.mp he with
    | inl hold => exact (hwaits.promised e hold id args hargs).step h.wf b op
    | inr hnew =>
      rw [mem_singleton.mp hnew] at hargs ⊢
      obtain ⟨token, hinput, hreply⟩ := Executed.reschedule_eq_some hargs
      have hinput : op = .markPendingWithLease id token args := hinput
      have hrow := ran_rowStep h source op id
      rw [hreply] at hrow
      subst hinput
      -- a retry that lands finds its row
      have hdrawn : id < s.world.store.nextId := by
        have hlanded : Landed (.markPendingWithLease id token args) (.rescheduled true) id token :=
          ⟨⟨rfl, rfl⟩, rfl⟩
        obtain ⟨⟨stored, hstored, _⟩, _⟩ := hrow.of_landed hlanded
        refine Nat.lt_of_not_le fun hle => ?_
        rw [h.wf.row?_of_le hle] at hstored
        cases hstored
      exact
        { drawn := Nat.lt_of_lt_of_le hdrawn (World.apply_nextId_le h.wf b _)
          due := Or.inr fun row hrow' => (hrow.retry_lands row hrow').1 }
  ordered := by
    rw [pairwise_append]
    refine ⟨hwaits.ordered, by simp, fun e he e' he' id args row hargs hreturns hid => ?_⟩
    rw [mem_singleton.mp he'] at hreturns ⊢
    exact h.returned_due (hwaits.promised e he id args hargs) hreturns hid

theorem run_waits (b : Backend) (start : Int) (cfgs : List SubscriberConfig) (acts : List Act) :
    Waits ((init start cfgs).run b acts).world ((init start cfgs).run b acts).executed := by
  have hinit : Waits (World.init start) [] := ⟨by simp, by simp⟩
  refine run_history (P := Waits) hinit acts ?_
  intro s source op h (_ : ∀ sub ∈ s.subscribers, sub.cfg ∈ cfgs) hwaits _
  exact ran_waits h hwaits source op

end System

/-! ## The budget -/

/-- The retries of a row were written with one first timestamp, and each delay was within the
    budget that the attempts up to then had left. -/
def Row.Within (r : Row) (total : Int) (written : List MarkPendingArgs) : Prop :=
  ∀ args ∈ written, ∃ first last, r.firstAttemptAt = some first ∧
    args.firstAttemptAt = some first ∧ args.lastAttemptAt = some last ∧
    last - first + args.delaySeconds ≤ total

/-- The strategy grants no delay past the budget. -/
theorem Granted.within {cfg : SubscriberConfig} {m : OutboxInnerMessage} {delay : Int}
    (h : Granted cfg m delay) {t : RetryStrategyTemplate}
    (ht : cfg.retryStrategy = some (.template t)) {total : Int}
    (htotal : t.maxTotalDelaySeconds = some total) {first last : Int}
    (hfirst : m.firstAttemptAt = some first) (hlast : m.lastAttemptAt = some last) :
    last - first + delay ≤ total := by
  obtain ⟨strategy, exception, draw, hstrategy, hget⟩ := h
  rw [ht] at hstrategy
  cases hstrategy
  simp only [RetryStrategy.getNextAttemptDelay, RetryStrategyTemplate.getNextAttemptDelay, hfirst,
    hlast, htotal, Option.getD_some, Option.any_some] at hget
  split at hget
  · cases hget
  · split at hget
    · cases hget
    · split at hget
      · cases hget
      · rename_i hwithin
        simp only [Except.ok.injEq, Option.some.injEq] at hget
        subst hget
        simpa using hwithin

namespace System

variable {b : Backend} {s : System} {queue : String} {total : Int} {cfgs : List SubscriberConfig}

/-- What a run leaves of the budget of a queue. -/
structure Budgeted (queue : String) (total : Int) (w : World) (executed : List Executed) :
    Prop where
  accounted : ∀ id r, w.store.row? id = some r → r.Accounted (retries executed id)
  within : ∀ id r, w.store.row? id = some r → r.queue = queue →
    r.Within total (retries executed id)

/-- An operation of a run keeps to the budget. -/
theorem ran_budgeted (hbudget : ∀ cfg ∈ cfgs, queue ∈ cfg.queues →
      ∃ t, cfg.retryStrategy = some (.template t) ∧ t.maxTotalDelaySeconds = some total)
    (h : s.Inv b) (hcfgs : ∀ sub ∈ s.subscribers, sub.cfg ∈ cfgs)
    (hbudgeted : Budgeted queue total s.world s.executed) {source : Source} {op : Op}
    (hsends : s.Sends source op) :
    Budgeted queue total (s.world.step b op).2 (s.executed ++ [s.ran b source op]) where
  accounted := ran_accounted h hsends hbudgeted.accounted
  within id r' hr' hqueue := by
    have haccounted := ran_accounted h hsends hbudgeted.accounted id r' hr'
    have hrow := ran_rowStep h source op id
    have hafter : (s.ran b source op).entry.after.store.row? id = some r' := hr'
    rw [retries_snoc] at haccounted ⊢
    by_cases hrestarts : (s.ran b source op).restarts id = true
    · simp [hrestarts, Row.Within]
    simp only [hrestarts, Bool.false_eq_true, if_false] at haccounted ⊢
    cases hnow : s.world.store.row? id with
    | none => exact absurd (RowStep.restarts (e := s.ran b source op) hrow hnow hr') hrestarts
    | some r =>
      have hkin : r.queue = queue := by
        have hstep := hrow
        rw [hnow, hafter] at hstep
        exact hstep.precedes.queue.symm.trans hqueue
      have hold := hbudgeted.within id r hnow hkin
      have hfirst := (hbudgeted.accounted id r hnow).first
      intro args hargs
      cases mem_append.mp hargs with
      | inl hmem =>
        -- the first timestamp stands
        obtain ⟨first, last, hr, hstamp, hlast, hle⟩ := hold args hmem
        refine ⟨first, last, ?_, hstamp, hlast, hle⟩
        have hhead : (retries s.executed id ++
            ((s.ran b source op).reschedule id).toList).head? = (retries s.executed id).head? := by
          rw [head?_append]
          cases hwritten : retries s.executed id with
          | nil => simp [hwritten] at hmem
          | cons a rest => rfl
        rw [haccounted.first, hhead, ← hfirst, hr]
      | inr hmem =>
        have hargs : (s.ran b source op).reschedule id = some args := by simpa using hmem
        obtain ⟨token, hinput, hreply⟩ := Executed.reschedule_eq_some hargs
        have hinput : op = .markPendingWithLease id token args := hinput
        subst hinput
        rw [hreply] at hrow
        have hlanded : Landed (.markPendingWithLease id token args) (.rescheduled true) id token :=
          ⟨⟨rfl, rfl⟩, rfl⟩
        obtain ⟨⟨stored, hstored, htoken⟩, _⟩ := hrow.of_landed hlanded
        obtain ⟨index, sub, m, delay, hsub, hknown, hmessage, hattempted, hdelay, hwrites⟩ :=
          h.of_reschedule hsends hstored htoken
        have hserves : queue ∈ sub.cfg.queues := by
          rw [← hkin]
          have hsame : stored = r := Option.some.inj (hstored.symm.trans hnow)
          exact hsame ▸ h.serves hsub hknown
        obtain ⟨t, ht, htotal⟩ := hbudget sub.cfg (hcfgs sub (mem_of_getElem? hsub)) hserves
        obtain ⟨utcnow, hlast, hstamp⟩ := hattempted.stamped
        have hwithin := (hattempted.granted delay hdelay).within ht htotal hstamp hlast
        have hset := (hrow.retry_lands r' hafter).2
        subst hwrites
        exact ⟨_, utcnow, hset.trans hstamp, hstamp, hlast, hwithin⟩

theorem run_budgeted (hbudget : ∀ cfg ∈ cfgs, queue ∈ cfg.queues →
      ∃ t, cfg.retryStrategy = some (.template t) ∧ t.maxTotalDelaySeconds = some total)
    (b : Backend) (start : Int) (acts : List Act) :
    Budgeted queue total ((init start cfgs).run b acts).world
      ((init start cfgs).run b acts).executed := by
  refine run_history (P := Budgeted queue total) ⟨?_, ?_⟩ acts ?_
  · intro id r hr
    cases hr
  · intro id r hr
    cases hr
  · intro s source op h hcfgs hbudgeted hsends
    exact ran_budgeted hbudget h hcfgs hbudgeted hsends

end System

/-- **Retries keep to their schedule.** Whoever claims a row after a retry of it landed, on the
    database's clock it does so no sooner than the delay of the retry; and where every subscriber
    of the queue has a built-in strategy with `max_total_delay_seconds = total`, the retries of a
    live row share the timestamp the first of them stamped, and each was written with a delay
    that ends within `total` of it. -/
theorem retry_schedule (b : Backend) (start : Int) (cfgs : List SubscriberConfig)
    (acts : List Act) :
    let s := (System.init start cfgs).run b acts
    (s.executed.Pairwise fun e e' => ∀ id args row, e.reschedule id = some args →
      e'.Returns row → row.id = id →
      e.entry.before.now + args.delaySeconds ≤ e'.entry.before.now) ∧
    ∀ queue total, (∀ cfg ∈ cfgs, queue ∈ cfg.queues → ∃ t,
        cfg.retryStrategy = some (.template t) ∧ t.maxTotalDelaySeconds = some total) →
      ∀ id r, s.world.store.row? id = some r → r.queue = queue →
        r.Within total (retries s.executed id) := by
  refine ⟨(System.run_waits b start cfgs acts).ordered, fun queue total hbudget => ?_⟩
  exact (System.run_budgeted hbudget b start acts).within

/-- A second between attempts, and ten for all of them. -/
def tenSeconds : RetryStrategyTemplate where
  maxAttempts := none
  maxTotalDelaySeconds := some 10000000
  delaySeconds _ _ := .ok 1000000
  maxAttempts_pos := by simp
  maxTotalDelaySeconds_pos := by simp

def patientConfig : SubscriberConfig :=
  { plainConfig with retryStrategy := some (.template tenSeconds) }

/-- A second after the retry, the row is claimed again. -/
def patientActs : List Act := nackedActs ++ .external (.tick 1000000) :: fetchActs 8

theorem retry_schedule_patientRun :
    let s := (System.init 0 [patientConfig]).run .postgres patientActs
    s.executed.map (fun e => ((e.reschedule 1).map MarkPendingArgs.delaySeconds,
      e.entry.before.now)) =
        [(none, 0), (none, 0), (some 1000000, 0), (none, 0), (none, 1000000)] ∧
    (s.executed.Pairwise fun e e' => ∀ id args row, e.reschedule id = some args →
      e'.Returns row → row.id = id →
      e.entry.before.now + args.delaySeconds ≤ e'.entry.before.now) ∧
    ∀ r, s.world.store.row? 1 = some r → r.queue = "orders" →
      r.Within 10000000 (retries s.executed 1) :=
  ⟨by decide +kernel, (retry_schedule .postgres 0 [patientConfig] patientActs).1,
    (retry_schedule .postgres 0 [patientConfig] patientActs).2 "orders" 10000000
      (fun cfg hcfg _ => ⟨tenSeconds, by rw [mem_singleton.mp hcfg]; rfl, rfl⟩) 1⟩

end Outbox
