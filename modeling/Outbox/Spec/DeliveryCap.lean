import Mathlib.Algebra.Order.BigOperators.Group.List
import Mathlib.Algebra.Order.Group.Nat
import Outbox.Spec.DispatchClosed
import Outbox.Spec.History

/-!
# The delivery cap over the life of a row

The delivery count of a row goes up with every claim and never down, so the claims of one row
are told apart by their counts, and at most `max_deliveries` of them are within the cap. A
claim within the cap is dispatched at most once; a claim past it is deleted as it is.

## Key results

- `System.Inv.invocations_nodup`: each claim leads to at most one invocation
- `delivery_cap`: the cap holds over the life of a row
-/

namespace Outbox

open List

/-! ## Invocations -/

/-- The message whose handler was invoked. -/
def Note.invokedMessage : Note → Option OutboxInnerMessage
  | .invoked m => some m
  | _ => none

/-- Every invocation of a handler so far. -/
def System.invocations (s : System) : List OutboxInnerMessage :=
  s.subscribers.flatMap fun sub => sub.log.filterMap Note.invokedMessage

theorem Note.invokedMessage_key (n : Note) :
    (n.invokedMessage.bind fun m => some m.key) = n.mark .invoked := by
  cases n <;> rfl

/-- A subscriber invokes a handler once for each claim at most, under a token it drew. -/
theorem Subscriber.Inv.invoked_le_drawn {known : Row → Prop} {s : Subscriber} (h : s.Inv known)
    (c : ClaimKey) : marks .invoked c s.log ≤ ((c.2.map fun t => tally some t s.drawn).getD 0) := by
  have hbalance := h.books.balance c
  have hinvoked := hbalance.invoked
  have hreturned := hbalance.returned
  have hbegun := hbalance.begun
  have hone := h.dispatched_le_one c
  simp only [ledger, Ledger.frame, append_nil] at hinvoked
  simp only [ledger, Ledger.frame, append_nil, Hold.held, Hold.begun, hit_none] at hreturned hbegun
  by_cases hpos : 0 < marks .invoked c s.log
  · -- what is invoked was returned, under a token the subscriber drew
    obtain ⟨token, hmem, htoken⟩ := h.drawn c (by omega)
    have hdrawn : 0 < tally some token s.drawn := tally_pos_iff.mpr ⟨token, hmem, rfl⟩
    rw [htoken]
    show marks .invoked c s.log ≤ tally some token s.drawn
    omega
  · omega

namespace System

variable {b : Backend} {s : System}

/-- **Each claim leads to at most one invocation**, by whatever subscriber. -/
theorem Inv.invocations_nodup (h : s.Inv b) :
    (s.invocations.map OutboxInnerMessage.key).Nodup := by
  have hone : ∀ c, tally (fun m => some m.key) c s.invocations ≤ 1 := by
    intro c
    have hsum : tally (fun m => some m.key) c s.invocations =
        (s.subscribers.map fun sub => marks .invoked c sub.log).sum := by
      rw [invocations, tally_flatMap]
      simp only [tally_filterMap, Note.invokedMessage_key]
      rfl
    have hle : (s.subscribers.map fun sub => marks .invoked c sub.log).sum ≤
        (s.subscribers.map fun sub =>
          (c.2.map fun t => tally some t sub.drawn).getD 0).sum := by
      refine sum_le_sum fun sub hsub => ?_
      obtain ⟨index, hget⟩ := mem_iff_getElem?.mp hsub
      exact (h.subscribers index sub hget).invoked_le_drawn c
    -- a claim without a token is never returned
    cases htoken : c.2 with
    | none =>
      rw [htoken] at hle
      have hzero : (s.subscribers.map fun sub =>
          ((none : Option UUID).map fun t => tally some t sub.drawn).getD 0).sum = 0 :=
        sum_map_eq_zero _ fun _ _ => rfl
      omega
    | some token =>
      rw [htoken] at hle
      -- each token is drawn once
      have hdrawn := h.drawn token
      have hle : (s.subscribers.map fun sub => marks .invoked c sub.log).sum ≤
        (s.subscribers.map fun sub => tally some token sub.drawn).sum := hle
      omega
  have hnodup := nodup_of_tally_le_one hone
  rwa [← filterMap_eq_map']

/-- A handler is invoked for a claim its subscriber was returned, within the cap. -/
theorem Inv.of_invoked (h : s.Inv b) {m : OutboxInnerMessage} (hm : m ∈ s.invocations) :
    ∃ (index : Nat) (sub : Subscriber), s.subscribers[index]? = some sub ∧
      m.Claimed (s.known index) ∧ m.Admitted sub.cfg := by
  obtain ⟨sub, hsub, hnote⟩ := mem_flatMap.mp hm
  obtain ⟨index, hget⟩ := mem_iff_getElem?.mp hsub
  obtain ⟨n, hn, heq⟩ := mem_filterMap.mp hnote
  have hinvoked : n = .invoked m := by
    cases n <;> simp [Note.invokedMessage] at heq
    rw [heq]
  subst hinvoked
  have hbooks := (h.subscribers index sub hget).books.invoked m
    (by simpa [Subscriber.ledger, Ledger.frame] using hn)
  exact ⟨index, sub, hget, hbooks⟩

/-- The message of a claim has the row as it was returned. -/
theorem Inv.row_of_key (h : s.Inv b) {e : Executed} (he : e ∈ s.executed) {row : Row}
    (hreturns : e.Returns row) {index : Nat} {m : OutboxInnerMessage}
    (hclaimed : m.Claimed (s.known index)) (hkey : m.key = (row.id, row.acquiredToken)) :
    m.row = row := by
  obtain ⟨e', he', _, hreturns'⟩ := hclaimed.known
  obtain ⟨hid, htoken⟩ := Prod.mk.inj hkey
  exact h.returned_unique he' he hreturns' hreturns hid htoken

end System

/-! ## The claim -/

/-- What becomes of a claim past the cap: no handler sees it, and whatever is written for it
    deletes the row, as it was claimed, for `max_deliveries`. -/
structure System.PastCap (s : System) (row : Row) : Prop where
  notInvoked : ∀ m ∈ s.invocations, m.key ≠ (row.id, row.acquiredToken)
  /-- The message the worker marks for deletion. -/
  capped : ∀ sub ∈ s.subscribers, ∀ m, Note.capped m ∈ sub.log →
    m.key = (row.id, row.acquiredToken) → m.row = row ∧ m.attemptsCount = row.attemptsCount ∧
      m.outcome = some (.terminal .maxDeliveries)
  /-- A statement for the claim. -/
  written : ∀ e ∈ s.executed, ∀ index stmt, e.source = .subscriber index stmt →
    ∀ m ∈ stmt.messages, m.key = (row.id, row.acquiredToken) →
      stmt.isDelete = true ∧ m.row = row ∧ m.attemptsCount = row.attemptsCount ∧
        m.outcome = some (.terminal .maxDeliveries)
  /-- ... and what it does if it lands. -/
  removed : ∀ e ∈ s.executed, ∀ index stmt, e.source = .subscriber index stmt →
    ∀ m ∈ stmt.messages, m.key = (row.id, row.acquiredToken) → e.LandedFor m →
    ∀ sub, s.subscribers[index]? = some sub →
      e.Removes row.id row ∧ e.entry.after.store.dlqRows = e.entry.before.store.dlqRows ++
        if sub.cfg.dlqTable then [dlqProjection row e.entry.before.now "max_deliveries" none]
        else []

section Cap

variable {cfg : SubscriberConfig} {m : OutboxInnerMessage} {cap : Nat}
  (hcap : cfg.maxDeliveries = some cap) (hover : cap < m.row.deliveriesCount)
include hcap hover

theorem OutboxInnerMessage.not_admitted : ¬m.Admitted cfg := fun hadm => by
  have hle := hadm.cap cap hcap
  omega

/-- What a statement says of a claim past the cap. -/
theorem Stmt.Justified.pastCap {known : Row → Prop} {stmt : Stmt} (h : stmt.Justified known cfg)
    (hm : m ∈ stmt.messages) : stmt.isDelete = true ∧ m.Capped cfg := by
  cases stmt with
  | fetch token queues limit leaseTtl => cases hm
  | deleteWithLease m' token dlqTable payload =>
    obtain rfl : m = m' := mem_singleton.mp hm
    obtain ⟨_, _, hsettled, _⟩ := h
    exact ⟨rfl, hsettled.resolve_left fun hadm => OutboxInnerMessage.not_admitted hcap hover hadm.1⟩
  | markPendingWithLease m' token delay =>
    -- a retry is recorded on admitted messages only
    obtain rfl : m = m' := mem_singleton.mp hm
    obtain ⟨_, _, hadm, _⟩ := h
    exact absurd hadm (OutboxInnerMessage.not_admitted hcap hover)
  | deleteBatchWithLease pending =>
    obtain ⟨p, hp, rfl⟩ := mem_map.mp hm
    exact ⟨rfl, (h p hp).settled.resolve_left fun hadm =>
      OutboxInnerMessage.not_admitted hcap hover hadm.1⟩

end Cap

/-- The archive of a claim past the cap. -/
theorem OutboxInnerMessage.Capped.archive_eq {cfg : SubscriberConfig} {m : OutboxInnerMessage}
    (h : m.Capped cfg) (now : Int) : m.archive cfg now =
      if cfg.dlqTable then [dlqProjection m.row now "max_deliveries" none] else [] := by
  have hreason : m.terminalFailureReason = some .maxDeliveries := by
    unfold terminalFailureReason
    rw [h.outcome]
  have hexc : renderLastException m.lastException cfg.lastExceptionRenderer = .ok none := by
    rw [h.exception]
    rfl
  unfold archive Worker.dlqPayload
  rw [hreason]
  cases cfg.dlqTable with
  | false => rfl
  | true =>
    simp only [if_true, hexc]
    rfl

namespace System

variable {b : Backend} {start : Int} {cfgs : List SubscriberConfig} {acts : List Act}
  {queue : String} {cap : Nat}
  (hcap : ∀ cfg ∈ cfgs, queue ∈ cfg.queues → cfg.maxDeliveries = some cap)
include hcap

/-- A subscriber that was returned a row of the queue has the cap. -/
theorem run_cap {index : Nat} {sub : Subscriber}
    (hsub : ((init start cfgs).run b acts).subscribers[index]? = some sub) {row : Row}
    (hknown : ((init start cfgs).run b acts).known index row) (hqueue : row.queue = queue) :
    sub.cfg.maxDeliveries = some cap := by
  have hserves := (run_inv b start cfgs acts).serves hsub hknown
  have hcfg := run_cfgs b start cfgs acts sub (mem_of_getElem? hsub)
  exact hcap sub.cfg hcfg (hqueue ▸ hserves)

/-- The handler is invoked at most `cap` times for any one row of the queue. -/
theorem run_invocations_le {e : Executed} (he : e ∈ ((init start cfgs).run b acts).executed)
    {id : Nat} {r : Row} (hr : e.entry.after.store.row? id = some r) (hqueue : r.queue = queue) :
    (((init start cfgs).run b acts).invocations.filter fun m => m.row.id = id).length ≤ cap := by
  have h := run_inv b start cfgs acts
  have hlineage := run_lineage b start cfgs acts
  generalize hs : (init start cfgs).run b acts = s at *
  -- what is known of one invocation
  have hone : ∀ m ∈ s.invocations, m.row.id = id → (∃ e' ∈ s.executed, e'.Returns m.row) ∧
      1 ≤ m.row.deliveriesCount ∧ m.row.deliveriesCount ≤ cap := by
    intro m hm hid
    obtain ⟨index, sub, hsub, hclaimed, hadm⟩ := h.of_invoked hm
    obtain ⟨e', he', _, hreturns⟩ := hclaimed.known
    obtain ⟨_, _, _, _, _, _, r', _, _, _, _, _, hset, hstored⟩ := h.of_returns he' hreturns
    have hsame : m.row.queue = queue := by
      rw [hid] at hstored
      rw [← hqueue]
      exact (hlineage.kin e he e' he' id r m.row hr hstored).elim Row.Precedes.queue
        fun hback => hback.queue.symm
    have hmax : sub.cfg.maxDeliveries = some cap := by
      subst hs
      exact run_cap hcap hsub hclaimed.known hsame
    refine ⟨⟨e', he', hreturns⟩, ?_, hadm.cap cap hmax⟩
    rw [hset]
    exact Nat.succ_le_succ (Nat.zero_le _)
  -- the counts of the invocations are distinct, and at most the cap
  have hnodup : ((s.invocations.filter fun m => m.row.id = id).map
      fun m => m.row.deliveriesCount).Nodup := by
    have hkeys := h.invocations_nodup
    refine (hkeys.of_map.filter _).map_on fun m hm m' hm' hcount => ?_
    obtain ⟨hm, hid⟩ := mem_filter.mp hm
    obtain ⟨hm', hid'⟩ := mem_filter.mp hm'
    rw [decide_eq_true_eq] at hid hid'
    obtain ⟨⟨e₁, he₁, hreturns₁⟩, _⟩ := hone m hm hid
    obtain ⟨⟨e₂, he₂, hreturns₂⟩, _⟩ := hone m' hm' hid'
    have hrows : m.row = m'.row := hlineage.counted e₁ he₁ e₂ he₂ m.row m'.row hreturns₁ hreturns₂
      (hid.trans hid'.symm) hcount
    refine inj_on_of_nodup_map hkeys hm hm' ?_
    rw [OutboxInnerMessage.key, OutboxInnerMessage.key, hrows]
  have hsubset : (s.invocations.filter fun m => m.row.id = id).map
      (fun m => m.row.deliveriesCount) ⊆ range' 1 cap := by
    intro count hmem
    obtain ⟨m, hm, rfl⟩ := mem_map.mp hmem
    obtain ⟨hm, hid⟩ := mem_filter.mp hm
    rw [decide_eq_true_eq] at hid
    obtain ⟨_, hpos, hle⟩ := hone m hm hid
    rw [mem_range'_1]
    omega
  have hlength := (subperm_of_subset hnodup hsubset).length_le
  rwa [length_map, length_range'] at hlength

/-- A claim past the cap is deleted as it is. -/
theorem run_pastCap {e : Executed} (he : e ∈ ((init start cfgs).run b acts).executed) {row : Row}
    (hreturns : e.Returns row) (hqueue : row.queue = queue) (hover : cap < row.deliveriesCount) :
    ((init start cfgs).run b acts).PastCap row := by
  have h := run_inv b start cfgs acts
  -- what is known of a message of the claim
  have hclaim : ∀ (index : Nat) (sub : Subscriber) (m : OutboxInnerMessage),
      ((init start cfgs).run b acts).subscribers[index]? = some sub →
      m.Claimed (((init start cfgs).run b acts).known index) →
      m.key = (row.id, row.acquiredToken) → m.row = row ∧ sub.cfg.maxDeliveries = some cap := by
    intro index sub m hsub hclaimed hkey
    have hrow := h.row_of_key he hreturns hclaimed hkey
    exact ⟨hrow, run_cap hcap hsub hclaimed.known (by rw [hrow, hqueue])⟩
  have hwritten : ∀ e ∈ ((init start cfgs).run b acts).executed, ∀ index stmt,
      e.source = .subscriber index stmt → ∀ m ∈ stmt.messages,
      m.key = (row.id, row.acquiredToken) → ∃ sub : Subscriber,
        ((init start cfgs).run b acts).subscribers[index]? = some sub ∧ m.row = row ∧
        stmt.isDelete = true ∧ m.Capped sub.cfg := by
    intro e' he' index stmt hsource m hm hkey
    have hsent := h.sent e' he'
    rw [hsource] at hsent
    obtain ⟨⟨sub, hsub, hjustified, _⟩, _⟩ := hsent
    obtain ⟨hrow, hmax⟩ := hclaim index sub m hsub (hjustified.claimed hm) hkey
    exact ⟨sub, hsub, hrow, hjustified.pastCap hmax (by rw [hrow]; exact hover) hm⟩
  exact {
    notInvoked := fun m hm hkey => by
      obtain ⟨index, sub, hsub, hclaimed, hadm⟩ := h.of_invoked hm
      obtain ⟨hrow, hmax⟩ := hclaim index sub m hsub hclaimed hkey
      exact OutboxInnerMessage.not_admitted hmax (by rw [hrow]; exact hover) hadm
    capped := fun sub hsub m hnote hkey => by
      obtain ⟨index, hget⟩ := mem_iff_getElem?.mp hsub
      obtain ⟨hclaimed, hcapped⟩ := (h.subscribers index sub hget).books.capped m
        (by simpa [Subscriber.ledger, Ledger.frame] using hnote)
      have hrow := (hclaim index sub m hget hclaimed hkey).1
      exact ⟨hrow, by rw [hcapped.attempts, hrow], hcapped.outcome⟩
    written := fun e' he' index stmt hsource m hm hkey => by
      obtain ⟨sub, _, hrow, hdelete, hcapped⟩ := hwritten e' he' index stmt hsource m hm hkey
      exact ⟨hdelete, hrow, by rw [hcapped.attempts, hrow], hcapped.outcome⟩
    removed := fun e' he' index stmt hsource m hm hkey hlanded sub hsub => by
      obtain ⟨sub', hsub', hrow, hdelete, hcapped⟩ := hwritten e' he' index stmt hsource m hm hkey
      rw [hsub] at hsub'
      cases hsub'
      have hfound := run_written b start cfgs acts e' he' index stmt hsource m hm hlanded
      obtain ⟨hremoves, harchived⟩ :=
        h.deleted_landed he' hsource hdelete hsub hm hlanded hfound
      rw [h.dlqRows_eq he', harchived, hcapped.archive_eq, hrow]
      rw [hrow] at hremoves
      exact ⟨hremoves, rfl⟩ }

end System

/-- **The delivery cap holds over the life of a row**: where every subscriber that serves the
    queue has `max_deliveries = cap`, the handler is invoked at most `cap` times for a row, once
    for a claim at most, and never for a claim past the cap, which is deleted as it is. -/
theorem delivery_cap (b : Backend) (start : Int) (cfgs : List SubscriberConfig) (acts : List Act)
    (queue : String) (cap : Nat)
    (hcap : ∀ cfg ∈ cfgs, queue ∈ cfg.queues → cfg.maxDeliveries = some cap) :
    let s := (System.init start cfgs).run b acts
    (∀ e ∈ s.executed, ∀ id r, e.entry.after.store.row? id = some r → r.queue = queue →
      (s.invocations.filter fun m => m.row.id = id).length ≤ cap) ∧
    (s.invocations.map OutboxInnerMessage.key).Nodup ∧
    ∀ e ∈ s.executed, ∀ row, e.Returns row → row.queue = queue → cap < row.deliveriesCount →
      s.PastCap row :=
  ⟨fun _ he _ _ hr hqueue => System.run_invocations_le hcap he hr hqueue,
    (System.run_inv b start cfgs acts).invocations_nodup,
    fun _ he _ hreturns hqueue hover => System.run_pastCap hcap he hreturns hqueue hover⟩

/-- One delivery, and a dead-letter table. -/
def cappedConfig : SubscriberConfig :=
  { plainConfig with
    maxDeliveries := some 1
    dlqTable := true
    valid := by decide }

/-- An exception escapes `consume()`, and the row is claimed again once its lease expired. -/
def redeliveredActs : List Act :=
  consumingActs ++
  [.subscriber 0 (.worker 0 (.consumed .exception [] false {})),
    .external (.tick 60000001)] ++
  fetchActs 8

/-- The second claim is past the cap, and its delete lands. -/
def cappedActs : List Act :=
  redeliveredActs ++
  [.subscriber 0 (.worker 0 (.got {})),
    .applyWorker 0 0,
    .subscriber 0 (.worker 0 (.replied {}))]

theorem delivery_cap_cappedRun :
    let s := (System.init 0 [cappedConfig]).run .postgres cappedActs
    s.invocations.map OutboxInnerMessage.key = [(1, some 7)] ∧
    s.world.store.rows = [] ∧
    s.world.store.dlqRows.map (fun d => (d.originalId, d.deliveriesCount, d.failureReason)) =
      [(1, 2, "max_deliveries")] ∧
    ∀ e ∈ s.executed, ∀ row, e.Returns row → row.queue = "orders" → 1 < row.deliveriesCount →
      s.PastCap row :=
  ⟨by decide +kernel, by decide +kernel, by decide +kernel,
    (delivery_cap .postgres 0 [cappedConfig] cappedActs "orders" 1 (by decide)).2.2⟩

end Outbox
