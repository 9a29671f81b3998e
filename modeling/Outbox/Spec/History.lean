import Outbox.Spec.SystemInv
import Outbox.Spec.Timers

/-!
# The history of a run

What the database ran is a record of its own: each operation with the world it found and the
world it left. A row of the record and a later one under the same id are two states of one
row, and an id that was given up is not drawn again.

## Key results

- `System.run_history`: the induction rule for what a run leaves in the record
- `System.run_lineage`: rows under one id belong together, and claims of one row are told
  apart by their delivery counts
- `System.run_written`: a write that lands for a claim finds the row as the claim has it
-/

namespace Outbox

open List

/-! ## One step of the record -/

namespace System

variable {b : Backend} {s s' : System}

/-- The entry of an operation the database runs now. -/
def ran (b : Backend) (s : System) (source : Source) (op : Op) : Executed :=
  { source := source
    entry :=
      { before := s.world
        input := op
        output := (s.world.step b op).1
        after := (s.world.step b op).2 } }

/-- A step of the system runs nothing, or one operation that its source may send. -/
theorem step_ran (h : s.Inv b) {act : Act} (hstep : s.step b act = some s') :
    (s'.world = s.world ∧ s'.executed = s.executed) ∨
    ∃ source op, s.Sends source op ∧ s'.world = (s.world.step b op).2 ∧
      s'.executed = s.executed ++ [s.ran b source op] := by
  cases step_stepped hstep with
  | external hop => exact .inr ⟨.external, _, hop, rfl, rfl⟩
  | subscriber _ _ _ => exact .inl ⟨rfl, rfl⟩
  | @appliedWorker index _ sub w stmt hsub hw hstmt =>
    -- the statement a worker awaits is justified and issued
    have hwinv := (h.subscribers _ sub hsub).workers w (mem_of_getElem? hw)
    obtain ⟨hjustified, hkeys⟩ := Worker.pending_justified hwinv.buffer hwinv.legit hstmt
    exact .inr ⟨.subscriber index stmt, stmt.op [],
      ⟨⟨sub, hsub, hjustified, hkeys ▸ hwinv.issued⟩, [], rfl⟩, rfl, rfl⟩
  | @appliedFetch index _ sub stmt hsub hstmt =>
    refine .inr ⟨.subscriber index stmt, stmt.op _, ⟨⟨sub, hsub, ?_⟩, _, rfl⟩, rfl, rfl⟩
    unfold FetchTask.pending at hstmt
    split at hstmt <;> cases hstmt
    exact ⟨⟨rfl, rfl⟩, fun c => Nat.zero_le _⟩
  | @appliedOrphan _ index _ stmt horphan =>
    exact .inr ⟨.subscriber index stmt, stmt.op _,
      ⟨h.orphans _ (mem_of_getElem? horphan), _, rfl⟩, rfl, rfl⟩

/-- The configurations are those of the start. -/
theorem step_cfgs {act : Act} (hstep : s.step b act = some s') {cfgs : List SubscriberConfig}
    (h : ∀ sub ∈ s.subscribers, sub.cfg ∈ cfgs) : ∀ sub ∈ s'.subscribers, sub.cfg ∈ cfgs := by
  intro sub' hsub'
  obtain ⟨index, hget⟩ := mem_iff_getElem?.mp hsub'
  obtain ⟨sub, hsub, hmoved⟩ := step_moved hstep hget
  have hcfg := h sub (mem_of_getElem? hsub)
  cases hmoved with
  | idle _ => exact hcfg
  | stepped hsubstep =>
    rw [(Subscriber.step_frame hsubstep).1]
    exact hcfg
  | worker hw reply => exact hcfg
  | fetch reply => exact hcfg

/-- **The induction rule for histories**: what holds of the first world and the empty record,
    and is kept by every operation a source may send, holds at every point of a run. -/
theorem run_history {P : World → List Executed → Prop} {start : Int}
    {cfgs : List SubscriberConfig} (hinit : P (World.init start) []) (acts : List Act)
    (hstep : ∀ (s : System) (source : Source) (op : Op), s.Inv b →
      (∀ sub ∈ s.subscribers, sub.cfg ∈ cfgs) → P s.world s.executed → s.Sends source op →
      P (s.world.step b op).2 (s.executed ++ [s.ran b source op])) :
    P ((init start cfgs).run b acts).world ((init start cfgs).run b acts).executed := by
  refine (run_invariant (b := b) (P := fun s => (∀ sub ∈ s.subscribers, sub.cfg ∈ cfgs) ∧
    P s.world s.executed) ⟨?_, hinit⟩ acts ?_).2
  · intro sub hsub
    obtain ⟨cfg, hcfg, rfl⟩ := mem_map.mp hsub
    exact hcfg
  · intro s act _ s' hinv ⟨hcfgs, hP⟩ hnext
    refine ⟨step_cfgs hnext hcfgs, ?_⟩
    cases step_ran hinv hnext with
    | inl hquiet =>
      rw [hquiet.1, hquiet.2]
      exact hP
    | inr hran =>
      obtain ⟨source, op, hsends, hworld, hexecuted⟩ := hran
      rw [hworld, hexecuted]
      exact hstep s source op hinv hcfgs hP hsends

/-- The configurations of a run are those of its start. -/
theorem run_cfgs (b : Backend) (start : Int) (cfgs : List SubscriberConfig) (acts : List Act) :
    ∀ sub ∈ ((init start cfgs).run b acts).subscribers, sub.cfg ∈ cfgs := by
  refine run_invariant (b := b) (P := fun s => ∀ sub ∈ s.subscribers, sub.cfg ∈ cfgs) ?_ acts
    fun s act _ s' _ h hnext => step_cfgs hnext h
  intro sub hsub
  obtain ⟨cfg, hcfg, rfl⟩ := mem_map.mp hsub
  exact hcfg

end System

/-! ## One row and its later states -/

/-- The second row is a later state of the first. -/
structure Row.Precedes (r r' : Row) : Prop where
  id : r'.id = r.id
  queue : r'.queue = r.queue
  createdAt : r'.createdAt = r.createdAt
  timerId : r'.timerId = r.timerId
  deliveries : r.deliveriesCount ≤ r'.deliveriesCount

theorem Row.Precedes.refl (r : Row) : r.Precedes r := ⟨rfl, rfl, rfl, rfl, Nat.le_refl _⟩

theorem Row.Precedes.trans {r r' r'' : Row} (h : r.Precedes r') (h' : r'.Precedes r'') :
    r.Precedes r'' where
  id := h'.id.trans h.id
  queue := h'.queue.trans h.queue
  createdAt := h'.createdAt.trans h.createdAt
  timerId := h'.timerId.trans h.timerId
  deliveries := Nat.le_trans h.deliveries h'.deliveries

/-- What an operation makes of a row is a later state of it. -/
theorem RowStep.precedes {id nextId : Nat} {now : Int} {op : Op} {reply : Reply} {r r' : Row}
    (h : RowStep id nextId now op reply (some r) (some r')) : r.Precedes r' := by
  generalize hr' : some r' = after at h
  generalize hr : some r = before at h
  cases h with
  | same _ _ _ =>
    rw [← hr'] at hr
    cases hr
    exact .refl r
  | inserted _ => cases hr
  | insertedBatch _ _ => cases hr
  | extended _ _ _ _ _ _ =>
    cases hr
    cases hr'
    exact ⟨rfl, rfl, rfl, rfl, Nat.le_refl _⟩
  | claimed _ _ =>
    cases hr
    cases hr'
    exact ⟨rfl, rfl, rfl, rfl, Nat.le_succ _⟩
  | rescheduled _ =>
    cases hr
    cases hr'
    exact ⟨rfl, rfl, rfl, rfl, Nat.le_refl _⟩
  | deleted _ => cases hr'
  | deletedBatch _ _ _ => cases hr'
  | cancelled _ _ => cases hr'

/-- The operation took the row with the id out of the table. -/
def Executed.Removes (e : Executed) (id : Nat) (r : Row) : Prop :=
  e.entry.before.store.row? id = some r ∧ e.entry.after.store.row? id = none

/-! ## Lineage -/

/-- What the record says of the rows that the world holds now. -/
structure Lineage (w : World) (executed : List Executed) : Prop where
  drawn : ∀ e ∈ executed, e.entry.before.store.nextId ≤ w.store.nextId ∧
    e.entry.after.store.nextId ≤ w.store.nextId
  /-- A row of the record precedes the row under its id. -/
  past : ∀ e ∈ executed, ∀ id r r', e.entry.after.store.row? id = some r →
    w.store.row? id = some r' → r.Precedes r'
  /-- Of two rows of the record under one id, one precedes the other. -/
  kin : ∀ e ∈ executed, ∀ e' ∈ executed, ∀ id r r', e.entry.after.store.row? id = some r →
    e'.entry.after.store.row? id = some r' → r.Precedes r' ∨ r'.Precedes r
  /-- Two claims of one row differ in their delivery counts. -/
  counted : ∀ e ∈ executed, ∀ e' ∈ executed, ∀ r r', e.Returns r → e'.Returns r' →
    r.id = r'.id → r.deliveriesCount = r'.deliveriesCount → r = r'
  /-- A row that was removed is gone. -/
  removed : ∀ e ∈ executed, ∀ id r, e.Removes id r → w.store.row? id = none
  /-- No two operations removed one row. -/
  once : ∀ e ∈ executed, ∀ e' ∈ executed, ∀ id r r', e.Removes id r → e'.Removes id r' → e = e'

namespace System

variable {b : Backend} {s s' : System}

theorem ran_rowStep (h : s.Inv b) (source : Source) (op : Op) (id : Nat) :
    RowStep id s.world.store.nextId s.world.now op (s.ran b source op).entry.output
      (s.world.store.row? id) ((s.ran b source op).entry.after.store.row? id) :=
  World.apply_rowStep h.wf b op id

/-- The row an operation of a run leaves belongs to an id that is drawn. -/
theorem Inv.drawn_of_after (h : s.Inv b) {e : Executed} (he : e ∈ s.executed) {id : Nat} {r : Row}
    (hr : e.entry.after.store.row? id = some r) : id < e.entry.after.store.nextId := by
  obtain ⟨hwf, hstep⟩ := h.steps e he
  have hafter : (World.step b e.entry.before e.entry.input).2.store.WF :=
    World.apply_wf hwf b e.entry.input
  rw [hstep] at hafter
  refine Nat.lt_of_not_le fun hle => ?_
  rw [hafter.row?_of_le hle] at hr
  cases hr

theorem Inv.drawn_of_before (h : s.Inv b) {e : Executed} (he : e ∈ s.executed) {id : Nat}
    {r : Row} (hr : e.entry.before.store.row? id = some r) :
    id < e.entry.before.store.nextId := by
  refine Nat.lt_of_not_le fun hle => ?_
  rw [(h.steps e he).1.row?_of_le hle] at hr
  cases hr

/-- A row of the record precedes what the next operation leaves under its id. -/
theorem past_step (h : s.Inv b) (hlineage : Lineage s.world s.executed) (source : Source)
    (op : Op) {e : Executed} (he : e ∈ s.executed) {id : Nat} {r r' : Row}
    (hr : e.entry.after.store.row? id = some r)
    (hr' : (s.ran b source op).entry.after.store.row? id = some r') :
    r.Precedes r' := by
  have hrow := ran_rowStep h source op id
  rw [hr'] at hrow
  cases hnow : s.world.store.row? id with
  | some r₀ =>
    rw [hnow] at hrow
    exact (hlineage.past e he id r r₀ hr hnow).trans hrow.precedes
  | none =>
    -- the id was drawn before, so it is not drawn now
    rw [hnow] at hrow
    have hdrawn := h.drawn_of_after he hr
    have hle := (hlineage.drawn e he).2
    have hgone := (hrow.stays_gone (by omega)).1
    cases hgone

/-- What a fetch returns has one delivery more than the row it found. -/
theorem ran_returns (h : s.Inv b) (source : Source) (op : Op) {row : Row}
    (hreturns : (s.ran b source op).Returns row) :
    (s.ran b source op).entry.after.store.row? row.id = some row ∧
      ∃ r, s.world.store.row? row.id = some r ∧ row.deliveriesCount = r.deliveriesCount + 1 := by
  obtain ⟨rows, hrows, hrow⟩ := hreturns
  have hreply : (s.world.step b op).1 = .claimed rows := hrows
  cases op with
  | fetch token queues limit leaseTtl locked =>
    refine ⟨World.returned_stored h.wf b hreply hrow, ?_⟩
    obtain ⟨rows', hreply', _, _, hstamped⟩ := World.fetch_reply h.wf b token queues limit
      leaseTtl locked
    rw [hreply] at hreply'
    cases hreply'
    obtain ⟨r, hr, _, hset⟩ := hstamped row hrow
    have hcount : (OutboxClient.claimSet r s.world.now token).deliveriesCount =
        r.deliveriesCount + 1 := rfl
    exact ⟨r, hr, by rw [← hcount, ← hset]⟩
  | _ => cases hreply

/-- A claim of the record has fewer deliveries than a claim made now. -/
theorem counted_step (h : s.Inv b) (hlineage : Lineage s.world s.executed) (source : Source)
    (op : Op) {e : Executed} (he : e ∈ s.executed) {r r' : Row} (hreturns : e.Returns r)
    (hreturns' : (s.ran b source op).Returns r') (hid : r.id = r'.id) :
    r.deliveriesCount < r'.deliveriesCount := by
  obtain ⟨_, _, _, _, _, _, _, _, _, _, _, _, _, hstored⟩ := h.of_returns he hreturns
  obtain ⟨_, r₀, hr₀, hcount⟩ := ran_returns h source op hreturns'
  have hprecedes := hlineage.past e he r.id r r₀ hstored (hid ▸ hr₀)
  have hle := hprecedes.deliveries
  omega

/-- An operation carries the lineage on. -/
theorem ran_lineage (h : s.Inv b) (hlineage : Lineage s.world s.executed) (source : Source)
    (op : Op) : Lineage (s.world.step b op).2 (s.executed ++ [s.ran b source op]) where
  drawn e he := by
    have hgrow : s.world.store.nextId ≤ (s.world.step b op).2.store.nextId :=
      World.apply_nextId_le h.wf b op
    rw [mem_append, mem_singleton] at he
    cases he with
    | inl hold =>
      obtain ⟨hbefore, hafter⟩ := hlineage.drawn e hold
      exact ⟨Nat.le_trans hbefore hgrow, Nat.le_trans hafter hgrow⟩
    | inr hnew =>
      rw [hnew]
      exact ⟨hgrow, Nat.le_refl _⟩
  past e he id r r' hr hr' := by
    rw [mem_append, mem_singleton] at he
    cases he with
    | inl hold => exact past_step h hlineage source op hold hr hr'
    | inr hnew =>
      rw [hnew] at hr
      have heq : some r = some r' := hr.symm.trans hr'
      cases heq
      exact .refl r
  kin e he e' he' id r r' hr hr' := by
    rw [mem_append, mem_singleton] at he he'
    cases he with
    | inl hold =>
      cases he' with
      | inl hold' => exact hlineage.kin e hold e' hold' id r r' hr hr'
      -- the row the store holds descends from every earlier one
      | inr hnew' => exact .inl (past_step h hlineage source op hold hr (hnew' ▸ hr'))
    | inr hnew =>
      cases he' with
      | inl hold' => exact .inr (past_step h hlineage source op hold' hr' (hnew ▸ hr))
      | inr hnew' =>
        rw [hnew] at hr
        rw [hnew', hr] at hr'
        cases hr'
        exact .inl (.refl r)
  counted e he e' he' r r' hr hr' hid hcount := by
    rw [mem_append, mem_singleton] at he he'
    cases he with
    | inl hold =>
      cases he' with
      | inl hold' => exact hlineage.counted e hold e' hold' r r' hr hr' hid hcount
      | inr hnew' =>
        -- a claim counts past every earlier one of the row
        have hlt := counted_step h hlineage source op hold hr (hnew' ▸ hr') hid
        omega
    | inr hnew =>
      cases he' with
      | inl hold' =>
        have hlt := counted_step h hlineage source op hold' hr' (hnew ▸ hr) hid.symm
        omega
      | inr hnew' =>
        -- one store holds one row under the id
        have hstored := (ran_returns h source op (hnew ▸ hr)).1
        have hstored' := (ran_returns h source op (hnew' ▸ hr')).1
        rw [hid, hstored'] at hstored
        exact (Option.some_inj.mp hstored).symm
  removed e he id r hremoves := by
    rw [mem_append, mem_singleton] at he
    cases he with
    | inl hold =>
      -- ids are drawn once: what was removed stays so
      have hgone := hlineage.removed e hold id r hremoves
      have hrow := ran_rowStep h source op id
      rw [hgone] at hrow
      have hlt := h.drawn_of_before hold hremoves.1
      have hdrawn := (hlineage.drawn e hold).1
      exact (hrow.stays_gone (by omega)).1
    | inr hnew =>
      rw [hnew] at hremoves
      exact hremoves.2
  once e he e' he' id r r' hremoves hremoves' := by
    rw [mem_append, mem_singleton] at he he'
    cases he with
    | inl hold =>
      cases he' with
      | inl hold' => exact hlineage.once e hold e' hold' id r r' hremoves hremoves'
      | inr hnew' =>
        -- what was removed before is not there to be removed now
        have hgone := hlineage.removed e hold id r hremoves
        have hthere : s.world.store.row? id = some r' := (hnew' ▸ hremoves').1
        rw [hgone] at hthere
        cases hthere
    | inr hnew =>
      cases he' with
      | inl hold' =>
        have hgone := hlineage.removed e' hold' id r' hremoves'
        have hthere : s.world.store.row? id = some r := (hnew ▸ hremoves).1
        rw [hgone] at hthere
        cases hthere
      | inr hnew' => rw [hnew, hnew']

theorem init_lineage (start : Int) : Lineage (World.init start) [] where
  drawn e he := by cases he
  past e he := by cases he
  kin e he := by cases he
  counted e he := by cases he
  removed e he := by cases he
  once e he := by cases he

/-- **Rows under one id belong together**, at every point of a run. -/
theorem run_lineage (b : Backend) (start : Int) (cfgs : List SubscriberConfig)
    (acts : List Act) :
    Lineage ((init start cfgs).run b acts).world ((init start cfgs).run b acts).executed :=
  run_history (P := Lineage) (init_lineage start) acts
    fun _ source op h _ hlineage _ => ran_lineage h hlineage source op

end System

/-! ## Writes -/

/-- The messages a statement writes. -/
def Stmt.messages : Stmt → List OutboxInnerMessage
  | .fetch _ _ _ _ => []
  | .deleteWithLease m _ _ _ => [m]
  | .markPendingWithLease m _ _ => [m]
  | .deleteBatchWithLease pending => pending.map PendingFlush.row

/-- A justified statement writes for claims its subscriber was returned. -/
theorem Stmt.Justified.claimed {known : Row → Prop} {cfg : SubscriberConfig} {stmt : Stmt}
    (h : stmt.Justified known cfg) {m : OutboxInnerMessage} (hm : m ∈ stmt.messages) :
    m.Claimed known := by
  cases stmt with
  | fetch token queues limit leaseTtl => cases hm
  | deleteWithLease m' token dlqTable payload => exact mem_singleton.mp hm ▸ h.1
  | markPendingWithLease m' token delay => exact mem_singleton.mp hm ▸ h.1
  | deleteBatchWithLease pending =>
    obtain ⟨p, hp, rfl⟩ := mem_map.mp hm
    exact (h p hp).claimed

/-- The write landed for the claim. -/
def Executed.LandedFor (e : Executed) (m : OutboxInnerMessage) : Prop :=
  ∃ token, m.row.acquiredToken = some token ∧ Landed e.entry.input e.entry.output m.row.id token

namespace System

variable {b : Backend} {s : System}

/-- A write that lands for a claim finds the row as the claim has it. -/
theorem ran_written (h : s.Inv b) {index : Nat} {stmt : Stmt} {op : Op}
    (hsends : s.Sends (.subscriber index stmt) op) {m : OutboxInnerMessage}
    (hm : m ∈ stmt.messages) (hlanded : (s.ran b (.subscriber index stmt) op).LandedFor m) :
    s.world.store.row? m.row.id = some m.row := by
  obtain ⟨token, htoken, hland⟩ := hlanded
  obtain ⟨⟨sub, _, hjustified, _⟩, _⟩ := hsends
  obtain ⟨⟨stored, hstored, hcurrent⟩, _⟩ :=
    (ran_rowStep h (.subscriber index stmt) op m.row.id).of_landed hland
  have hsame := h.row_of_held (hjustified.claimed hm).known hstored htoken hcurrent
  rw [hstored, hsame]

/-- **A write that lands for a claim finds the row as the claim has it**, in every run. -/
theorem run_written (b : Backend) (start : Int) (cfgs : List SubscriberConfig)
    (acts : List Act) : ∀ e ∈ ((init start cfgs).run b acts).executed, ∀ index stmt,
      e.source = .subscriber index stmt → ∀ m ∈ stmt.messages, e.LandedFor m →
      e.entry.before.store.row? m.row.id = some m.row := by
  refine run_history (P := fun _ executed => ∀ e ∈ executed, ∀ index stmt,
    e.source = .subscriber index stmt → ∀ m ∈ stmt.messages, e.LandedFor m →
    e.entry.before.store.row? m.row.id = some m.row) (fun e he => by cases he) acts ?_
  intro s source op h _ hold hsends e he index stmt hsource m hm hlanded
  rw [mem_append, mem_singleton] at he
  cases he with
  | inl hbefore => exact hold e hbefore index stmt hsource m hm hlanded
  | inr hnew =>
    subst hnew
    have hsource : source = .subscriber index stmt := hsource
    subst hsource
    exact ran_written h hsends hm hlanded

/-- A subscriber is returned rows of the queues it serves. -/
theorem Inv.serves (h : s.Inv b) {index : Nat} {sub : Subscriber}
    (hsub : s.subscribers[index]? = some sub) {row : Row} (hknown : s.known index row) :
    row.queue ∈ sub.cfg.queues := by
  obtain ⟨e, he, ⟨stmt, hsource⟩, hreturns⟩ := hknown
  obtain ⟨index', sub', _, _, _, _, _, hsource', hsub', _, _, hqueue, _, _⟩ :=
    h.of_returns he hreturns
  rw [hsource] at hsource'
  cases hsource'
  rw [hsub] at hsub'
  cases hsub'
  exact hqueue

end System

/-! ## Deletes -/

/-- The statement deletes the rows it writes. -/
def Stmt.isDelete : Stmt → Bool
  | .deleteWithLease _ _ _ _ | .deleteBatchWithLease _ => true
  | _ => false

/-- A delete that lands for a row leaves nothing of it. -/
theorem RowStep.gone_of_landed {id nextId : Nat} {now : Int} {stmt : Stmt} {locked : List Nat}
    {reply : Reply} {r r' : Option Row}
    (h : RowStep id nextId now (stmt.op locked) reply r r') (hdelete : stmt.isDelete = true)
    {token : UUID} (hland : Landed (stmt.op locked) reply id token) : r' = none := by
  cases stmt with
  | deleteWithLease m token' dlqTable payload =>
    generalize hop : Stmt.op (.deleteWithLease m token' dlqTable payload) locked = op at h hland
    cases h with
    | same _ hlanded _ => exact absurd hland (hlanded token)
    | deleted _ => rfl
    | _ => cases hop
  | deleteBatchWithLease pending =>
    generalize hop : Stmt.op (.deleteBatchWithLease pending) locked = op at h hland
    cases h with
    | same _ hlanded _ => exact absurd hland (hlanded token)
    | deletedBatch _ _ _ => rfl
    | _ => cases hop
  | _ => cases hdelete

/-- The dead-letter rows the operation wrote. -/
def Executed.archived (e : Executed) : List DlqRow :=
  e.entry.before.archivedBy e.entry.input e.entry.output

/-- What a delete for the claim leaves in the dead-letter table. -/
def OutboxInnerMessage.archive (cfg : SubscriberConfig) (m : OutboxInnerMessage) (now : Int) :
    List DlqRow :=
  match Worker.dlqPayload cfg m with
  | .ok (some p) =>
    [dlqProjection m.row now (p.failureReason.getD "") (p.lastException.getD none)]
  | _ => []

/-- Nothing is archived of what may be batched. -/
theorem OutboxInnerMessage.archive_of_unarchived {cfg : SubscriberConfig} {m : OutboxInnerMessage}
    (h : Worker.terminalHasDlq cfg m = false) (now : Int) : m.archive cfg now = [] := by
  unfold archive Worker.dlqPayload
  unfold Worker.terminalHasDlq at h
  cases hreason : m.terminalFailureReason with
  | none => rfl
  | some reason =>
    have htable : cfg.dlqTable = false := by simpa [hreason] using h
    simp [htable]

namespace System

variable {b : Backend} {s : System} (h : s.Inv b) {e : Executed} (he : e ∈ s.executed)
include h he

theorem Inv.dlqRows_eq :
    e.entry.after.store.dlqRows = e.entry.before.store.dlqRows ++ e.archived := by
  obtain ⟨hwf, hstep⟩ := h.steps e he
  have hdlq := World.apply_dlqRows hwf b e.entry.input
  have hreply : (World.step b e.entry.before e.entry.input).1 = e.entry.output := by rw [hstep]
  have hafter : (World.step b e.entry.before e.entry.input).2 = e.entry.after := by rw [hstep]
  rw [← hafter, Executed.archived, ← hreply]
  exact hdlq

theorem Inv.executed_rowStep (id : Nat) :
    RowStep id e.entry.before.store.nextId e.entry.before.now e.entry.input e.entry.output
      (e.entry.before.store.row? id) (e.entry.after.store.row? id) := by
  obtain ⟨hwf, hstep⟩ := h.steps e he
  have hrow := World.apply_rowStep hwf b e.entry.input id
  have hreply : (World.step b e.entry.before e.entry.input).1 = e.entry.output := by rw [hstep]
  have hafter : (World.step b e.entry.before e.entry.input).2 = e.entry.after := by rw [hstep]
  rw [← hreply, ← hafter]
  exact hrow

/-- **A delete that lands for a claim takes its row away, and archives what the outcome of the
    claim asks for.** -/
theorem Inv.deleted_landed {index : Nat} {stmt : Stmt} (hsource : e.source = .subscriber index stmt)
    (hdelete : stmt.isDelete = true) {sub : Subscriber} (hsub : s.subscribers[index]? = some sub)
    {m : OutboxInnerMessage} (hm : m ∈ stmt.messages) (hlanded : e.LandedFor m)
    (hrow : e.entry.before.store.row? m.row.id = some m.row) :
    e.Removes m.row.id m.row ∧ e.archived = m.archive sub.cfg e.entry.before.now := by
  have hsent := h.sent e he
  rw [hsource] at hsent
  obtain ⟨⟨sub', hsub', hjustified, _⟩, locked, hinput⟩ := hsent
  rw [hsub] at hsub'
  cases hsub'
  obtain ⟨token, htoken, hland⟩ := hlanded
  have hstep := h.executed_rowStep he m.row.id
  rw [hinput] at hstep hland
  refine ⟨⟨hrow, hstep.gone_of_landed hdelete hland⟩, ?_⟩
  rw [Executed.archived, hinput]
  cases stmt with
  | deleteWithLease m' token' dlqTable payload =>
    obtain rfl : m = m' := mem_singleton.mp hm
    obtain ⟨_, _, _, _, _, hpayload⟩ := hjustified
    cases hreply : e.entry.output with
    | deleted landed =>
      rw [hreply] at hland
      obtain ⟨_, rfl⟩ := hland
      rw [OutboxInnerMessage.archive, hpayload]
      cases payload with
      | none => rfl
      | some p =>
        show (e.entry.before.store.row? m.row.id).toList.map _ = _
        rw [hrow]
        rfl
    | _ =>
      rw [hreply] at hland
      exact hland.elim
  | deleteBatchWithLease pending =>
    obtain ⟨p, hp, rfl⟩ := mem_map.mp hm
    rw [OutboxInnerMessage.archive_of_unarchived (hjustified p hp).unarchived]
    rfl
  | _ => cases hdelete

end System

end Outbox
