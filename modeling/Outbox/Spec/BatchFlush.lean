import Outbox.Native.System
import Outbox.Spec.WorldStep

/-!
# A batched flush is a sequence of inline flushes

`_flush_buffer` deletes its claims in one statement and closes them when the reply is
there; the inline path of `_flush_or_buffer` deletes one claim and closes it before the
next. As long as no pair of id and token is met twice, a delete changes nothing for the
deletes after it, so both leave the same tables, find the same claims gone, emit the same
metrics and count the same rows done.

## Key results

- `World.final_singles`, `World.trace_singles`: the tables and the replies of the deletes,
  one after another
- `Worker.flushed_eq`, `Worker.inline_eq`: what a worker does with the replies
- `batched_flush_eq_inline`: the two paths agree
-/

namespace Outbox

open OutboxClient (leased wanted)

/-! ## The store -/

namespace World

/-- The delete of one claim, as the inline path issues it for a claim without a payload. -/
def single (dlqTable : Bool) (pair : Nat × UUID) : Op :=
  .deleteWithLease dlqTable pair.1 pair.2 none

variable {w : World} (hwf : w.store.WF) (b : Backend) (dlqTable : Bool)
include hwf

theorem step_single (pair : Nat × UUID) :
    w.step b (single dlqTable pair) =
      (.deleted (.ok (decide (w.store.Holds pair.1 pair.2))),
        { w with store :=
          { w.store with rows := w.store.rows.filter fun r => !leased pair.1 pair.2 r } }) := by
  have hnone : DlqPayload.Acceptable dlqTable none := trivial
  have hdelete := apply_deleteWithLease hwf b hnone pair.1 pair.2
  simp only [OutboxClient.archived, List.append_nil] at hdelete
  simp only [step, single, clock, hdelete]

theorem step_batch (pairs : List (Nat × UUID)) :
    w.step b (.deleteBatchWithLease pairs) =
      (.deletedBatch (OutboxClient.deleteBatchWithLease w.store pairs).1,
        { w with store :=
          { w.store with rows := w.store.rows.filter fun r => !wanted pairs r } }) := by
  simp only [step, clock, apply_deleteBatchWithLease hwf b pairs]

omit hwf in
/-- A pair the deletes do not carry is held afterwards iff it was before. -/
theorem holds_filter_wanted (hwf : w.store.WF) {pairs : List (Nat × UUID)} {pair : Nat × UUID}
    (hother : pair ∉ pairs) :
    Store.Holds { w.store with rows := w.store.rows.filter fun r => !wanted pairs r } pair.1
      pair.2 ↔ w.store.Holds pair.1 pair.2 := by
  have hlookup := lookup_filter hwf.nodup_ids (fun r => !wanted pairs r) pair.1
  have hkept : ∀ r, w.store.row? pair.1 = some r → r.acquiredToken = some pair.2 →
      (!wanted pairs r) = true := by
    intro r hrow htoken
    have hid := ((Store.row?_eq_some_iff hwf).mp hrow).2
    rw [Bool.not_eq_true', Bool.eq_false_iff]
    intro hwanted
    obtain ⟨token, htoken', hmem⟩ := OutboxClient.wanted_iff.mp hwanted
    have heq : token = pair.2 := Option.some_inj.mp (htoken'.symm.trans htoken)
    rw [hid, heq] at hmem
    exact hother hmem
  constructor
  · intro ⟨r, hrow, htoken⟩
    have hrow : (lookup w.store.rows pair.1).filter (fun r => !wanted pairs r) = some r :=
      hlookup.symm.trans hrow
    exact ⟨r, (Option.filter_eq_some_iff.mp hrow).1, htoken⟩
  · intro ⟨r, hrow, htoken⟩
    exact ⟨r, hlookup.trans (Option.filter_eq_some_iff.mpr ⟨hrow, hkept r hrow htoken⟩), htoken⟩

/-- The deletes, one after another, leave the tables the batch leaves. -/
theorem final_singles (pairs : List (Nat × UUID)) :
    Run.final (World.step b) w (pairs.map (single dlqTable)) =
      { w with store :=
        { w.store with rows := w.store.rows.filter fun r => !wanted pairs r } } := by
  induction pairs generalizing w with
  | nil =>
    have hnone : (fun r => !wanted [] r) = fun _ => true := rfl
    simp only [List.map_nil, Run.final_nil, hnone, List.filter_true]
  | cons pair pairs ih =>
    have hwf' : World.store { w with store :=
        { w.store with rows := w.store.rows.filter fun r => !leased pair.1 pair.2 r } } |>.WF :=
      hwf.filter _ (Nat.le_refl _)
    rw [List.map_cons, Run.final_cons, step_single hwf, ih hwf']
    simp only [List.filter_filter]
    have hsplit : (fun r => (!wanted pairs r) && !leased pair.1 pair.2 r) =
        fun r => !wanted (pair :: pairs) r := by
      funext r
      have hcons : wanted (pair :: pairs) r = (leased pair.1 pair.2 r || wanted pairs r) := rfl
      rw [hcons, Bool.not_or, Bool.and_comm]
    rw [hsplit]

/-- No delete changes what a later one finds, when no pair is met twice. -/
theorem trace_singles {pairs : List (Nat × UUID)} (hnodup : pairs.Nodup) {i : Nat}
    {pair : Nat × UUID} {e : World.Entry} (hpair : pairs[i]? = some pair)
    (he : (Run.trace (World.step b) w (pairs.map (single dlqTable)))[i]? = some e) :
    e.output = .deleted (.ok (decide (w.store.Holds pair.1 pair.2))) := by
  obtain ⟨hinput, hbefore, hstep⟩ := Run.trace_getElem? he
  rw [List.getElem?_map, hpair, Option.map_some, Option.some_inj] at hinput
  rw [← List.map_take, final_singles hwf] at hbefore
  -- the pair is none of those deleted before
  have hother : pair ∉ pairs.take i := by
    intro hmem
    obtain ⟨j, hj⟩ := List.mem_iff_getElem?.mp hmem
    have hlt : j < i := by
      have hlen := (List.getElem?_eq_some_iff.mp hj).1
      rw [List.length_take] at hlen
      omega
    rw [List.getElem?_take_of_lt hlt] at hj
    have hne : i = j := (List.getElem?_inj (List.getElem?_eq_some_iff.mp hpair).1 hnodup).mp
      (hpair.trans hj.symm)
    omega
  have hheld := holds_filter_wanted (w := w) hwf hother
  have hwf' : e.before.store.WF := by
    rw [hbefore]
    exact hwf.filter _ (Nat.le_refl _)
  rw [← hinput, step_single hwf'] at hstep
  rw [← (Prod.mk.inj hstep).1, hbefore]
  simp only [hheld]

end World

/-! ## The worker -/

/-- The note is a metric. -/
def Note.isMetric : Note → Bool
  | .metric _ _ _ => true
  | _ => false

/-- The event that closes a claim: its own if the delete landed, and else `lease_lost`. -/
def PendingFlush.closing (cfg : SubscriberConfig) (p : PendingFlush) (landed : Bool) : Note :=
  if landed then .metric (some p.row.key) p.event p.tags
  else .metric (some p.row.key) .leaseLost
    { baseTags cfg p.row.row.queue with
      phase := some .terminal
      rowId := some p.row.row.id
      deliveriesCount := some p.row.row.deliveriesCount
      durationSeconds := p.row.handlerDurationSeconds }

/-- The claim's pair is among the pairs. -/
def PendingFlush.isIn (p : PendingFlush) (deleted : Finset (Nat × UUID)) : Bool :=
  p.row.row.acquiredToken.any fun token => decide ((p.row.row.id, token) ∈ deleted)

namespace Worker

variable (cfg : SubscriberConfig)

theorem closePending_eq (deleted : Finset (Nat × UUID)) (f : Frame) (p : PendingFlush) :
    closePending cfg deleted f p = (f.note (p.closing cfg (p.isIn deleted))).taskDone := by
  unfold closePending PendingFlush.closing
  show (if p.isIn deleted = true then _ else _ : Frame).taskDone = _
  cases p.isIn deleted <;> rfl

theorem resume_frame (f : Frame) (next : AfterFlush) : (resume cfg f next).1 = f := by
  cases next <;> rfl

/-- A flush that landed closes every claim of the buffer and counts it done. -/
theorem flushed_eq (f : Frame) (deleted : Finset (Nat × UUID)) (next : AfterFlush) :
    (flushed cfg f deleted next).1 =
      { shared := Shared.taskDone^[f.buffer.length] f.shared
        buffer := []
        notes := f.notes ++ f.buffer.map fun p => p.closing cfg (p.isIn deleted) } := by
  have hfold : ∀ (pending : List PendingFlush) (f : Frame),
      pending.foldl (closePending cfg deleted) f =
        { f with
          shared := Shared.taskDone^[pending.length] f.shared
          notes := f.notes ++ pending.map fun p => p.closing cfg (p.isIn deleted) } := by
    intro pending
    induction pending with
    | nil => simp
    | cons p pending ih =>
      intro f
      rw [List.foldl_cons, ih, closePending_eq]
      simp [Frame.note, Frame.taskDone]
  unfold flushed
  rw [resume_frame, hfold]

/-- One claim on the inline path: `_flush_or_buffer` without a buffer, the statement it
    awaits, and what `_safe_flush` does with the reply. -/
def inline (b : Backend) (r : Reading) (s : World × Frame) (p : PendingFlush) : World × Frame :=
  let (f, pc) := flushOrBuffer cfg r s.2 p.row p.event p.tags false
  match pending cfg { pc := pc }, pc with
  | some stmt, .writing m _ kind _ =>
    let (reply, w) := s.1.step b (stmt.op [])
    match writeReplied cfg r f m kind reply with
    | some (f, _) => (w, f)
    | none => (w, f)
  | _, _ => (s.1, f)

/-- The inline path deletes the claim, closes it and counts it done. -/
theorem inline_eq {w : World} (hwf : w.store.WF) (b : Backend) (r : Reading) {f : Frame}
    (hbuffer : f.buffer = []) {p : PendingFlush} {token : UUID}
    (htoken : p.row.row.acquiredToken = some token) (hplain : terminalHasDlq cfg p.row = false) :
    inline cfg b r (w, f) p =
      ((w.step b (World.single cfg.dlqTable (p.row.row.id, token))).2,
        ((((f.note (.writeIssued p.row.key)).note
          (p.closing cfg (decide (w.store.Holds p.row.row.id token)))).note
            (.ended p.row.key)).taskDone)) := by
  -- a claim without an archive copy
  have hpayload : dlqPayload cfg p.row = .ok none := by
    unfold terminalHasDlq at hplain
    unfold dlqPayload
    cases hreason : p.row.terminalFailureReason with
    | none => rfl
    | some reason =>
      rw [hreason, Option.isSome_some, Bool.true_and] at hplain
      simp [hplain]
  have hissued : flushOrBuffer cfg r f p.row p.event p.tags false =
      (f.note (.writeIssued p.row.key),
        .writing p.row token (.terminal p.event p.tags none) none) := by
    unfold flushOrBuffer
    simp only [Bool.false_and, Bool.false_eq_true, if_false, htoken, hpayload]
  have hstep := World.step_single hwf b cfg.dlqTable (p.row.row.id, token)
  have hclose : ∀ g : Frame, g.buffer = [] → ∀ event : Note,
      (afterDispatch cfg r (g.note event) p.row false).1 =
        ((g.note event).note (.ended p.row.key)).taskDone := by
    intro g hg event
    simp [afterDispatch, Frame.note, Frame.taskDone, hg]
  unfold inline
  rw [hissued]
  have hop : (Stmt.deleteWithLease p.row token cfg.dlqTable none).op [] =
      World.single cfg.dlqTable (p.row.row.id, token) := rfl
  simp only [pending, hop, hstep]
  have hbuffer' : (f.note (.writeIssued p.row.key)).buffer = [] := hbuffer
  -- the reply tells whether the claim is current
  by_cases hheld : w.store.Holds p.row.row.id token
  · simp only [hheld, decide_true, writeReplied, Option.isSome_none, Bool.false_eq_true, if_false]
    exact congrArg _ (hclose _ hbuffer' _)
  · simp only [hheld, decide_false, writeReplied]
    exact congrArg _ (hclose _ hbuffer' _)

/-- The inline path over a buffer, claim after claim. -/
theorem foldl_inline {w : World} (hwf : w.store.WF) (b : Backend) (r : Reading) {f : Frame}
    (hbuffer : f.buffer = []) {claims : List PendingFlush}
    (hleased : ∀ p ∈ claims, p.row.row.acquiredToken.isSome = true)
    (hplain : ∀ p ∈ claims, terminalHasDlq cfg p.row = false)
    (hnodup : (flushPairs claims).Nodup) :
    (claims.foldl (inline cfg b r) (w, f)).1 =
        Run.final (World.step b) w ((flushPairs claims).map (World.single cfg.dlqTable)) ∧
      (claims.foldl (inline cfg b r) (w, f)).2.shared =
        Shared.taskDone^[claims.length] f.shared ∧
      (claims.foldl (inline cfg b r) (w, f)).2.notes.filter Note.isMetric =
        f.notes.filter Note.isMetric ++ claims.map fun p => p.closing cfg
          (p.row.row.acquiredToken.any fun token => decide (w.store.Holds p.row.row.id token)) := by
  induction claims generalizing w f with
  | nil => simp [flushPairs]
  | cons p claims ih =>
    obtain ⟨token, htoken⟩ := Option.isSome_iff_exists.mp (hleased p List.mem_cons_self)
    have hpairs : flushPairs (p :: claims) = (p.row.row.id, token) :: flushPairs claims := by
      simp [flushPairs, htoken]
    rw [hpairs, List.nodup_cons] at hnodup
    have hstep := World.step_single hwf b cfg.dlqTable (p.row.row.id, token)
    have hone := inline_eq cfg hwf b r hbuffer htoken (hplain p List.mem_cons_self)
    have hwf' : (w.step b (World.single cfg.dlqTable (p.row.row.id, token))).2.store.WF := by
      rw [hstep]
      exact hwf.filter _ (Nat.le_refl _)
    obtain ⟨hworld, hshared, hmetrics⟩ := ih hwf'
      (f := (((f.note (.writeIssued p.row.key)).note
          (p.closing cfg (decide (w.store.Holds p.row.row.id token)))).note
            (.ended p.row.key)).taskDone)
      hbuffer (fun q hq => hleased q (List.mem_cons_of_mem p hq))
      (fun q hq => hplain q (List.mem_cons_of_mem p hq)) hnodup.2
    rw [List.foldl_cons, hone, hpairs, List.map_cons, Run.final_cons]
    refine ⟨hworld, hshared, hmetrics.trans ?_⟩
    -- the claims that follow are held after this delete iff they were before
    have hlater : ∀ q ∈ claims, (q.row.row.acquiredToken.any fun t => decide
          ((w.step b (World.single cfg.dlqTable (p.row.row.id, token))).2.store.Holds
            q.row.row.id t)) =
        q.row.row.acquiredToken.any fun t => decide (w.store.Holds q.row.row.id t) := by
      intro q hq
      obtain ⟨t, ht⟩ := Option.isSome_iff_exists.mp (hleased q (List.mem_cons_of_mem p hq))
      have hmem : (q.row.row.id, t) ∈ flushPairs claims :=
        List.mem_filterMap.mpr ⟨q, hq, by rw [ht]; rfl⟩
      have hother : (q.row.row.id, t) ∉ [(p.row.row.id, token)] := by
        intro heq
        exact hnodup.1 (List.mem_singleton.mp heq ▸ hmem)
      have hwanted : (fun r => !wanted [(p.row.row.id, token)] r) =
          fun r => !leased p.row.row.id token r := by
        funext r
        have hcons : wanted [(p.row.row.id, token)] r =
            (leased p.row.row.id token r || false) := rfl
        rw [hcons, Bool.or_false]
      have hheld := World.holds_filter_wanted hwf hother
      rw [hwanted] at hheld
      rw [ht, Option.any_some, Option.any_some, decide_eq_decide, hstep]
      exact hheld
    have hclosing :
        (p.closing cfg (decide (w.store.Holds p.row.row.id token))).isMetric = true := by
      unfold PendingFlush.closing
      split <;> rfl
    have hissued : (Note.writeIssued p.row.key).isMetric = false := rfl
    have hended : (Note.ended p.row.key).isMetric = false := rfl
    have htail := List.map_congr_left fun q hq => congrArg (q.closing cfg) (hlater q hq)
    rw [htail]
    simp only [Frame.note, Frame.taskDone, List.filter_append, List.filter_cons, hclosing,
      hissued, hended, Bool.false_eq_true, if_false, if_true, List.filter_nil, List.append_nil,
      List.append_assoc, List.singleton_append, List.map_cons, htoken, Option.any_some]

end Worker

/-! ## The claim -/

/-- **A batched flush equals the inline flushes of its claims.** For every database and every
    buffer of claims that need no archive copy, with distinct pairs of id and token, stale or
    current, in any order, and through either client: the one statement leaves the tables the
    deletes leave one after another; it returns exactly the pairs whose own delete returns
    `True`, in the sequence or alone; every claim emits its own event if its pair was returned
    and `lease_lost` otherwise, which are the metrics the inline path emits; and every claim
    is counted done once. -/
theorem batched_flush_eq_inline (b : Backend) (cfg : SubscriberConfig) (w : World)
    (hwf : w.store.WF) (f : Frame)
    (hleased : ∀ p ∈ f.buffer, p.row.row.acquiredToken.isSome = true)
    (hplain : ∀ p ∈ f.buffer, Worker.terminalHasDlq cfg p.row = false)
    (hnodup : (flushPairs f.buffer).Nodup) (r : Reading) (next : AfterFlush) :
    let pairs := flushPairs f.buffer
    let singles := pairs.map (World.single cfg.dlqTable)
    let batch := w.step b (.deleteBatchWithLease pairs)
    ∃ deleted, batch.1 = .deletedBatch deleted ∧
      batch.2 = Run.final (World.step b) w singles ∧
      (∀ pair ∈ deleted, pair ∈ pairs) ∧
      (∀ (i : Nat) (pair : Nat × UUID) (e : World.Entry), pairs[i]? = some pair →
        (Run.trace (World.step b) w singles)[i]? = some e →
        (pair ∈ deleted ↔ e.output = .deleted (.ok true)) ∧
        (pair ∈ deleted ↔ (w.step b (World.single cfg.dlqTable pair)).1 = .deleted (.ok true))) ∧
      let flushed := (Worker.flushed cfg f deleted next).1
      let inline := f.buffer.foldl (Worker.inline cfg b r) (w, { f with buffer := [] })
      flushed.notes = f.notes ++ (f.buffer.map fun p => p.closing cfg (p.isIn deleted)) ∧
      flushed.notes.filter Note.isMetric = inline.2.notes.filter Note.isMetric ∧
      flushed.shared = Shared.taskDone^[f.buffer.length] f.shared ∧
      inline.2.shared = flushed.shared ∧ inline.1 = batch.2 := by
  intro pairs singles batch
  have hbatch : batch = _ := World.step_batch hwf b pairs
  have hdeleted : ∀ pair, pair ∈ (OutboxClient.deleteBatchWithLease w.store pairs).1 ↔
      pair ∈ pairs ∧ w.store.Holds pair.1 pair.2 := fun pair =>
    (OutboxClient.deleteBatchWithLease_spec hwf pair.1 pairs).1 pair.2
  have hfinal : batch.2 = Run.final (World.step b) w singles := by
    rw [hbatch]
    exact (World.final_singles hwf b cfg.dlqTable pairs).symm
  have hflushed := Worker.flushed_eq cfg f (OutboxClient.deleteBatchWithLease w.store pairs).1 next
  obtain ⟨hworld, hshared, hmetrics⟩ := Worker.foldl_inline cfg hwf b r
    (f := { f with buffer := [] }) rfl hleased hplain hnodup
  refine ⟨_, by rw [hbatch], hfinal, fun pair hpair => ((hdeleted pair).mp hpair).1, ?_, ?_, ?_,
    ?_, ?_, hworld.trans hfinal.symm⟩
  · intro i pair e hpair he
    have houtput := World.trace_singles hwf b cfg.dlqTable hnodup hpair he
    have halone := congrArg Prod.fst (World.step_single hwf b cfg.dlqTable pair)
    have hmem : pair ∈ pairs := List.mem_of_getElem? hpair
    rw [houtput, halone]
    simp [hdeleted, hmem]
  · rw [hflushed]
  · rw [hflushed, hmetrics, List.filter_append]
    have hall : (f.buffer.map fun p => p.closing cfg
        (p.isIn (OutboxClient.deleteBatchWithLease w.store pairs).1)).filter Note.isMetric =
        f.buffer.map fun p => p.closing cfg
          (p.isIn (OutboxClient.deleteBatchWithLease w.store pairs).1) := by
      rw [List.filter_eq_self]
      intro n hn
      obtain ⟨p, _, rfl⟩ := List.mem_map.mp hn
      unfold PendingFlush.closing
      split <;> rfl
    rw [hall]
    -- a claim of the buffer is returned iff its pair is held
    refine congrArg _ (List.map_congr_left fun p hp => congrArg (p.closing cfg) ?_)
    obtain ⟨token, htoken⟩ := Option.isSome_iff_exists.mp (hleased p hp)
    have hmem : (p.row.row.id, token) ∈ pairs :=
      List.mem_filterMap.mpr ⟨p, hp, by rw [htoken]; rfl⟩
    unfold PendingFlush.isIn
    rw [htoken, Option.any_some, Option.any_some, decide_eq_decide, hdeleted]
    exact and_iff_right hmem
  · rw [hflushed]
  · rw [hflushed]
    exact hshared

/-- A claim of the row with the given id under the token, acked and buffered. -/
def bufferedClaim (id : Nat) (token : UUID) : PendingFlush where
  row := .ofRow
    { id := id, queue := "orders", payload := [], headers := none, createdAt := 0
      nextAttemptAt := 0, acquiredAt := some 1, acquiredToken := some token } 1
  event := .acked
  tags := { queue := "orders", subscriber := "handler" }

/-- A stale and a current claim of row 1, a claim of row 2, and one of a row that is gone. -/
def mixedFrame : Frame where
  shared := { unfinished := 4 }
  buffer := [bufferedClaim 1 6, bufferedClaim 2 8, bufferedClaim 1 7, bufferedClaim 3 7]

/-- Rows 1 and 2, leased under tokens 7 and 8. -/
def mixedWorld : World :=
  { store :=
      { rows := [(bufferedClaim 1 7).row.row, (bufferedClaim 2 8).row.row], nextId := 4 }
    now := 2 }

theorem batched_flush_eq_inline_mixedWorld : ∃ deleted,
    (mixedWorld.step .fake (.deleteBatchWithLease (flushPairs mixedFrame.buffer))).1 =
      .deletedBatch deleted ∧
    deleted = {(1, 7), (2, 8)} ∧
    (Worker.flushed plainConfig mixedFrame deleted .loop).1.shared.unfinished = 0 := by
  have hwf : mixedWorld.store.WF :=
    { nodup_ids := by decide
      ids_lt := by decide
      lease_ck := by decide
      timer_uq := by decide }
  obtain ⟨deleted, hreply, -, -, -, -, -, hshared, -⟩ :=
    batched_flush_eq_inline .fake plainConfig mixedWorld hwf mixedFrame (by decide) (by decide)
      (by decide) {} .loop
  have hrun : (mixedWorld.step .fake (.deleteBatchWithLease (flushPairs mixedFrame.buffer))).1 =
      .deletedBatch (FakeOutboxClient.deleteBatchWithLease mixedWorld.store
        (flushPairs mixedFrame.buffer)).1 := rfl
  have hdeleted := Reply.deletedBatch.inj (hreply.symm.trans hrun)
  exact ⟨deleted, hreply, by rw [hdeleted]; decide, by rw [hshared]; decide⟩

end Outbox
