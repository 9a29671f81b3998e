import Mathlib.Data.Finset.Card
import Outbox.Spec.Claims

/-!
# An overdue row is claimed in its turn

`ORDER BY next_attempt_at, id` serves the oldest due row first. While new rows ask for
no earlier deadline than an overdue row has, nothing overtakes it: a lease set back returns
behind it, an extend only postpones, and the rows ahead of it can each be claimed once
before it, as long as their leases last. Where the deadline is the clock's own reading, a
row set back without a delay comes first again; where leases expire meanwhile, so does a row
whose worker is gone. All this holds whatever else runs: other subscribers, terminal writes,
cancels, fetches that return nothing or skip rows others hold locked.

## Key results

- `exists_firstClaimable`: a fetch that may claim a row claims that one or an earlier one
- `RowStep.waiting`: no operation puts a row ahead
- `serves_waiting`: a fetch that serves the row claims it or one ahead of it
- `claimed_in_turn`: with more such fetches than rows ahead, the row is claimed
-/

namespace Outbox

/-! ## Rows ahead -/

/-- A row that is claimed before `r`, and has not been since the clock read `since`. -/
def Row.Waiting (x r : Row) (since : Int) : Prop :=
  Row.claimLe x r ∧ x.id ≠ r.id ∧ ∀ t, x.acquiredAt = some t → t < since

instance (x r : Row) (since : Int) : Decidable (x.Waiting r since) :=
  decidable_of_iff (Row.claimLe x r ∧ x.id ≠ r.id ∧ x.acquiredAt.all fun t => decide (t < since))
    (by simp [Row.Waiting, Option.all_eq_true])

/-- The ids of the rows ahead of `r`. -/
def Store.ahead (s : Store) (r : Row) (since : Int) : Finset Nat :=
  ((s.rows.filter fun x => decide (x.Waiting r since)).map Row.id).toFinset

theorem Store.mem_ahead_iff {s : Store} (hwf : s.WF) {r : Row} {since : Int} {id : Nat} :
    id ∈ s.ahead r since ↔ ∃ x, s.row? id = some x ∧ x.Waiting r since := by
  simp only [ahead, List.mem_toFinset, List.mem_map, List.mem_filter, decide_eq_true_eq,
    row?_eq_some_iff hwf]
  constructor
  · intro ⟨x, ⟨hx, hwaiting⟩, hid⟩
    exact ⟨x, ⟨hx, hid⟩, hwaiting⟩
  · intro ⟨x, ⟨hx, hid⟩, hwaiting⟩
    exact ⟨x, ⟨hx, hwaiting⟩, hid⟩

/-- An insert of rows that are due no earlier. -/
def Op.DueFrom (due : Int) : Op → Prop
  | .insert at_ args => due ≤ args.deadline at_
  | .insertBatch at_ args =>
    due ≤ (resolveNextAttemptClientSide args.activateIn args.activateAt at_).getD at_
  | _ => True

/-- No operation puts a row ahead of `r`: a new row is due no earlier and has a greater id,
    and a row set back is due after the clock. -/
theorem RowStep.waiting {id nextId : Nat} {now since : Int} {op : Op} {reply : Reply}
    {before : Option Row} {x r : Row}
    (h : RowStep id nextId now op reply before (some x)) (hwaiting : x.Waiting r since)
    (hfresh : r.id < nextId) (hdue : r.nextAttemptAt < now) (hsince : since ≤ now)
    (hop : op.DueFrom r.nextAttemptAt) :
    ∃ y, before = some y ∧ y.Waiting r since := by
  obtain ⟨hle, hne, hold⟩ := hwaiting
  cases h with
  | same _ _ _ => exact ⟨x, rfl, hle, hne, hold⟩
  | inserted hid =>
    -- not earlier than `r`, so it would have to have a smaller id
    simp only [Op.DueFrom] at hop
    simp only [Row.claimLe, freshRow] at hle
    omega
  | insertedBatch hid _ =>
    simp only [Op.DueFrom] at hop
    simp only [Row.claimLe, freshRow] at hle
    omega
  | @extended at_ args y new hmode hfree hqueue htimer hkeyed hnew =>
    refine ⟨y, rfl, ?_, hne, hold⟩
    simp only [Row.claimLe, OutboxClient.extendSet] at hle ⊢
    omega
  | claimed hmem hclaimable =>
    have hnow := hold now rfl
    omega
  | @rescheduled token args y htoken =>
    simp only [Row.claimLe, pendingSet] at hle
    omega

/-! ## The head of the queue -/

/-- A fetch that may claim a row claims that row or one before it. -/
theorem exists_firstClaimable {rows : List Row} {locked : Nat → Bool} {now leaseTtl : Int}
    {limit : Nat} {queues : List String} {r : Row} (hr : r ∈ rows) (hfree : locked r.id = false)
    (hclaimable : Claimable now leaseTtl queues r) (hlimit : 1 ≤ limit) :
    ∃ x ∈ firstClaimable rows locked now leaseTtl limit queues, Row.claimLe x r := by
  have hmem : r ∈ (rows.filter fun r => !locked r.id &&
      decide (Claimable now leaseTtl queues r)).insertionSort Row.claimLe := by
    rw [List.mem_insertionSort, List.mem_filter]
    simp [hr, hfree, hclaimable]
  have hsorted := List.pairwise_insertionSort Row.claimLe
    (rows.filter fun r => !locked r.id && decide (Claimable now leaseTtl queues r))
  simp only [firstClaimable]
  generalize (rows.filter fun r => !locked r.id &&
    decide (Claimable now leaseTtl queues r)).insertionSort Row.claimLe = sorted at hmem hsorted
  induction sorted with
  | nil => simp at hmem
  | cons x xs _ =>
    refine ⟨x, ?_, ?_⟩
    · rw [List.take_cons hlimit]
      exact List.mem_cons_self
    · cases List.mem_cons.mp hmem with
      | inl heq =>
        subst heq
        simp [Row.claimLe]
      | inr hxs => exact List.rel_of_pairwise_cons hsorted hxs

/-- A fetch that serves `r`: `r` is claimable for it and not held locked, and no lease taken
    since has expired for it. -/
def Op.serves (r : Row) (since now : Int) : Op → Bool
  | .fetch _ queues limit leaseTtl locked =>
    decide (Claimable now leaseTtl queues r) && decide (1 ≤ limit) && !locked.contains r.id &&
      decide (now - leaseTtl ≤ since)
  | _ => false

namespace World

variable {w : World} (hwf : w.store.WF) (b : Backend) {op : Op} {r : Row} {since : Int}
include hwf

/-- A fetch that serves `r` claims it or a row ahead of it, which then waits no more. -/
theorem serves_waiting (hrow : w.store.row? r.id = some r) (hsince : since ≤ w.now)
    (hserves : op.serves r since w.now = true) :
    (∃ token, Claims op (w.step b op).1 r.id token) ∨
      ∃ id ∈ w.store.ahead r since, id ∉ (w.step b op).2.store.ahead r since := by
  cases op with
  | fetch token queues limit leaseTtl locked =>
    simp only [Op.serves, Bool.and_eq_true, decide_eq_true_eq, Bool.not_eq_true'] at hserves
    obtain ⟨⟨⟨hclaimable, hlimit⟩, hfree⟩, hlease⟩ := hserves
    have hfetch : ∃ skip : Nat → Bool, skip r.id = false ∧
        (w.step b (.fetch token queues limit leaseTtl locked)).1 =
          .claimed ((firstClaimable w.store.rows skip w.now leaseTtl limit queues).map
            fun r => OutboxClient.claimSet r w.now token) := by
      cases b with
      | postgres =>
        refine ⟨locked.contains, hfree, ?_⟩
        simp only [step, apply, OutboxClient.fetch_eq hwf.nodup_ids]
      | fake =>
        refine ⟨fun _ => false, rfl, ?_⟩
        simp only [step, apply, FakeOutboxClient.fetch_eq hwf.nodup_ids,
          OutboxClient.fetch_eq hwf.nodup_ids]
    obtain ⟨skip, hskip, hreply⟩ := hfetch
    have hr : r ∈ w.store.rows := ((Store.row?_eq_some_iff hwf).mp hrow).1
    obtain ⟨x, hx, hle⟩ := exists_firstClaimable hr hskip hclaimable hlimit
    obtain ⟨hmem, _, hclaim⟩ := firstClaimable_sublist _ _ _ _ _ _ x hx
    have hstamped := List.mem_map_of_mem (f := fun r => OutboxClient.claimSet r w.now token) hx
    by_cases hid : x.id = r.id
    · refine Or.inl ⟨token, ?_⟩
      rw [hreply]
      exact ⟨rfl, List.mem_map.mpr ⟨_, hstamped, hid⟩⟩
    · refine Or.inr ⟨x.id, ?_, ?_⟩
      · -- a lease taken since has not expired
        refine (Store.mem_ahead_iff hwf).mpr ⟨x, hwf.row?_mem hmem, hle, hid, fun t ht => ?_⟩
        have hlease_ck := hwf.lease_ck x hmem
        obtain ⟨_, _, hstate⟩ := hclaim
        simp only [Row.LeaseCk, ht] at hlease_ck
        cases hstate with
        | inl hnone => simp [hnone] at hlease_ck
        | inr hexpired =>
          obtain ⟨t', ht', hlt⟩ := hexpired
          have heq : t = t' := by simpa [ht] using ht'
          omega
      · intro hafter
        have hwf' : (w.step b (.fetch token queues limit leaseTtl locked)).2.store.WF :=
          apply_wf hwf b _
        obtain ⟨y, hy, _, _, hold⟩ := (Store.mem_ahead_iff hwf').mp hafter
        have hstored := returned_stored hwf b hreply hstamped
        have heq : OutboxClient.claimSet x w.now token = y :=
          Option.some.inj (hstored.symm.trans hy)
        have hlt := hold w.now (heq ▸ rfl)
        omega
  | _ => simp [Op.serves] at hserves

/-- No operation adds to the rows ahead of a due row. -/
theorem ahead_subset (hrow : w.store.row? r.id = some r) (hdue : r.nextAttemptAt < w.now)
    (hsince : since ≤ w.now) (hop : op.DueFrom r.nextAttemptAt) :
    (w.step b op).2.store.ahead r since ⊆ w.store.ahead r since := by
  intro id hid
  have hwf' : (w.step b op).2.store.WF := apply_wf hwf b op
  obtain ⟨x, hx, hwaiting⟩ := (Store.mem_ahead_iff hwf').mp hid
  obtain ⟨hr, _⟩ := (Store.row?_eq_some_iff hwf).mp hrow
  have hrowStep := apply_rowStep hwf b op id
  have hafter : (w.apply b op).2.row? id = some x := hx
  rw [hafter] at hrowStep
  exact (Store.mem_ahead_iff hwf).mpr
    (hrowStep.waiting hwaiting (hwf.ids_lt r hr) hdue hsince hop)

omit hwf in
theorem le_clock (w : World) (op : Op) : w.now ≤ w.clock op := by
  unfold clock
  split <;> omega

end World

/-! ## The row's turn -/

/-- What ends a row's wait: a claim, a write under the lease it still has, or, before a claim,
    the caller of its timer. -/
def Row.Ends (r : Row) (e : World.Entry) : Prop :=
  (∃ token, Claims e.input e.output r.id token) ∨
    (∃ token, r.acquiredToken = some token ∧ Landed e.input e.output r.id token) ∨
    (r.acquiredToken = none ∧ ∃ timerId, r.timerId = some timerId ∧
      (e.input = .cancelTimer r.queue timerId ∨ ∃ at_ args, e.input = .insert at_ args ∧
        args.timerConflict = .extend ∧ args.queue = r.queue ∧ args.timerId = some timerId))

/-- An operation leaves a stored row as it is or ends its wait. -/
theorem RowStep.ends {nextId : Nat} {now : Int} {op : Op} {reply : Reply} {r : Row}
    {before after : Option Row} (h : RowStep r.id nextId now op reply before after)
    (hbefore : before = some r) (w w' : World) :
    after = some r ∨ r.Ends { before := w, input := op, output := reply, after := w' } := by
  cases h with
  | same => exact Or.inl hbefore
  | inserted | insertedBatch => simp at hbefore
  | @extended at_ args y new hmode hfree hqueue htimer hkeyed hnew =>
    obtain rfl : y = r := Option.some.inj hbefore
    obtain ⟨timerId, htimerId⟩ := Option.isSome_iff_exists.mp hkeyed
    exact Or.inr (Or.inr (Or.inr ⟨hfree, timerId, htimer.trans htimerId,
      Or.inr ⟨at_, args, rfl, hmode, hqueue.symm, htimerId⟩⟩))
  | @claimed token queues limit leaseTtl locked rows y hmem hclaimable =>
    obtain rfl : y = r := Option.some.inj hbefore
    exact Or.inr (Or.inl ⟨token, rfl, List.mem_map.mpr ⟨_, hmem, rfl⟩⟩)
  | @rescheduled token args y htoken =>
    obtain rfl : y = r := Option.some.inj hbefore
    exact Or.inr (Or.inr (Or.inl ⟨token, htoken, ⟨rfl, rfl⟩, rfl⟩))
  | @deleted dlqTable token payload y htoken =>
    obtain rfl : y = r := Option.some.inj hbefore
    exact Or.inr (Or.inr (Or.inl ⟨token, htoken, ⟨rfl, rfl⟩, rfl⟩))
  | @deletedBatch pairs deleted token y htoken hmem hdeleted =>
    obtain rfl : y = r := Option.some.inj hbefore
    exact Or.inr (Or.inr (Or.inl ⟨token, htoken, (hdeleted token).mpr rfl⟩))
  | @cancelled queue timerId y hkey hfree =>
    obtain rfl : y = r := Option.some.inj hbefore
    simp only [Row.holdsTimer, Bool.and_eq_true, beq_iff_eq] at hkey
    exact Or.inr (Or.inr (Or.inr ⟨hfree, timerId, hkey.2, Or.inl (by rw [hkey.1])⟩))

/-- **An overdue row is claimed in its turn.** Let a row be stored at some point of a run, its
    deadline before the clock's reading there, and let the inserts from there on ask for no
    earlier deadline. With more fetches that serve the row, and for which no lease taken from
    there on has expired, than rows ahead of it, whatever else runs in between, its wait
    ends. -/
theorem claimed_in_turn (b : Backend) (start : Int) (ops window : List Op) {r : Row}
    (hrow : (Run.final (World.step b) (World.init start) ops).store.row? r.id = some r)
    (hdue : r.nextAttemptAt < (Run.final (World.step b) (World.init start) ops).now)
    (hinserts : ∀ op ∈ window, op.DueFrom r.nextAttemptAt)
    (hserved :
      let w := Run.final (World.step b) (World.init start) ops
      (w.store.ahead r w.now).card < (Run.trace (World.step b) w window).countP fun e =>
        e.input.serves r w.now e.before.now) :
    ∃ e ∈ Run.trace (World.step b) (Run.final (World.step b) (World.init start) ops) window,
      e.before.store.row? r.id = some r ∧ r.Ends e := by
  have hwf : (Run.final (World.step b) (World.init start) ops).store.WF :=
    Run.final_invariant (P := fun w : World => w.store.WF)
      (fun w op h => World.apply_wf h b op) (World.init_wf start) ops
  generalize Run.final (World.step b) (World.init start) ops = w at hrow hdue hserved hwf ⊢
  -- until its wait ends the row stands, and its turn comes nearer with each serving fetch
  refine Run.exists_exit (World.step b) (fun w' : World => (w'.store.ahead r w.now).card)
    (P := fun w' => w'.store.WF ∧ w.now ≤ w'.now ∧ w'.store.row? r.id = some r)
    ⟨hwf, Int.le_refl _, hrow⟩ window ?_ hserved
  intro e he hstep ⟨hwf', hnow, hrow'⟩
  obtain ⟨w', op, reply, w''⟩ := e
  simp only at hstep hwf' hnow hrow' ⊢
  obtain ⟨k, hk⟩ := List.mem_iff_getElem?.mp he
  have hop := hinserts op (List.mem_of_getElem? (Run.trace_getElem? hk).1)
  have hrowStep := World.apply_rowStep hwf' b op r.id
  obtain ⟨rfl, rfl⟩ : (World.step b w' op).1 = reply ∧ (World.step b w' op).2 = w'' := by
    simp [hstep]
  cases hrowStep.ends hrow' w' (World.step b w' op).2 with
  | inr hends => exact Or.inl ⟨hrow', hends⟩
  | inl hstands =>
    have hafter : (World.step b w' op).2.store.WF ∧ w.now ≤ (World.step b w' op).2.now ∧
        (World.step b w' op).2.store.row? r.id = some r :=
      ⟨World.apply_wf hwf' b op, Int.le_trans hnow (World.le_clock w' op), hstands⟩
    have hsubset := World.ahead_subset hwf' b hrow' (by omega) hnow hop
    by_cases hserves : op.serves r w.now w'.now = true
    · cases World.serves_waiting hwf' b hrow' hnow hserves with
      | inl hclaims => exact Or.inl ⟨hrow', Or.inl hclaims⟩
      | inr hfewer =>
        obtain ⟨id, hbefore, hgone⟩ := hfewer
        have hlt := Finset.card_lt_card (Finset.ssubset_iff_subset_ne.mpr
          ⟨hsubset, fun heq => hgone (heq ▸ hbefore)⟩)
        refine Or.inr ⟨hafter, ?_⟩
        simp only [hserves, if_true]
        omega
    · refine Or.inr ⟨hafter, ?_⟩
      simp only [hserves, if_false, Bool.false_eq_true]
      exact Finset.card_le_card hsubset

/-- Two rows, due once the clock has moved. -/
def queuedOps : List Op :=
  [.insert 0 { queue := "orders", payload := [1] },
   .insert 0 { queue := "orders", payload := [2] },
   .tick 10]

/-- The older row is claimed and set back at once, and a third row comes. -/
def overtakingOps : List Op :=
  [.fetch 7 ["orders"] 1 30 [],
   .insert 10 { queue := "orders", payload := [3] },
   .markPendingWithLease 1 7
     { delaySeconds := 0, attemptsCount := 1, firstAttemptAt := some 10, lastAttemptAt := some 10 },
   .fetch 8 ["orders"] 1 30 []]

theorem claimed_in_turn_overtakingRun :
    let w := Run.final (World.step .postgres) (World.init 0) queuedOps
    ∃ r, w.store.row? r.id = some r ∧ w.store.ahead r w.now = {1} ∧
      ∃ e ∈ Run.trace (World.step .postgres) w overtakingOps,
        e.before.store.row? r.id = some r ∧ r.Ends e := by
  intro w
  have hrow : w.store.row? 2 = some (freshRow 2 "orders" [2] none none 0 0) := rfl
  have hahead : w.store.ahead (freshRow 2 "orders" [2] none none 0 0) w.now = {1} := by decide
  refine ⟨_, hrow, hahead, claimed_in_turn .postgres 0 queuedOps overtakingOps hrow ?_ ?_ ?_⟩
  · decide
  · intro op hop
    simp only [overtakingOps, List.mem_cons, List.not_mem_nil, or_false] at hop
    obtain rfl | rfl | rfl | rfl := hop <;> simp [Op.DueFrom, InsertArgs.deadline,
      resolveNextAttemptClientSide, freshRow]
  · decide

end Outbox
