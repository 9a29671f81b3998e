import Outbox.ForStd.Run
import Outbox.Native.Transactions
import Outbox.Spec.FetchCorrect
import Outbox.Spec.WorldStep

/-!
# Claims in open transactions are atomic

The rows a claim has locked are skipped by the other claims and waited for by every other
statement. So it makes no difference whether the leases it sets are seen at once or when its
transaction commits: the database with the leases of its open claims filled in is one that
ran each statement at one point, and the claims that are rolled back not at all.

## Key results

- `Database.statement_view`: a statement does not see the open claims
- `Database.claim_view`: a claim is one that steps over what the others have locked
- `Database.serial`: the atomic operations of a run, in the order of their statements
- `claims_in_flight_refine`: a run of transactions is the run of these
-/

namespace Outbox

open List
open OutboxClient (claimSet leased wanted conflicts excluded)

namespace Database

/-! ## The view -/

/-- The claim that is to put the row under its token. -/
def claimOf (d : Database) (id : Nat) : Option OpenClaim :=
  d.openClaims.find? fun c => c.commits && c.claimed.contains id

/-- The row as the open claims will leave it. -/
def seen (d : Database) (r : Row) : Row :=
  match d.claimOf r.id with
  | some c => claimSet r c.now c.token
  | none => r

/-- The database once the open claims that are to commit have committed. -/
def view (d : Database) : World :=
  { d.world with store := { d.world.store with rows := d.world.store.rows.map d.seen } }

variable {d : Database}

theorem seen_of_claimOf {r : Row} {c : OpenClaim} (hc : d.claimOf r.id = some c) :
    d.seen r = claimSet r c.now c.token := by
  simp only [seen, hc]

theorem seen_congr {d' : Database} {r : Row} (hsame : d'.claimOf r.id = d.claimOf r.id) :
    d'.seen r = d.seen r := by
  simp only [seen, hsame]

/-- One more open claim. -/
theorem claimOf_append (c : OpenClaim) (id : Nat) :
    claimOf { d with openClaims := d.openClaims ++ [c] } id =
      (d.claimOf id).or (if c.commits && c.claimed.contains id then some c else none) := by
  simp [claimOf, find?_append]

@[simp] theorem seen_id (r : Row) : (d.seen r).id = r.id := by
  unfold seen
  split <;> rfl

@[simp] theorem seen_queue (r : Row) : (d.seen r).queue = r.queue := by
  unfold seen
  split <;> rfl

@[simp] theorem seen_timerId (r : Row) : (d.seen r).timerId = r.timerId := by
  unfold seen
  split <;> rfl

/-- What is in open claims does not depend on what is committed. -/
@[simp] theorem seen_world (w : World) : seen { d with world := w } = d.seen := rfl

theorem view_of_closed (h : d.openClaims = []) : d.view = d.world := by
  have hseen : d.seen = id := by
    funext r
    simp [seen, claimOf, h]
  simp [view, hseen]

/-! ## The invariant -/

/-- A claim locks the rows it claims, no two lock one row, and a locked row has been
    inserted. -/
structure Inv (d : Database) : Prop where
  wf : d.world.store.WF
  locks : ∀ c ∈ d.openClaims, ∀ id ∈ c.claimed, id ∈ c.locks
  disjoint : d.openClaims.Pairwise fun c c' => ∀ id ∈ c.locks, id ∉ c'.locks
  drawn : ∀ id ∈ d.locked, id < d.world.store.nextId

theorem mem_locked {id : Nat} : id ∈ d.locked ↔ ∃ c ∈ d.openClaims, id ∈ c.locks :=
  mem_flatMap

/-- Nobody claims a row that is not locked. -/
theorem Inv.claimOf_eq_none (h : d.Inv) {id : Nat} (hfree : id ∉ d.locked) :
    d.claimOf id = none := by
  refine find?_eq_none.mpr fun c hc hclaims => hfree (mem_locked.mpr ⟨c, hc, ?_⟩)
  rw [Bool.and_eq_true, contains_iff_mem] at hclaims
  exact h.locks c hc id hclaims.2

theorem Inv.seen_eq (h : d.Inv) {r : Row} (hfree : r.id ∉ d.locked) : d.seen r = r := by
  simp [seen, h.claimOf_eq_none hfree]

/-! ## Other statements -/

@[simp] theorem writes_seen (op : Op) (r : Row) : writes op (d.seen r) = writes op r := by
  cases op <;> simp [writes, Row.holdsTimer]

/-- A row that is inserted now is in no open claim. -/
theorem Inv.seen_new (h : d.Inv) {r : Row} (hid : d.world.store.nextId ≤ r.id) :
    d.seen r = r := by
  refine h.seen_eq fun hlocked => ?_
  have hlt := h.drawn r.id hlocked
  omega

section Statements

variable (h : d.Inv) {op : Op}
  (hfree : ∀ r ∈ d.world.store.rows, writes op r = true → r.id ∉ d.locked)
include h hfree

/-- The open claims are about no row that a statement picks. -/
theorem fixed_of_writes {p : Row → Bool} (hwrites : ∀ r, p r = true → writes op r = true) :
    ∀ r ∈ d.world.store.rows, p r = true ∨ p (d.seen r) = true → d.seen r = r := by
  intro r hr hpick
  refine h.seen_eq (hfree r hr ?_)
  cases hpick with
  | inl hbefore => exact hwrites r hbefore
  | inr hafter =>
    have hseen := hwrites _ hafter
    rwa [writes_seen] at hseen

theorem insert_view {now : Int} {args : InsertArgs} (heq : op = .insert now args) :
    d.view.step .postgres op = ((d.world.step .postgres op).1,
      { d with world := (d.world.step .postgres op).2 }.view) := by
  subst heq
  set new := excluded d.world.store now args with hnew
  have hsame : (conflicts new) ∘ d.seen = conflicts new := by
    funext r
    simp [conflicts]
  have hfind : (d.world.store.rows.map d.seen).find? (conflicts new) =
      (d.world.store.rows.find? (conflicts new)).map d.seen := by
    rw [find?_map, hsame]
  simp only [World.step, World.apply, OutboxClient.insert, view, World.clock]
  split
  · rfl
  · have hexcluded : excluded { d.world.store with rows := d.world.store.rows.map d.seen } now
        args = new := rfl
    simp only [hexcluded, hfind, ← hnew]
    cases hrow : d.world.store.rows.find? (conflicts new) with
    | none =>
      have hid : d.seen new = new := h.seen_new (Nat.le_refl _)
      simp [hid]
    | some t =>
      cases hmode : args.timerConflict with
      | ignore => rfl
      | extend =>
        have hwrites : ∀ r, conflicts new r = true → writes (.insert now args) r = true := by
          intro r hp
          simp only [conflicts, Bool.and_eq_true] at hp
          simp only [writes, hmode, Bool.and_eq_true]
          exact ⟨⟨⟨rfl, hp.1.1⟩, hp.1.2⟩, hp.2⟩
        have hfixed := fixed_of_writes h hfree hwrites
        have ht : d.seen t = t :=
          hfixed t (mem_of_find?_eq_some hrow) (.inl (find?_some hrow))
        simp only [Option.map_some, ht]
        split
        · rw [map_ite_map_fixed hfixed]
          · rfl
          · intro r hr hp
            -- the row keeps its id
            exact h.seen_eq (hfree r hr (hwrites r hp))
        · rfl

/-- **A statement that does not have to wait does not see the open claims.** -/
theorem statement_view (hop : isStatement op = true) :
    d.view.step .postgres op = ((d.world.step .postgres op).1,
      { d with world := (d.world.step .postgres op).2 }.view) := by
  cases op with
  | tick elapsed => rfl
  | fetch token queues limit leaseTtl locked => cases hop
  | fetchUnprocessed queue limit => cases hop
  | insert now args => exact insert_view h hfree rfl
  | insertBatch now args =>
    simp only [World.step, World.apply, OutboxClient.insertBatch, view, World.clock]
    split
    · rfl
    · refine Prod.ext rfl ?_
      simp only [seen_world, map_append, map_map]
      congr 3
      refine map_congr_left fun row _ => ?_
      exact (h.seen_new (Nat.le_add_right _ _)).symm
  | deleteWithLease dlqTable messageId token payload =>
    have hfixed := fixed_of_writes h hfree (p := leased messageId token) fun r hp => by
      simp only [leased, Bool.and_eq_true] at hp
      exact hp.1
    have hdeleted := filter_map_fixed hfixed
    have hkept := filter_not_map_fixed hfixed
    simp only [World.step, World.apply, OutboxClient.deleteWithLease, view, World.clock,
      hdeleted, hkept]
    cases payload with
    | none => rfl
    | some payload =>
      obtain ⟨reason, exc⟩ := payload
      cases dlqTable <;> cases reason <;> cases exc <;> rfl
  | deleteBatchWithLease pairs =>
    have hfixed := fixed_of_writes h hfree (p := wanted pairs) fun r hp => by
      simp only [wanted, any_eq_true, Bool.and_eq_true] at hp
      obtain ⟨pair, hpair, hid, _⟩ := hp
      exact any_eq_true.mpr ⟨pair, hpair, hid⟩
    have hdeleted := filter_map_fixed hfixed
    have hkept := filter_not_map_fixed hfixed
    simp only [World.step, World.apply, OutboxClient.deleteBatchWithLease, view, World.clock,
      hdeleted, hkept]
    cases pairs <;> rfl
  | markPendingWithLease messageId token args =>
    have hfixed := fixed_of_writes h hfree (p := leased messageId token) fun r hp => by
      simp only [leased, Bool.and_eq_true] at hp
      exact hp.1
    have hpicked := filter_map_fixed hfixed
    simp only [World.step, World.apply, OutboxClient.markPendingWithLease, view, World.clock,
      hpicked]
    rw [map_ite_map_fixed hfixed]
    · rfl
    · intro r hr hp
      exact h.seen_eq (hfree r hr (by simp only [leased, Bool.and_eq_true] at hp; exact hp.1))
  | cancelTimer queue timerId =>
    have hfixed := fixed_of_writes h hfree (p := fun r => r.queue == queue &&
        r.timerId == some timerId && r.acquiredToken.isNone) fun r hp => by
      simp only [Bool.and_eq_true] at hp
      simp [writes, Row.holdsTimer, hp.1]
    have hdeleted := filter_map_fixed hfixed
    have hkept := filter_not_map_fixed hfixed
    simp only [World.step, World.apply, OutboxClient.cancelTimer, view, World.clock, hdeleted,
      hkept]
    rfl

end Statements

/-! ## Claims -/

theorem mem_branch {rows : List Row} {locked : Nat → Bool} {now : Int} {limit : Nat}
    {queues : List String} {leaseState : Row → Bool} {r : Row}
    (hr : r ∈ OutboxClient.branch rows locked now limit queues leaseState) :
    r ∈ rows ∧ locked r.id = false := by
  obtain ⟨name, _, hr⟩ := mem_flatMap.mp hr
  have hr := mem_filter.mp (mem_of_mem_take hr)
  exact ⟨mem_of_mem_filter ((mem_insertionSort _).mp hr.1), by simpa using hr.2⟩

/-- A claim locks rows that are there and that nobody has locked. -/
theorem mem_locks {rows : List Row} {locked : Nat → Bool} {now leaseTtl : Int} {limit : Nat}
    {queues : List String} {id : Nat}
    (hid : id ∈ OutboxClient.locks rows locked now leaseTtl limit queues) :
    locked id = false ∧ ∃ r ∈ rows, r.id = id := by
  obtain ⟨r, hr, rfl⟩ := mem_map.mp hid
  have hr : r ∈ rows ∧ locked r.id = false :=
    (mem_append.mp hr).elim mem_branch mem_branch
  exact ⟨hr.2, r, hr.1, rfl⟩

/-- What a claim puts under its token, it has locked. -/
theorem mem_locks_of_ready {rows : List Row} {locked : Nat → Bool} {now leaseTtl : Int}
    {limit : Nat} {queues : List String} {id : Nat}
    (hid : id ∈ OutboxClient.ready rows locked now leaseTtl limit queues) :
    id ∈ OutboxClient.locks rows locked now leaseTtl limit queues := by
  obtain ⟨r, hr, rfl⟩ := mem_map.mp hid
  exact mem_map_of_mem (mem_of_mem_topN hr)

section Claim

variable (h : d.Inv) (token : UUID) (queues : List String) (limit : Nat) (leaseTtl : Int)
include h

/-- The rows a claim picks. -/
def picked (d : Database) (queues : List String) (limit : Nat) (leaseTtl : Int) : List Row :=
  firstClaimable d.world.store.rows d.locked.contains d.world.now leaseTtl limit queues

omit h in
theorem mem_picked {r : Row} (hr : r ∈ d.picked queues limit leaseTtl) :
    r ∈ d.world.store.rows ∧ r.id ∉ d.locked := by
  obtain ⟨hmem, hfree, _⟩ := firstClaimable_sublist _ _ _ _ _ _ r hr
  exact ⟨hmem, by simpa using hfree⟩

/-- It picks the same rows of the view, where it steps over the rows that are locked. -/
theorem picked_view :
    firstClaimable d.view.store.rows d.locked.contains d.world.now leaseTtl limit queues =
      d.picked queues limit leaseTtl := by
  unfold picked firstClaimable
  have hfixed : ∀ r ∈ d.world.store.rows,
      (!d.locked.contains r.id && decide (Claimable d.world.now leaseTtl queues r)) = true ∨
      (!d.locked.contains (d.seen r).id &&
        decide (Claimable d.world.now leaseTtl queues (d.seen r))) = true → d.seen r = r := by
    intro r _ hpick
    refine h.seen_eq ?_
    simp only [seen_id, Bool.and_eq_true] at hpick
    cases hpick with
    | inl hbefore => simpa using hbefore.1
    | inr hafter => simpa using hafter.1
  congr 2
  exact filter_map_fixed hfixed

theorem view_nodup : (d.view.store.rows.map Row.id).Nodup := by
  have hids : d.view.store.rows.map Row.id = d.world.store.rows.map Row.id := by
    simp [view, Function.comp_def]
  rw [hids]
  exact h.wf.nodup_ids

/-- The claim, with the rows it picked. -/
def claimed (d : Database) (token : UUID) (queues : List String) (limit : Nat) (leaseTtl : Int)
    (commits : Bool) : OpenClaim :=
  { now := d.world.now
    token := token
    claimed := (d.picked queues limit leaseTtl).map Row.id
    locks := OutboxClient.locks d.world.store.rows d.locked.contains d.world.now leaseTtl limit
      queues
    commits := commits }

/-- A claim step, by the rows it picks. -/
theorem step_claim (commits : Bool) : d.step (.claim token queues limit leaseTtl commits) =
    some (if commits then
        some (.claimed ((d.picked queues limit leaseTtl).map fun r =>
          claimSet r d.world.now token))
      else none,
      { d with openClaims := d.openClaims ++ [d.claimed token queues limit leaseTtl commits] }) := by
  have hfetch := OutboxClient.fetch_eq h.wf.nodup_ids d.locked.contains d.world.now token queues
    limit leaseTtl
  simp only [step, hfetch, claimed, picked, map_map]
  rfl

/-- **A claim that is to commit is one that steps over what the others have locked.** -/
theorem claim_view :
    d.view.step .postgres (.fetch token queues limit leaseTtl d.locked) =
      (.claimed ((d.picked queues limit leaseTtl).map fun r => claimSet r d.world.now token),
        { d with
          openClaims := d.openClaims ++ [d.claimed token queues limit leaseTtl true] }.view) := by
  have hfetch := OutboxClient.fetch_eq (view_nodup h) d.locked.contains d.world.now token queues
    limit leaseTtl
  have hpicked := picked_view h queues limit leaseTtl
  rw [hpicked] at hfetch
  have hstep : d.view.step .postgres (.fetch token queues limit leaseTtl d.locked) =
      (.claimed (OutboxClient.fetch d.view.store d.world.now token queues limit leaseTtl
          d.locked.contains).1,
        { store := (OutboxClient.fetch d.view.store d.world.now token queues limit leaseTtl
            d.locked.contains).2
          now := d.world.now }) := rfl
  rw [hstep, hfetch]
  refine Prod.ext rfl ?_
  simp only [view, map_map]
  congr 2
  refine map_congr_left fun r hr => ?_
  show (if d.seen r ∈ d.picked queues limit leaseTtl then claimSet (d.seen r) d.world.now token
    else d.seen r) = _
  by_cases hmem : d.seen r ∈ d.picked queues limit leaseTtl
  · -- it is not locked, so nobody else is about to claim it
    have hfree : r.id ∉ d.locked := by simpa using (mem_picked queues limit leaseTtl hmem).2
    have hseen := h.seen_eq hfree
    rw [hseen] at hmem ⊢
    rw [if_pos hmem]
    have hclaims : claimOf { d with
        openClaims := d.openClaims ++ [d.claimed token queues limit leaseTtl true] } r.id =
          some (d.claimed token queues limit leaseTtl true) := by
      rw [claimOf_append, h.claimOf_eq_none hfree, Option.none_or, if_pos]
      simpa [claimed] using ⟨r, hmem, rfl⟩
    exact (seen_of_claimOf hclaims).symm
  · rw [if_neg hmem]
    refine (seen_congr ?_).symm
    rw [claimOf_append, if_neg, Option.or_none]
    intro hclaims
    obtain ⟨r', hr', hsame⟩ : ∃ r' ∈ d.picked queues limit leaseTtl, r'.id = r.id := by
      simpa [claimed] using hclaims
    obtain ⟨hr', hfree⟩ := mem_picked queues limit leaseTtl hr'
    obtain rfl := inj_on_of_nodup_map h.wf.nodup_ids hr' hr hsame
    exact hmem (by rwa [h.seen_eq hfree])

omit h in
/-- A claim that is to be rolled back is not seen. -/
theorem rolledBack_view : view { d with
    openClaims := d.openClaims ++ [d.claimed token queues limit leaseTtl false] } = d.view := by
  have hseen : seen { d with
      openClaims := d.openClaims ++ [d.claimed token queues limit leaseTtl false] } = d.seen := by
    funext r
    refine seen_congr ?_
    rw [claimOf_append]
    simp [claimed]
  simp [view, hseen]

theorem claim_inv (commits : Bool) : Inv { d with
    openClaims := d.openClaims ++ [d.claimed token queues limit leaseTtl commits] } where
  wf := h.wf
  locks c hc id hid := by
    rw [mem_append, mem_singleton] at hc
    obtain hold | rfl := hc
    · exact h.locks c hold id hid
    · have hready := ready_eq h.wf.nodup_ids d.locked.contains d.world.now leaseTtl limit queues
      exact mem_locks_of_ready (hready ▸ hid)
  disjoint := by
    refine pairwise_append.mpr ⟨h.disjoint, pairwise_singleton _ _, ?_⟩
    intro c hc c' hc' id hid hid'
    rw [mem_singleton.mp hc'] at hid'
    have hfree := (mem_locks hid').1
    simp only [contains_eq_mem, decide_eq_false_iff_not] at hfree
    exact hfree (mem_locked.mpr ⟨c, hc, hid⟩)
  drawn id hid := by
    obtain ⟨c, hc, hid⟩ := mem_locked.mp hid
    rw [mem_append, mem_singleton] at hc
    obtain hold | rfl := hc
    · exact h.drawn id (mem_locked.mpr ⟨c, hold, hid⟩)
    · obtain ⟨_, r, hr, rfl⟩ := mem_locks hid
      exact h.wf.ids_lt r hr

end Claim

/-! ## The end of a transaction -/

/-- The database after the transaction of a claim has ended. -/
def close (d : Database) (index : Nat) (c : OpenClaim) : Database :=
  { world := { d.world with store := { d.world.store with
      rows := d.world.store.rows.map fun r =>
        if c.commits && c.claimed.contains r.id then claimSet r c.now c.token else r } }
    openClaims := d.openClaims.eraseIdx index }

section Ended

variable (h : d.Inv) {index : Nat} {c : OpenClaim} (hc : d.openClaims[index]? = some c)
include h hc

/-- What an open claim has locked, no other has. -/
theorem unlocked_of_ne {j : Nat} {c' : OpenClaim} (hc' : d.openClaims[j]? = some c')
    (hne : j ≠ index) {id : Nat} (hid : id ∈ c.locks) : id ∉ c'.locks := by
  obtain ⟨hi, rfl⟩ := List.getElem?_eq_some_iff.mp hc
  obtain ⟨hj, rfl⟩ := List.getElem?_eq_some_iff.mp hc'
  have hpairs := pairwise_iff_getElem.mp h.disjoint
  cases Nat.lt_or_gt_of_ne hne with
  | inl hlt => exact fun hid' => hpairs j index hj hi hlt id hid' hid
  | inr hgt => exact hpairs index j hi hj hgt id hid

/-- What an open claim is to put under its token, no other is. -/
theorem claimOf_eq_some {id : Nat} (hclaims : (c.commits && c.claimed.contains id) = true) :
    d.claimOf id = some c ∧ (d.close index c).claimOf id = none := by
  have hmem : id ∈ c.locks := by
    rw [Bool.and_eq_true, contains_iff_mem] at hclaims
    exact h.locks c (mem_of_getElem? hc) id hclaims.2
  have hothers : ∀ (j : Nat) (c' : OpenClaim), d.openClaims[j]? = some c' → j ≠ index →
      (c'.commits && c'.claimed.contains id) ≠ true := by
    intro j c' hc' hne hclaims'
    rw [Bool.and_eq_true, contains_iff_mem] at hclaims'
    exact unlocked_of_ne h hc hc' hne hmem (h.locks c' (mem_of_getElem? hc') id hclaims'.2)
  constructor
  · cases hfind : d.claimOf id with
    | none => exact absurd hclaims (find?_eq_none.mp hfind c (mem_of_getElem? hc))
    | some c' =>
      obtain ⟨j, hj⟩ := mem_iff_getElem?.mp (mem_of_find?_eq_some hfind)
      by_cases hne : j = index
      · subst hne
        exact hj.symm.trans hc
      · exact absurd (find?_some hfind) (hothers j c' hj hne)
  · refine find?_eq_none.mpr fun c' hc' => ?_
    obtain ⟨j, hne, hj⟩ := mem_eraseIdx_iff_getElem?.mp hc'
    exact hothers j c' hj hne

/-- **The leases of a claim are seen the same before its commit and after it.** -/
theorem close_view : (d.close index c).view = d.view := by
  have hrows : ∀ r, (d.close index c).seen
      (if c.commits && c.claimed.contains r.id then claimSet r c.now c.token else r) =
        d.seen r := by
    intro r
    cases hclaims : c.commits && c.claimed.contains r.id with
    | true =>
      obtain ⟨hbefore, hafter⟩ := claimOf_eq_some h hc hclaims
      rw [seen_of_claimOf hbefore, if_pos rfl]
      simp [seen, claimSet, hafter]
    | false =>
      rw [if_neg (by simp)]
      exact seen_congr (find?_eraseIdx_of_neg hc hclaims)
  have hmap : (d.close index c).view.store.rows = d.view.store.rows := by
    simp only [view, close, map_map]
    exact map_congr_left fun r _ => hrows r
  exact congrArg (fun rows => { d.world with store := { d.world.store with rows := rows } }) hmap

omit hc in
theorem close_inv : (d.close index c).Inv where
  wf := h.wf.map (fun r => by split <;> rfl) (fun r => by split <;> rfl)
    (fun r => by split <;> rfl)
    (fun r hr => by
      split
      · simp [Row.LeaseCk, claimSet]
      · exact hr)
    (Nat.le_refl _)
  locks c' hc' := h.locks c' (mem_of_mem_eraseIdx hc')
  disjoint := h.disjoint.sublist (eraseIdx_sublist _ _)
  drawn id hid := by
    obtain ⟨c', hc', hid⟩ := mem_locked.mp hid
    exact h.drawn id (mem_locked.mpr ⟨c', mem_of_mem_eraseIdx hc', hid⟩)

end Ended

/-! ## Runs -/

/-- The atomic operation an act is: a claim that is rolled back is none, and the others have
    their place where their statement runs, not where they commit. -/
def Act.op (locked : List Nat) : Act → Option Op
  | .claim token queues limit leaseTtl commits =>
    if commits then some (.fetch token queues limit leaseTtl locked) else none
  | .ended _ => none
  | .statement op => some op

/-- The atomic operations of a run, in the order of their statements; an act that has to
    wait is none. -/
def serial (d : Database) : List Act → List Op
  | [] => []
  | act :: acts =>
    match d.step act with
    | none => d.serial acts
    | some (_, d') => (act.op d.locked).toList ++ d'.serial acts

/-- A step as it is seen, with the operation it amounts to, if any. -/
def Refines (d d' : Database) (reply : Option Reply) : Option Op → Prop
  | none => reply = none ∧ d'.view = d.view
  | some op => ∃ out, reply = some out ∧ d.view.step .postgres op = (out, d'.view)

/-- What a step is to someone who only sees the view: its operation, or nothing. -/
theorem step_refines (h : d.Inv) {act : Act} {reply : Option Reply} {d' : Database}
    (hstep : d.step act = some (reply, d')) :
    d'.Inv ∧ Refines d d' reply (act.op d.locked) := by
  cases act with
  | claim token queues limit leaseTtl commits =>
    rw [step_claim h] at hstep
    obtain ⟨rfl, rfl⟩ := Prod.mk.inj (Option.some_inj.mp hstep)
    refine ⟨claim_inv h token queues limit leaseTtl commits, ?_⟩
    cases commits with
    | true => exact ⟨_, rfl, claim_view h token queues limit leaseTtl⟩
    | false => exact ⟨rfl, rolledBack_view token queues limit leaseTtl⟩
  | ended index =>
    obtain ⟨c, hc, heq⟩ := Option.map_eq_some_iff.mp hstep
    obtain ⟨rfl, rfl⟩ := Prod.mk.inj heq
    exact ⟨close_inv h (c := c), rfl, close_view h hc⟩
  | statement op =>
    simp only [step] at hstep
    split at hstep
    · rename_i hok
      obtain ⟨rfl, rfl⟩ := Prod.mk.inj (Option.some_inj.mp hstep)
      simp only [Bool.and_eq_true, Bool.not_eq_true', any_eq_false] at hok
      obtain ⟨hop, hwaits⟩ := hok
      have hfree : ∀ r ∈ d.world.store.rows, writes op r = true → r.id ∉ d.locked :=
        fun r hr hwrites hlocked => hwaits r hr (by simp [hwrites, hlocked])
      refine ⟨⟨World.apply_wf h.wf .postgres op, h.locks, h.disjoint, fun id hid => ?_⟩,
        _, rfl, statement_view h hfree hop⟩
      exact Nat.lt_of_lt_of_le (h.drawn id hid) (World.apply_nextId_le h.wf .postgres op)
    · cases hstep

/-- **The transactions of a run refine its atomic operations.** -/
theorem run_refines (h : d.Inv) (acts : List Act) :
    (Run.trace (World.step .postgres) d.view (d.serial acts)).map Run.Entry.output =
        (d.run acts).1 ∧
      Run.final (World.step .postgres) d.view (d.serial acts) = (d.run acts).2.view := by
  induction acts generalizing d with
  | nil => exact ⟨rfl, rfl⟩
  | cons act acts ih =>
    unfold run serial
    cases hstep : d.step act with
    | none => exact ih h
    | some next =>
      obtain ⟨reply, d'⟩ := next
      obtain ⟨hinv, hrefines⟩ := step_refines h hstep
      obtain ⟨hreplies, hfinal⟩ := ih hinv
      cases hop : act.op d.locked with
      | none =>
        rw [hop] at hrefines
        obtain ⟨rfl, hview⟩ := hrefines
        rw [hview] at hreplies hfinal
        exact ⟨hreplies, hfinal⟩
      | some op =>
        rw [hop] at hrefines
        obtain ⟨out, rfl, hview⟩ := hrefines
        constructor
        · simp [Run.trace, hview, hreplies]
        · simp [hview, hfinal]

end Database

/-- **Claims in open transactions are atomic.** Take any run of claims whose transactions stay
    open for any time and are committed or rolled back in any order, with any other statements
    and the clock in between, where a claim steps over the rows that others have locked and
    every other statement that would write a locked row waits. The atomic operations of the
    run, in the order in which their statements ran and without the claims that are rolled
    back, have the same replies, and leave the tables and the clock as they are once the open
    claims have committed: and so as they are, when none is open. -/
theorem claims_in_flight_refine (start : Int) (acts : List Database.Act) :
    let d : Database := { world := World.init start }
    (World.trace .postgres start (d.serial acts)).map Run.Entry.output = (d.run acts).1 ∧
      Run.final (World.step .postgres) (World.init start) (d.serial acts) =
        (d.run acts).2.view ∧
      ((d.run acts).2.openClaims = [] →
        Run.final (World.step .postgres) (World.init start) (d.serial acts) =
          (d.run acts).2.world) := by
  intro d
  have hinv : d.Inv := by
    refine ⟨Store.WF.empty, fun c hc => (nomatch hc), .nil, fun id hid => ?_⟩
    cases hid
  obtain ⟨hreplies, hfinal⟩ := Database.run_refines hinv acts
  refine ⟨hreplies, hfinal, fun hclosed => ?_⟩
  rw [← Database.view_of_closed hclosed]
  exact hfinal

end Outbox
