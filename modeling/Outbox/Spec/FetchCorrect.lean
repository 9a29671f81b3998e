import Outbox.Spec.StoreWf

/-!
# The claim statement

`OutboxClient.fetch` takes each distinct queue through two `LATERAL` branches, unleased
rows and expired leases, each cut to `limit` unlocked rows, and cuts their union to
`limit` again. This file proves that it claims the same rows as one filter and one sort
over the whole table, and that `FakeOutboxClient.fetch`, which does just that, agrees.

## Key results

- `ready_eq`: the three nested limits select the first `limit` claimable rows
- `fetch_eq_filtered_sort`: the claim statement is the plain filtered sort
- `FakeOutboxClient.fetch_eq`: the fake claims the same rows with the same effect
-/

namespace Outbox

/-- A row a fetch may claim: due, on a queue of the list, and unleased or with a lease
    older than the TTL. -/
def Claimable (now leaseTtl : Int) (queues : List String) (r : Row) : Prop :=
  r.queue ∈ queues ∧ r.nextAttemptAt ≤ now ∧
    (r.acquiredToken = none ∨ ∃ t, r.acquiredAt = some t ∧ t < now - leaseTtl)

instance (now leaseTtl : Int) (queues : List String) (r : Row) :
    Decidable (Claimable now leaseTtl queues r) :=
  decidable_of_iff (r.queue ∈ queues ∧ r.nextAttemptAt ≤ now ∧
      (r.acquiredToken = none ∨ r.acquiredAt.any (fun t => decide (t < now - leaseTtl)) = true))
    (by simp [Claimable, Option.any_eq_true])

/-- The first `limit` claimable rows that no other transaction holds locked. -/
def firstClaimable (rows : List Row) (locked : Nat → Bool) (now leaseTtl : Int) (limit : Nat)
    (queues : List String) : List Row :=
  ((rows.filter fun r => !locked r.id && decide (Claimable now leaseTtl queues r)).insertionSort
    Row.claimLe).take limit

/-! ## The three nested limits -/

/-- The rows of one branch for one queue, before its limit. -/
private def part (locked : Nat → Bool) (now : Int) (leaseState : Row → Bool) (name : String)
    (r : Row) : Bool :=
  !locked r.id && (r.queue == name && decide (r.nextAttemptAt ≤ now) && leaseState r)

/-- `SKIP LOCKED` under the limit: a branch is, per queue, the first `limit` of the
    unlocked rows. -/
private theorem branch_eq {rows : List Row} (hids : (rows.map Row.id).Nodup)
    (locked : Nat → Bool) (now : Int) (limit : Nat) (queues : List String)
    (leaseState : Row → Bool) :
    OutboxClient.branch rows locked now limit queues leaseState =
      queues.flatMap fun name =>
        (rows.filter (part locked now leaseState name)).topN Row.claimLe limit := by
  have hties := untied_claimLe hids
  simp only [OutboxClient.branch, List.topN]
  congr 1
  funext name
  rw [List.filter_insertionSort _ (hties.subset fun a ha => List.mem_of_mem_filter ha),
    List.filter_filter]
  rfl

/-- The branches of distinct queues and of the two lease states are disjoint. -/
private theorem parts_disjoint (rows : List Row) (locked : Nat → Bool) (now leaseTtl : Int)
    (queues : List String) :
    let unleased := (OutboxClient.claimableBranches (now - leaseTtl)).1
    let expiredLease := (OutboxClient.claimableBranches (now - leaseTtl)).2
    (queues.dedup.map (part locked now unleased) ++
        queues.dedup.map (part locked now expiredLease)).Pairwise
      fun p q => ∀ a ∈ rows, ¬(p a = true ∧ q a = true) := by
  intro unleased expiredLease
  have hqueues (leaseState : Row → Bool) :
      (queues.dedup.map (part locked now leaseState)).Pairwise
        fun p q => ∀ a ∈ rows, ¬(p a = true ∧ q a = true) := by
    rw [List.pairwise_map]
    refine (List.nodup_dedup queues).imp fun {name name'} hne a _ ⟨h, h'⟩ => hne ?_
    simp only [part, Bool.and_eq_true, beq_iff_eq] at h h'
    exact h.2.1.1.symm.trans h'.2.1.1
  rw [List.pairwise_append]
  refine ⟨hqueues unleased, hqueues expiredLease, ?_⟩
  intro p hp q hq a _ ⟨hpa, hqa⟩
  obtain ⟨name, _, rfl⟩ := List.mem_map.mp hp
  obtain ⟨name', _, rfl⟩ := List.mem_map.mp hq
  -- a row's token is either NULL or not
  simp only [part, unleased, expiredLease, OutboxClient.claimableBranches, Bool.and_eq_true,
    Option.isNone_iff_eq_none] at hpa hqa
  simp [hpa.2.2] at hqa

/-- Some branch holds a row iff the row is claimable and unlocked. -/
private theorem parts_any (locked : Nat → Bool) (now leaseTtl : Int) (queues : List String)
    (r : Row) :
    let unleased := (OutboxClient.claimableBranches (now - leaseTtl)).1
    let expiredLease := (OutboxClient.claimableBranches (now - leaseTtl)).2
    ((queues.dedup.map (part locked now unleased) ++
        queues.dedup.map (part locked now expiredLease)).any fun p => p r) =
      (!locked r.id && decide (Claimable now leaseTtl queues r)) := by
  intro unleased expiredLease
  rw [Bool.eq_iff_iff]
  simp only [List.any_append, List.any_map, Bool.or_eq_true, List.any_eq_true, List.mem_dedup,
    Function.comp_apply, part, unleased, expiredLease, OutboxClient.claimableBranches,
    Bool.and_eq_true, beq_iff_eq, decide_eq_true_eq, Option.isNone_iff_eq_none,
    Bool.not_eq_true']
  simp only [Claimable, Option.any_eq_true, decide_eq_true_eq]
  constructor
  · intro h
    cases h with
    | inl h =>
      obtain ⟨name, hname, hfree, ⟨hqueue, hdue⟩, htoken⟩ := h
      exact ⟨hfree, hqueue ▸ hname, hdue, Or.inl htoken⟩
    | inr h =>
      obtain ⟨name, hname, hfree, ⟨hqueue, hdue⟩, _, hexpired⟩ := h
      exact ⟨hfree, hqueue ▸ hname, hdue, Or.inr hexpired⟩
  · intro ⟨hfree, hqueue, hdue, hlease⟩
    cases htoken : r.acquiredToken with
    | none => exact Or.inl ⟨r.queue, hqueue, hfree, ⟨rfl, hdue⟩, rfl⟩
    | some token =>
      have hexpired := hlease.resolve_left (by simp [htoken])
      exact Or.inr ⟨r.queue, hqueue, hfree, ⟨rfl, hdue⟩, rfl, hexpired⟩

/-- Cutting every (queue, lease state) part to `limit` rows and their union again selects
    the first `limit` claimable rows: no row of the global prefix is cut from its part. -/
theorem ready_eq {rows : List Row} (hids : (rows.map Row.id).Nodup) (locked : Nat → Bool)
    (now leaseTtl : Int) (limit : Nat) (queues : List String) :
    OutboxClient.ready rows locked now leaseTtl limit queues =
      (firstClaimable rows locked now leaseTtl limit queues).map Row.id := by
  have hties := untied_claimLe hids
  have hparts := parts_disjoint rows locked now leaseTtl queues
  have hany := parts_any locked now leaseTtl queues
  simp only [OutboxClient.ready, branch_eq hids]
  generalize (OutboxClient.claimableBranches (now - leaseTtl)).1 = unleased at *
  generalize (OutboxClient.claimableBranches (now - leaseTtl)).2 = expiredLease at *
  -- one part for each queue and lease state, in the order of the branches
  let parts := queues.dedup.map (part locked now unleased) ++
    queues.dedup.map (part locked now expiredLease)
  have hsplit : ∀ f : (Row → Bool) → List Row,
      (queues.dedup.flatMap fun name => f (part locked now unleased name)) ++
        (queues.dedup.flatMap fun name => f (part locked now expiredLease name)) =
      parts.flatMap f := by
    intro f
    simp only [parts, List.flatMap_append, List.flatMap_map]
  rw [hsplit fun p => (rows.filter p).topN Row.claimLe limit]
  -- the parts are disjoint and cover the claimable rows
  have hperm : (parts.flatMap fun p => rows.filter p).Perm
      (rows.filter fun r => !locked r.id && decide (Claimable now leaseTtl queues r)) := by
    have h := List.flatMap_filter_perm (l := rows) parts hparts
    have hsel : (fun r => parts.any fun p => p r) =
        fun r => !locked r.id && decide (Claimable now leaseTtl queues r) := by
      funext r
      exact hany r
    rwa [hsel] at h
  have hsub : ∀ a ∈ parts.flatMap fun p => rows.filter p, a ∈ rows :=
    fun a ha => List.mem_of_mem_filter (hperm.mem_iff.mp ha)
  rw [List.topN_flatMap_topN parts _ (hties.subset hsub),
    List.topN_perm limit (hties.subset hsub) hperm]
  rfl

/-! ## The claim statement -/

theorem firstClaimable_sublist (rows : List Row) (locked : Nat → Bool) (now leaseTtl : Int)
    (limit : Nat) (queues : List String) :
    ∀ r ∈ firstClaimable rows locked now leaseTtl limit queues,
      r ∈ rows ∧ locked r.id = false ∧ Claimable now leaseTtl queues r := by
  intro r hr
  have hmem := (List.mem_insertionSort Row.claimLe).mp (List.mem_of_mem_take hr)
  rw [List.mem_filter] at hmem
  simpa using hmem

theorem firstClaimable_nodup {rows : List Row} (hids : (rows.map Row.id).Nodup)
    (locked : Nat → Bool) (now leaseTtl : Int) (limit : Nat) (queues : List String) :
    (firstClaimable rows locked now leaseTtl limit queues).Nodup := by
  refine List.Nodup.sublist (List.take_sublist _ _) ?_
  exact (List.perm_insertionSort Row.claimLe _).nodup_iff.mpr (hids.of_map.filter _)

/-- Selecting by id is selecting the rows themselves. -/
private theorem contains_id_iff {rows : List Row} (hids : (rows.map Row.id).Nodup)
    {claimed : List Row} (hsub : ∀ r ∈ claimed, r ∈ rows) {r : Row} (hr : r ∈ rows) :
    (claimed.map Row.id).contains r.id = true ↔ r ∈ claimed := by
  rw [List.contains_iff_mem, List.mem_map]
  constructor
  · intro ⟨r', hr', hid⟩
    exact List.inj_on_of_nodup_map hids (hsub r' hr') hr hid ▸ hr'
  · intro h
    exact ⟨r, h, rfl⟩

/-- The rows an id list selects, sorted back into claim order. -/
private theorem filter_claimed_sorted {rows : List Row} (hids : (rows.map Row.id).Nodup)
    (locked : Nat → Bool) (now leaseTtl : Int) (limit : Nat) (queues : List String) :
    let claimed := firstClaimable rows locked now leaseTtl limit queues
    ((rows.filter fun r => (claimed.map Row.id).contains r.id).insertionSort Row.claimLe) =
      claimed := by
  intro claimed
  have hsub : ∀ r ∈ claimed, r ∈ rows := fun r hr =>
    (firstClaimable_sublist rows locked now leaseTtl limit queues r hr).1
  have hsorted : claimed.insertionSort Row.claimLe = claimed :=
    (List.pairwise_topN limit _).insertionSort_eq
  have hperm : (rows.filter fun r => (claimed.map Row.id).contains r.id).Perm claimed := by
    rw [List.perm_ext_iff_of_nodup (hids.of_map.filter _)
      (firstClaimable_nodup hids locked now leaseTtl limit queues)]
    intro r
    rw [List.mem_filter]
    constructor
    · intro ⟨hr, hc⟩
      exact (contains_id_iff hids hsub hr).mp hc
    · intro hc
      exact ⟨hsub r hc, (contains_id_iff hids hsub (hsub r hc)).mpr hc⟩
  have hties := (untied_claimLe hids).subset fun a (ha : a ∈ rows.filter fun r =>
    (claimed.map Row.id).contains r.id) => List.mem_of_mem_filter ha
  rw [List.insertionSort_perm hties hperm, hsorted]

/-- The claim statement, by the ids it selects. -/
theorem OutboxClient.fetch_eq {s : Store} (hids : (s.rows.map Row.id).Nodup)
    (locked : Nat → Bool) (now : Int) (token : UUID) (queues : List String) (limit : Nat)
    (leaseTtl : Int) :
    let claimed := firstClaimable s.rows locked now leaseTtl limit queues
    OutboxClient.fetch s now token queues limit leaseTtl locked =
      (claimed.map fun r => claimSet r now token,
        { s with
          rows := s.rows.map fun r => if r ∈ claimed then claimSet r now token else r }) := by
  intro claimed
  have hsub : ∀ r ∈ claimed, r ∈ s.rows := fun r hr =>
    (firstClaimable_sublist s.rows locked now leaseTtl limit queues r hr).1
  unfold OutboxClient.fetch
  split
  · rename_i hempty
    -- no queue: nothing is claimable
    have hnil : claimed = [] := by
      have hq : queues = [] := List.isEmpty_iff.mp hempty
      refine List.eq_nil_iff_forall_not_mem.mpr fun r hr => ?_
      have hc := (firstClaimable_sublist s.rows locked now leaseTtl limit queues r hr).2.2
      simp [Claimable, hq] at hc
    simp [hnil]
  · rw [ready_eq hids]
    have hmap : ∀ r ∈ s.rows,
        (if (claimed.map Row.id).contains r.id then claimSet r now token else r) =
          if r ∈ claimed then claimSet r now token else r := by
      intro r hr
      simp only [contains_id_iff hids hsub hr]
    have hrows := List.map_congr_left hmap
    have hsort := filter_claimed_sorted hids locked now leaseTtl limit queues
    have hret := List.map_insertionSort Row.claimLe Row.claimLe (fun r => claimSet r now token)
      (s.rows.filter fun r => (claimed.map Row.id).contains r.id) fun a _ b _ => Iff.rfl
    refine Prod.ext ?_ (congrArg (fun rows => { s with rows }) hrows)
    exact hret.symm.trans (congrArg (List.map fun r => claimSet r now token) hsort)

/-- The fake claims the same rows with the same effect when nothing is locked. -/
theorem FakeOutboxClient.fetch_eq {s : Store} (hids : (s.rows.map Row.id).Nodup) (now : Int)
    (token : UUID) (queues : List String) (limit : Nat) (leaseTtl : Int) :
    FakeOutboxClient.fetch s now token queues limit leaseTtl =
      OutboxClient.fetch s now token queues limit leaseTtl fun _ => false := by
  have heligible : (fun r => eligible now (now - leaseTtl) queues r) =
      fun r => !(fun _ => false) r.id && decide (Claimable now leaseTtl queues r) := by
    funext r
    rw [Bool.eq_iff_iff, Bool.and_eq_true, decide_eq_true_eq]
    simp [eligible, Claimable, and_assoc, Option.any_eq_true]
  rw [OutboxClient.fetch_eq hids]
  have hsub := firstClaimable_sublist s.rows (fun _ => false) now leaseTtl limit queues
  unfold FakeOutboxClient.fetch
  split
  · rename_i hempty
    have hq : queues = [] := List.isEmpty_iff.mp hempty
    have hnil : firstClaimable s.rows (fun _ => false) now leaseTtl limit queues = [] := by
      refine List.eq_nil_iff_forall_not_mem.mpr fun r hr => ?_
      have hc := (hsub r hr).2.2
      simp [Claimable, hq] at hc
    simp [hnil]
  · have hclaimed : ((s.rows.filter (eligible now (now - leaseTtl) queues)).insertionSort
        Row.claimLe).take limit =
          firstClaimable s.rows (fun _ => false) now leaseTtl limit queues := by
      simp only [firstClaimable, ← heligible]
    simp only [hclaimed]
    -- ids are distinct, so stamping by id is stamping by row
    have hmap : ∀ r ∈ s.rows,
        (if ((firstClaimable s.rows (fun _ => false) now leaseTtl limit queues).map
            Row.id).contains r.id then claimFakeRow r now token else r) =
          if r ∈ firstClaimable s.rows (fun _ => false) now leaseTtl limit queues then
            OutboxClient.claimSet r now token else r := by
      intro r hr
      simp only [contains_id_iff hids (fun r hr => (hsub r hr).1) hr]
      rfl
    rw [List.map_congr_left hmap]
    rfl

/-- **The claim statement is the plain filtered sort.** For every table with distinct ids
    and every set of locked rows, the claimed rows are the first `limit` of the unlocked
    claimable rows in `(next_attempt_at, id)` order, returned in that order. Each gets the
    token, the clock and one more delivery; nothing else changes. The fake does the same
    when no row is locked. -/
theorem fetch_eq_filtered_sort {s : Store} (hids : (s.rows.map Row.id).Nodup)
    (locked : Nat → Bool) (now : Int) (token : UUID) (queues : List String) (limit : Nat)
    (leaseTtl : Int) :
    let claimed := firstClaimable s.rows locked now leaseTtl limit queues
    let lease := fun r : Row =>
      { r with
        acquiredAt := some now
        acquiredToken := some token
        deliveriesCount := r.deliveriesCount + 1 }
    let fetched := OutboxClient.fetch s now token queues limit leaseTtl locked
    fetched.1 = claimed.map lease ∧
      fetched.1.Pairwise Row.claimLe ∧
      fetched.2.rows = (s.rows.map fun r => if r ∈ claimed then lease r else r) ∧
      fetched.2.nextId = s.nextId ∧ fetched.2.dlqRows = s.dlqRows ∧
      FakeOutboxClient.fetch s now token queues limit leaseTtl =
        OutboxClient.fetch s now token queues limit leaseTtl fun _ => false := by
  intro claimed lease fetched
  have heq : fetched = (claimed.map lease,
      { s with rows := s.rows.map fun r => if r ∈ claimed then lease r else r }) :=
    OutboxClient.fetch_eq hids locked now token queues limit leaseTtl
  have hsorted : (claimed.map lease).Pairwise Row.claimLe := by
    rw [List.pairwise_map]
    exact (List.pairwise_topN limit _).imp fun h => h
  rw [heq]
  exact ⟨rfl, hsorted, rfl, rfl, rfl,
    FakeOutboxClient.fetch_eq hids now token queues limit leaseTtl⟩

/-- Four rows of two queues: an expired lease, a tie on the deadline, a locked row. -/
def fetchTable : Store :=
  { rows :=
      [{ id := 4, queue := "a", payload := [], headers := none, createdAt := 0,
         nextAttemptAt := 5 },
       { id := 2, queue := "b", payload := [], headers := none, createdAt := 0,
         nextAttemptAt := 5, acquiredAt := some 10, acquiredToken := some 1 },
       { id := 1, queue := "a", payload := [], headers := none, createdAt := 0,
         nextAttemptAt := 1 },
       { id := 3, queue := "a", payload := [], headers := none, createdAt := 0,
         nextAttemptAt := 7 }]
    nextId := 5 }

/-- Row 1 is locked, so the two rows taken are 2 (lease expired) and 4, tied on 5. -/
theorem fetch_eq_filtered_sort_fetchTable :
    (OutboxClient.fetch fetchTable 100 9 ["a", "b", "a"] 2 30 fun id => id == 1).1.map Row.id =
      [2, 4] := by
  have hids : (fetchTable.rows.map Row.id).Nodup := by decide
  have h := fetch_eq_filtered_sort hids (fun id => id == 1) 100 9 ["a", "b", "a"] 2 30
  rw [h.1]
  decide

end Outbox
