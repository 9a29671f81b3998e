import Outbox.ForStd.Least
import Outbox.Native.Lag
import Outbox.Spec.FetchCorrect

/-!
# The lag probe agrees with the claim

`lagStatement` finds the oldest unleased row, then the oldest expired lease up to it, and
takes the smaller of the two. The fetch sorts both together. The two agree on which rows
are claimable, and the cut-off of the second search hides only rows younger than the
result of the first.

## Key results

- `due_leastOf`: a probe finds the least deadline of its rows
- `lagStatement_leastOf`: both probes together find the least of the claimable rows
- `lag_agrees_with_fetch`: the age is that of the first row a fetch returns
-/

namespace Outbox

/-- The deadlines of the rows a fetch of the queue may claim. -/
def claimableDeadlines (rows : List Row) (now leaseTtl : Int) (queue : String) : Set Int :=
  {t | ∃ r ∈ rows, Claimable now leaseTtl [queue] r ∧ r.nextAttemptAt = t}

/-! ## The probes -/

/-- A probe finds the least deadline of the due rows that meet its clause. -/
theorem due_leastOf (rows : List Row) (queue : String) (now : Int) (clause : Row → Bool) :
    LeastOf {t | ∃ r ∈ rows, (r.queue = queue ∧ r.nextAttemptAt ≤ now ∧ clause r = true) ∧
      r.nextAttemptAt = t} (due rows queue now clause) := by
  have hhead : ∀ l : List Int,
      (l.topN (· ≤ ·) 1).head? = (l.insertionSort (· ≤ ·)).head? := fun l => by
    rw [List.topN, List.head?_take]
    rfl
  have hsorted := List.pairwise_insertionSort (· ≤ · : Int → Int → Prop)
    ((rows.filter fun r =>
      r.queue == queue && decide (r.nextAttemptAt ≤ now) && clause r).map Row.nextAttemptAt)
  have hleast := LeastOf.head? hsorted
  unfold due
  rw [hhead]
  refine (congrArg (LeastOf · _) ?_).mp hleast
  ext t
  simp [and_assoc]

section

variable (rows : List Row) (queue : String) (now leaseTtl : Int)

/-- The rows of the two probes are the claimable rows. -/
theorem claimableDeadlines_eq :
    claimableDeadlines rows now leaseTtl queue =
      {t | ∃ r ∈ rows, (r.queue = queue ∧ r.nextAttemptAt ≤ now ∧
          (OutboxClient.claimableBranches (now - leaseTtl)).1 r = true) ∧
        r.nextAttemptAt = t} ∪
      {t | ∃ r ∈ rows, (r.queue = queue ∧ r.nextAttemptAt ≤ now ∧
          (OutboxClient.claimableBranches (now - leaseTtl)).2 r = true) ∧
        r.nextAttemptAt = t} := by
  have hsplit : ∀ r : Row, Claimable now leaseTtl [queue] r ↔
      (r.queue = queue ∧ r.nextAttemptAt ≤ now ∧
          (OutboxClient.claimableBranches (now - leaseTtl)).1 r = true) ∨
        (r.queue = queue ∧ r.nextAttemptAt ≤ now ∧
          (OutboxClient.claimableBranches (now - leaseTtl)).2 r = true) := by
    intro r
    simp only [Claimable, OutboxClient.claimableBranches, List.mem_singleton]
    -- an unleased row has no lease to expire
    cases htoken : r.acquiredToken with
    | none => simp
    | some token => simp [Option.any_eq_true]
  ext t
  constructor
  · intro ⟨r, hr, hclaimable, ht⟩
    cases (hsplit r).mp hclaimable with
    | inl h => exact .inl ⟨r, hr, h, ht⟩
    | inr h => exact .inr ⟨r, hr, h, ht⟩
  · intro h
    cases h with
    | inl h =>
      obtain ⟨r, hr, hbranch, ht⟩ := h
      exact ⟨r, hr, (hsplit r).mpr (.inl hbranch), ht⟩
    | inr h =>
      obtain ⟨r, hr, hbranch, ht⟩ := h
      exact ⟨r, hr, (hsplit r).mpr (.inr hbranch), ht⟩

/-- The two probes find the oldest claimable row between them. -/
theorem lagStatement_leastOf :
    ∃ oldest, LeastOf (claimableDeadlines rows now leaseTtl queue) oldest ∧
      lagStatement rows queue leaseTtl now = (oldest.map fun t => now - t, now) := by
  refine ⟨_, ?_, rfl⟩
  rw [claimableDeadlines_eq]
  refine LeastOf.union_cut now (due_leastOf rows queue now _) ?_ ?_
  · intro t ⟨r, _, ⟨_, hdue, _⟩, ht⟩
    omega
  · -- the second probe, with its cut-off
    refine (congrArg (LeastOf · _) ?_).mp (due_leastOf rows queue now _)
    ext t
    constructor
    · intro ⟨r, hr, ⟨hqueue, hdue, hclause⟩, ht⟩
      rw [Bool.and_eq_true, decide_eq_true_eq] at hclause
      exact ⟨⟨r, hr, ⟨hqueue, hdue, hclause.1⟩, ht⟩, ht ▸ hclause.2⟩
    · intro ⟨⟨r, hr, ⟨hqueue, hdue, hexpired⟩, ht⟩, hcut⟩
      refine ⟨r, hr, ⟨hqueue, hdue, ?_⟩, ht⟩
      rw [Bool.and_eq_true, decide_eq_true_eq]
      exact ⟨hexpired, ht ▸ hcut⟩

/-- The first row of a fetch that finds nothing locked is the oldest claimable one. -/
theorem firstClaimable_leastOf {limit : Nat} (hlimit : 0 < limit) :
    LeastOf (claimableDeadlines rows now leaseTtl queue)
      ((firstClaimable rows (fun _ => false) now leaseTtl limit [queue]).head?.map
        Row.nextAttemptAt) := by
  let sorted := (rows.filter fun r =>
    !(fun _ => false) r.id && decide (Claimable now leaseTtl [queue] r)).insertionSort Row.claimLe
  have hhead : (firstClaimable rows (fun _ => false) now leaseTtl limit [queue]).head? =
      sorted.head? := by
    rw [firstClaimable, List.head?_take, if_neg (by omega)]
  have hsorted : (sorted.map Row.nextAttemptAt).Pairwise (· ≤ ·) := by
    rw [List.pairwise_map]
    refine (List.pairwise_insertionSort Row.claimLe _).imp fun hle => ?_
    simp only [Row.claimLe] at hle
    omega
  rw [hhead, ← List.head?_map]
  refine (congrArg (LeastOf · _) ?_).mp (LeastOf.head? hsorted)
  ext t
  simp [sorted, claimableDeadlines, and_assoc]

end

/-! ## The probe and the fetch -/

/-- **The lag is the age of the next row a fetch returns.** It is NULL iff no row of the
    queue is claimable; otherwise it counts from the smallest deadline of the claimable
    rows, that of the first row of a fetch that finds nothing locked, and is not negative. -/
theorem lag_agrees_with_fetch {s : Store} (hids : (s.rows.map Row.id).Nodup) (queue : String)
    (now leaseTtl : Int) (token : UUID) {limit : Nat} (hlimit : 0 < limit) :
    let age := (lagStatement s.rows queue leaseTtl now).1
    let fetched := (OutboxClient.fetch s now token [queue] limit leaseTtl fun _ => false).1
    (age = none ↔ ∀ r ∈ s.rows, ¬Claimable now leaseTtl [queue] r) ∧
      ∀ delay, age = some delay → ∃ oldest,
        IsLeast {t | ∃ r ∈ s.rows, Claimable now leaseTtl [queue] r ∧ r.nextAttemptAt = t}
            oldest ∧
          delay = now - oldest ∧ fetched.head?.map Row.nextAttemptAt = some oldest ∧
          0 ≤ delay := by
  intro age fetched
  obtain ⟨oldest, hleast, hlag⟩ := lagStatement_leastOf s.rows queue now leaseTtl
  have hage : age = oldest.map fun t => now - t := congrArg Prod.fst hlag
  -- the first row of a fetch has the least deadline, too
  have hfetched : fetched.head?.map Row.nextAttemptAt = oldest := by
    have hfirst := firstClaimable_leastOf s.rows queue now leaseTtl hlimit
    have hclaim := OutboxClient.fetch_eq hids (fun _ => false) now token [queue] limit leaseTtl
    simp only [fetched, hclaim, List.head?_map, Option.map_map]
    exact hfirst.eq hleast
  cases oldest with
  | none =>
    constructor
    · refine ⟨fun _ r hr hclaimable => ?_, fun _ => hage⟩
      exact hleast r.nextAttemptAt ⟨r, hr, hclaimable, rfl⟩
    · intro delay hdelay
      rw [hage] at hdelay
      cases hdelay
  | some t =>
    obtain ⟨r, hr, hclaimable, ht⟩ := hleast.1
    constructor
    · refine ⟨fun hnone => ?_, fun hnone => absurd hclaimable (hnone r hr)⟩
      rw [hage] at hnone
      cases hnone
    · intro delay hdelay
      rw [hage] at hdelay
      have hdelay : now - t = delay := Option.some_inj.mp hdelay
      have hdue : r.nextAttemptAt ≤ now := hclaimable.2.1
      exact ⟨t, hleast, hdelay.symm, hfetched, by omega⟩

/-- In `fetchTable` the expired lease of queue `b` has waited since 5. -/
theorem lag_agrees_with_fetch_fetchTable :
    (lagStatement fetchTable.rows "b" 30 100).1 = some 95 ∧
      (OutboxClient.fetch fetchTable 100 9 ["b"] 1 30 fun _ => false).1.head?.map
        Row.nextAttemptAt = some 5 := by
  have hids : (fetchTable.rows.map Row.id).Nodup := by decide
  have hlag := lag_agrees_with_fetch hids "b" 100 30 9 (show 0 < 1 by decide)
  have hage : (lagStatement fetchTable.rows "b" 30 100).1 = some 95 := by decide
  obtain ⟨oldest, -, hdelay, hfetched, -⟩ := hlag.2 95 hage
  have holdest : oldest = 5 := by omega
  exact ⟨hage, holdest ▸ hfetched⟩

end Outbox
