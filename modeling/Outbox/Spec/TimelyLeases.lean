import Outbox.Spec.LeaseSafety

/-!
# Timely leases are exclusive

A lease is only taken over once `acquired_at < now - ttl`, a strict comparison on the
clock of the database. As long as a claim's terminal write reaches the store no later
than `acquired_at + ttl`, nothing but that write can touch the row: a fetch finds the
lease unexpired, and extends and cancels skip leased rows.

## Key results

- `RowStep.keeps_lease`: one operation leaves an unexpired lease alone
- `Outstanding.row_intact`: along a timely run, the row of an outstanding claim is as the
  claim left it
- `timely_leases_exclusive`: no second claim, no lost lease
-/

namespace Outbox

/-- At entry `k` of a run, the claim that entry `i` made is outstanding: no terminal write
    in between carried its pair. -/
structure Outstanding (run : List World.Entry) (i k : Nat) (c : World.Entry) (id : Nat)
    (token : UUID) : Prop where
  claim : run[i]? = some c
  before : i < k
  claims : Claims c.input c.output id token
  unwritten : ∀ j e, i < j → j < k → run[j]? = some e → ¬e.input.Carries id token

/-- Every fetch that serves a queue uses its TTL, and every claim has a single terminal
    write that the client accepts and that reaches the store by `acquired_at + ttl`. -/
structure Timely (ttl : String → Int) (run : List World.Entry) : Prop where
  /-- Fetches that share a queue share its TTL. -/
  same_ttl : ∀ (k : Nat) (e : World.Entry) (token : UUID) (queues : List String) (limit : Nat)
    (leaseTtl : Int) (locked : List Nat), run[k]? = some e →
    e.input = .fetch token queues limit leaseTtl locked → ∀ q ∈ queues, leaseTtl = ttl q
  /-- A terminal write is the one write of a claim made before it. -/
  owed : ∀ (k : Nat) (e : World.Entry) (id : Nat) (token : UUID), run[k]? = some e →
    e.input.Carries id token → ∃ i c, Outstanding run i k c id token
  accepted : ∀ (k : Nat) (e : World.Entry), run[k]? = some e → e.input.Acceptable
  /-- Up to and including its terminal write, a claim is within its lease. -/
  on_time : ∀ (i k : Nat) (c e : World.Entry) (id : Nat) (token : UUID) (row : Row),
    Outstanding run i k c id token → run[k]? = some e → c.after.store.row? id = some row →
    e.before.now ≤ c.before.now + ttl row.queue

/-! ## One step -/

/-- An operation that is no terminal write of the pair leaves a lease that has not expired
    alone, and no fetch returns its row. -/
theorem RowStep.keeps_lease {id nextId : Nat} {now acquired : Int} {op : Op} {reply : Reply}
    {row : Row} {r' : Option Row} (h : RowStep id nextId now op reply (some row) r')
    {token : UUID} (htoken : row.acquiredToken = some token)
    (hacquired : row.acquiredAt = some acquired)
    (hlive : ∀ drawn queues limit leaseTtl locked,
      op = .fetch drawn queues limit leaseTtl locked → row.queue ∈ queues →
      now ≤ acquired + leaseTtl)
    (hother : ¬op.Carries id token) :
    r' = some row ∧ ∀ token', ¬Claims op reply id token' := by
  cases h with
  | same hclaims _ _ => exact ⟨rfl, hclaims⟩
  | extended _ hfree _ _ _ _ => exact absurd (hfree.symm.trans htoken) (by simp)
  | claimed _ hclaimable =>
    obtain ⟨hqueue, _, hlease⟩ := hclaimable
    have hbound := hlive _ _ _ _ _ rfl hqueue
    cases hlease with
    | inl hfree => exact absurd (hfree.symm.trans htoken) (by simp)
    | inr hexpired =>
      obtain ⟨t, ht, hlt⟩ := hexpired
      have heq : t = acquired := Option.some_inj.mp (ht.symm.trans hacquired)
      omega
  | rescheduled htoken' =>
    exact absurd ⟨rfl, Option.some_inj.mp (htoken'.symm.trans htoken)⟩ hother
  | deleted htoken' =>
    exact absurd ⟨rfl, Option.some_inj.mp (htoken'.symm.trans htoken)⟩ hother
  | deletedBatch htoken' hmem _ =>
    have heq := Option.some_inj.mp (htoken'.symm.trans htoken)
    exact absurd (heq ▸ hmem) hother
  | cancelled _ hfree => exact absurd (hfree.symm.trans htoken) (by simp)

/-! ## A run -/

section Timely

variable {b : Backend} {start : Int} {ops : List Op} {ttl : String → Int}

/-- A claim outstanding at an entry was outstanding at every entry since it was made. -/
theorem Outstanding.earlier {run : List World.Entry} {i j k : Nat} {c : World.Entry} {id : Nat}
    {token : UUID} (h : Outstanding run i k c id token) (hij : i < j) (hjk : j ≤ k) :
    Outstanding run i j c id token where
  claim := h.claim
  before := hij
  claims := h.claims
  unwritten m e him hmj := h.unwritten m e him (Nat.lt_of_lt_of_le hmj hjk)

/-- The row a claim leaves: leased under its token, at the clock of the claim. -/
theorem Outstanding.claimed_row {i k : Nat} {c : World.Entry} {id : Nat} {token : UUID}
    (h : Outstanding (World.trace b start ops) i k c id token) :
    ∃ row, c.after.store.row? id = some row ∧ row.acquiredToken = some token ∧
      row.acquiredAt = some c.before.now := by
  obtain ⟨_, row₀, _, _, _, _, _, _, _, hafter⟩ :=
    (World.trace_rowStep h.claim id).of_claims h.claims
  exact ⟨_, hafter, rfl, rfl⟩

/-- Along a timely run the row of an outstanding claim is as the claim left it. -/
theorem Outstanding.row_intact (htimely : Timely ttl (World.trace b start ops)) {i k : Nat}
    {c e : World.Entry} {id : Nat} {token : UUID}
    (h : Outstanding (World.trace b start ops) i k c id token)
    (hk : (World.trace b start ops)[k]? = some e) :
    e.before.store.row? id = c.after.store.row? id := by
  obtain ⟨row, hrow, htoken, hacquired⟩ := h.claimed_row
  refine Run.trace_between (P := fun w => w.store.row? id = c.after.store.row? id)
    h.claim hk h.before rfl ?_
  intro m e' him hmk he' hbefore
  have hm := h.earlier him (Nat.le_of_lt hmk)
  have hstep := World.trace_rowStep he' id
  rw [hbefore, hrow] at hstep
  have hkeep := hstep.keeps_lease htoken hacquired
    (fun drawn queues limit leaseTtl locked hop hqueue => by
      have hbound := htimely.on_time i m c e' id token row hm he' hrow
      have hsame := htimely.same_ttl m e' drawn queues limit leaseTtl locked he' hop _ hqueue
      omega)
    (h.unwritten m e' him hmk he')
  rw [hkeep.1, hrow]

/-- While a claim is outstanding no fetch returns its row, and only its own terminal write
    touches it. -/
theorem Outstanding.untouched (htimely : Timely ttl (World.trace b start ops)) {i k : Nat}
    {c e : World.Entry} {id : Nat} {token : UUID}
    (h : Outstanding (World.trace b start ops) i k c id token)
    (hk : (World.trace b start ops)[k]? = some e) (hother : ¬e.input.Carries id token) :
    e.after.store.row? id = e.before.store.row? id ∧
      ∀ token', ¬Claims e.input e.output id token' := by
  obtain ⟨row, hrow, htoken, hacquired⟩ := h.claimed_row
  have hbefore := (h.row_intact htimely hk).trans hrow
  have hstep := World.trace_rowStep hk id
  rw [hbefore] at hstep
  have hkeep := hstep.keeps_lease htoken hacquired
    (fun drawn queues limit leaseTtl locked hop hqueue => by
      have hbound := htimely.on_time i k c e id token row h hk hrow
      have hsame := htimely.same_ttl k e drawn queues limit leaseTtl locked hk hop _ hqueue
      omega) hother
  exact ⟨hkeep.1.trans hbefore.symm, hkeep.2⟩

/-- A fetch is no terminal write. -/
theorem Claims.not_carries {op : Op} {reply : Reply} {id : Nat} {token : UUID}
    (h : Claims op reply id token) (id' : Nat) (token' : UUID) : ¬op.Carries id' token' := by
  cases op with
  | fetch _ _ _ _ _ => exact fun hc => hc
  | _ => exact h.elim

/-- A claim outstanding at entry `k` is older than no other claim of the row. -/
theorem Outstanding.not_before (htimely : Timely ttl (World.trace b start ops)) {i i' k : Nat}
    {c c' : World.Entry} {id : Nat} {token token' : UUID}
    (h : Outstanding (World.trace b start ops) i k c id token)
    (h' : Outstanding (World.trace b start ops) i' k c' id token') : ¬i < i' := by
  intro hlt
  have hearlier := h.earlier hlt (Nat.le_of_lt h'.before)
  exact (hearlier.untouched htimely h'.claim (h'.claims.not_carries id token)).2 token' h'.claims

/-- **Timely leases are exclusive.** In a run in which every claim's terminal write comes
    no later than `acquired_at + ttl`: between a claim and that write no fetch returns the
    row and no other operation changes it; every terminal write lands; and no two claims
    of a row are outstanding at once. -/
theorem timely_leases_exclusive (b : Backend) (start : Int) (ops : List Op)
    (ttl : String → Int) (htimely : Timely ttl (World.trace b start ops)) :
    let run := World.trace b start ops
    (∀ (i k : Nat) (c e : World.Entry) (id : Nat) (token : UUID),
      Outstanding run i k c id token → run[k]? = some e →
      e.before.store.row? id = c.after.store.row? id ∧
      (∀ token', ¬Claims e.input e.output id token') ∧
      (¬e.input.Carries id token →
        e.after.store.row? id = e.before.store.row? id)) ∧
    (∀ (k : Nat) (e : World.Entry) (id : Nat) (token : UUID), run[k]? = some e →
      e.input.Carries id token → Landed e.input e.output id token) ∧
    (∀ (i i' k : Nat) (c c' : World.Entry) (id : Nat) (token token' : UUID),
      Outstanding run i k c id token → Outstanding run i' k c' id token' →
      i = i' ∧ token = token') := by
  intro run
  refine ⟨?_, ?_, ?_⟩
  · intro i k c e id token h hk
    refine ⟨h.row_intact htimely hk, fun token' hclaims => ?_,
      fun hother => (h.untouched htimely hk hother).1⟩
    exact (h.untouched htimely hk (hclaims.not_carries id token)).2 token' hclaims
  · intro k e id token hk hcarries
    -- the claim it was sent for is outstanding, and its row untouched since
    obtain ⟨i, c, h⟩ := htimely.owed k e id token hk hcarries
    obtain ⟨row, hrow, htoken, _⟩ := h.claimed_row
    have hholds : e.before.store.Holds id token :=
      ⟨row, (h.row_intact htimely hk).trans hrow, htoken⟩
    have hland := World.landed_of_holds (World.trace_wf hk) b (htimely.accepted k e hk) hcarries
      hholds
    have hstep := World.trace_step hk
    have houtput : (World.step b e.before e.input).1 = e.output := by rw [hstep]
    rw [← houtput]
    exact hland
  · intro i i' k c c' id token token' h h'
    -- neither claim comes before the other, so they are one entry
    have h₁ := h.not_before htimely h'
    have h₂ := h'.not_before htimely h
    have hi : i = i' := by omega
    subst hi
    have hc : c = c' := Option.some_inj.mp (h.claim.symm.trans h'.claim)
    subst hc
    obtain ⟨row, hrow, htoken, _⟩ := h.claimed_row
    obtain ⟨row', hrow', htoken', _⟩ := h'.claimed_row
    have hsame : row = row' := Option.some_inj.mp (hrow.symm.trans hrow')
    subst hsame
    exact ⟨rfl, Option.some_inj.mp (htoken.symm.trans htoken')⟩

end Timely

/-- A claim, a fetch that comes exactly at the end of its lease, and its terminal write. -/
def boundaryRun : List Op :=
  [.insert 0 { queue := "orders", payload := [] },
   .fetch 7 ["orders"] 10 30 [],
   .tick 30,
   .fetch 8 ["orders"] 10 30 [],
   .deleteWithLease false 1 7 none]

private theorem boundaryRun_entry {k : Nat} {e : World.Entry}
    (h : (World.trace .postgres 0 boundaryRun)[k]? = some e) :
    boundaryRun[k]? = some e.input := (Run.trace_getElem? h).1

/-- The only claim of the run is the first fetch's, of row 1. -/
private theorem boundaryRun_claims {i : Nat} {c : World.Entry} {id : Nat} {token : UUID}
    (h : (World.trace .postgres 0 boundaryRun)[i]? = some c)
    (hclaims : Claims c.input c.output id token) : i = 1 ∧ id = 1 ∧ token = 7 := by
  match i, h with
  | 0, h => cases h; exact hclaims.elim
  | 1, h =>
    cases h
    obtain ⟨hdrawn, hid⟩ := hclaims
    have hid' : id ∈ [1] := hid
    exact ⟨rfl, List.mem_singleton.mp hid', hdrawn.symm⟩
  | 2, h => cases h; exact hclaims.elim
  | 3, h =>
    cases h
    obtain ⟨_, hid⟩ := hclaims
    have hid' : id ∈ ([] : List Nat) := hid
    cases hid'
  | 4, h => cases h; exact hclaims.elim
  | i + 5, h => cases h

private theorem boundaryRun_timely :
    Timely (fun _ => 30) (World.trace .postgres 0 boundaryRun) where
  same_ttl := by
    intro k e token queues limit leaseTtl locked hk hop q hq
    have hin := boundaryRun_entry hk
    rw [hop] at hin
    match k, hin with
    | 1, hin => cases hin; rfl
    | 3, hin => cases hin; rfl
    | k + 5, hin => cases hin
  owed := by
    intro k e id token hk hcarries
    have hin := boundaryRun_entry hk
    have hk4 : k = 4 := by
      match k, hk with
      | 0, hk => cases hk; exact hcarries.elim
      | 1, hk => cases hk; exact hcarries.elim
      | 2, hk => cases hk; exact hcarries.elim
      | 3, hk => cases hk; exact hcarries.elim
      | 4, _ => rfl
      | k + 5, hk => cases hk
    subst hk4
    cases hk
    obtain ⟨rfl, rfl⟩ := hcarries
    refine ⟨1, _, rfl, by decide, ⟨rfl, by decide⟩, ?_⟩
    intro j e hj hj4 he hc
    match j, hj, hj4 with
    | 2, _, _ => cases he; exact hc
    | 3, _, _ => cases he; exact hc
  accepted := by
    intro k e hk
    match k, hk with
    | 0, hk => cases hk; trivial
    | 1, hk => cases hk; trivial
    | 2, hk => cases hk; trivial
    | 3, hk => cases hk; trivial
    | 4, hk => cases hk; trivial
    | k + 5, hk => cases hk
  on_time := by
    intro i k c e id token row h hk _
    obtain ⟨rfl, _, _⟩ := boundaryRun_claims h.claim h.claims
    have hclaim := h.claim
    cases hclaim
    match k, hk with
    | 0, _ => exact absurd h.before (by decide)
    | 1, _ => exact absurd h.before (by decide)
    | 2, hk => cases hk; decide
    | 3, hk => cases hk; decide
    | 4, hk => cases hk; decide
    | k + 5, hk => cases hk

/-- At the end of its lease, to the microsecond, the claim still lands. -/
theorem timely_leases_exclusive_boundaryRun :
    ∃ e, (World.trace .postgres 0 boundaryRun)[4]? = some e ∧ e.before.now = 30 ∧
      Landed e.input e.output 1 7 := by
  have h := timely_leases_exclusive .postgres 0 boundaryRun (fun _ => 30) boundaryRun_timely
  exact ⟨_, rfl, rfl, h.2.1 4 _ 1 7 rfl ⟨rfl, rfl⟩⟩

end Outbox
