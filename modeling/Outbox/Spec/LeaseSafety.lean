import Outbox.Spec.WorldStep

/-!
# Lease-token safety

A claim stamps its row with a token no fetch has drawn before, and every terminal write
is guarded by that token. The token of a row therefore only ever goes away: once a pair
`(id, token)` is not current it never is again, whatever the operations in between.

## Key results

- `World.holds_step`: only the fetch that draws a token makes a pair current
- `dead_pair_stays_dead`: a pair that stopped being current stays so
- `lease_token_safety`: over any run, at most one terminal write lands per claim, and a
  superseded claim's write is denied and changes nothing
-/

namespace Outbox

/-- The token a fetch draws. -/
def Op.drawn : Op → Option UUID
  | .fetch token _ _ _ _ => some token
  | _ => none

/-- The tokens the fetches of a run draw, in order. -/
def drawnTokens (ops : List Op) : List UUID := ops.filterMap Op.drawn

/-- The claim of a row was superseded: the row was claimed again, or a terminal write of
    the row landed. -/
def Supersedes (op : Op) (reply : Reply) (id : Nat) : Prop :=
  (∃ token, Claims op reply id token) ∨ ∃ token, Landed op reply id token

/-! ## One step -/

/-- A pair that lands was current, and is not any more. -/
theorem RowStep.of_landed {id nextId : Nat} {now : Int} {op : Op} {reply : Reply}
    {r r' : Option Row} (h : RowStep id nextId now op reply r r') {token : UUID}
    (hland : Landed op reply id token) :
    (∃ row, r = some row ∧ row.acquiredToken = some token) ∧
      ∀ row, r' = some row → row.acquiredToken = none := by
  cases h with
  | same _ hlanded _ => exact absurd hland (hlanded token)
  | inserted _ => exact hland.elim
  | insertedBatch _ _ => exact hland.elim
  | extended _ _ _ _ _ _ => exact hland.elim
  | claimed _ _ => exact hland.elim
  | rescheduled htoken =>
    obtain ⟨⟨_, rfl⟩, _⟩ := hland
    refine ⟨⟨_, rfl, htoken⟩, fun row hrow => ?_⟩
    cases hrow
    rfl
  | deleted htoken =>
    obtain ⟨⟨_, rfl⟩, _⟩ := hland
    exact ⟨⟨_, rfl, htoken⟩, fun row hrow => by cases hrow⟩
  | deletedBatch htoken _ hdeleted =>
    rw [(hdeleted token).mp hland]
    exact ⟨⟨_, rfl, htoken⟩, fun row hrow => by cases hrow⟩
  | cancelled _ _ => exact hland.elim

/-- A fetch that returns a row finds it claimable and leaves it under its token. -/
theorem RowStep.of_claims {id nextId : Nat} {now : Int} {op : Op} {reply : Reply}
    {r r' : Option Row} (h : RowStep id nextId now op reply r r') {token : UUID}
    (hclaims : Claims op reply id token) :
    op.drawn = some token ∧ ∃ row queues limit leaseTtl locked,
      op = .fetch token queues limit leaseTtl locked ∧ r = some row ∧
      Claimable now leaseTtl queues row ∧ r' = some (OutboxClient.claimSet row now token) := by
  cases h with
  | same hno _ _ => exact absurd hclaims (hno token)
  | claimed _ hclaimable =>
    obtain ⟨rfl, _⟩ := hclaims
    exact ⟨rfl, _, _, _, _, _, rfl, rfl, hclaimable, rfl⟩
  | _ => exact hclaims.elim

/-- **A row that keeps its token keeps every column**: only the fetch that draws a token
    stamps a row with it. -/
theorem RowStep.frozen {id nextId : Nat} {now : Int} {op : Op} {reply : Reply}
    {r r' : Option Row} (h : RowStep id nextId now op reply r r') {row : Row} {token : UUID}
    (hrow : r' = some row) (htoken : row.acquiredToken = some token) :
    r = some row ∨ op.drawn = some token ∧
      ∃ rows, reply = .claimed rows ∧ row ∈ rows := by
  cases h with
  | same _ _ _ => exact .inl hrow
  | claimed hmem _ =>
    cases hrow
    exact .inr ⟨htoken, _, rfl, hmem⟩
  | extended _ hfree _ _ _ _ =>
    cases hrow
    exact absurd (hfree.symm.trans htoken) (by simp)
  | inserted _ => cases hrow; cases htoken
  | insertedBatch _ _ => cases hrow; cases htoken
  | rescheduled _ => cases hrow; cases htoken
  | deleted _ => cases hrow
  | deletedBatch _ _ _ => cases hrow
  | cancelled _ _ => cases hrow

/-- Only the fetch that draws a token puts a row under it. -/
theorem RowStep.token_from {id nextId : Nat} {now : Int} {op : Op} {reply : Reply}
    {r r' : Option Row} (h : RowStep id nextId now op reply r r') {row : Row} {token : UUID}
    (hrow : r' = some row) (htoken : row.acquiredToken = some token) :
    op.drawn = some token ∨ ∃ row₀, r = some row₀ ∧ row₀.acquiredToken = some token := by
  cases h.frozen hrow htoken with
  | inl hsame => exact .inr ⟨row, hsame, htoken⟩
  | inr hclaimed => exact .inl hclaimed.1

namespace World

variable {w : World} (hwf : w.store.WF)
include hwf

/-- A terminal write moves only the rows whose pair it carries and the store holds. -/
theorem step_row?_of_not_held (b : Backend) {op : Op} {id token : Nat}
    (hwrite : op.Carries id token) {id' : Nat}
    (hmiss : ∀ token', op.Carries id' token' → ¬w.store.Holds id' token') :
    (w.step b op).2.store.row? id' = w.store.row? id' := by
  have h := apply_rowStep hwf b op id'
  show (w.apply b op).2.row? id' = w.store.row? id'
  generalize hbefore : w.store.row? id' = r at h
  generalize (w.apply b op).2.row? id' = r' at h
  generalize (w.apply b op).1 = reply at h
  cases h with
  | same _ _ _ => rfl
  | rescheduled htoken => exact absurd ⟨_, hbefore, htoken⟩ (hmiss _ ⟨rfl, rfl⟩)
  | deleted htoken => exact absurd ⟨_, hbefore, htoken⟩ (hmiss _ ⟨rfl, rfl⟩)
  | deletedBatch htoken hmem _ => exact absurd ⟨_, hbefore, htoken⟩ (hmiss _ hmem)
  | _ => exact hwrite.elim

/-- A terminal write that does not land for its own pair leaves the dead letters alone. -/
theorem step_dlqRows_of_not_held (b : Backend) {op : Op} {id token : Nat}
    (hwrite : op.Carries id token) (hmiss : ¬w.store.Holds id token) :
    (w.step b op).2.store.dlqRows = w.store.dlqRows := by
  have hdlq := apply_dlqRows hwf b op
  have hdenied := denied_of_not_holds hwf b hwrite hmiss
  show (w.apply b op).2.dlqRows = w.store.dlqRows
  rw [hdlq]
  cases op with
  | deleteWithLease dlqTable messageId acquiredToken payload =>
    have hno : (w.apply b (.deleteWithLease dlqTable messageId acquiredToken payload)).1 ≠
        .deleted (.ok true) := by
      intro h
      rw [h] at hdenied
      simp [Denied] at hdenied
    unfold archivedBy
    split
    · rename_i h
      exact absurd h hno
    · exact List.append_nil _
  | _ => simp [archivedBy]

end World

/-! ## A run -/

section Trace

variable {b : Backend} {start : Int} {ops : List Op}

theorem World.init_wf (start : Int) : (World.init start).store.WF := Store.WF.empty

/-- Every point of a run is well-formed. -/
theorem World.trace_wf {k : Nat} {e : World.Entry}
    (h : (World.trace b start ops)[k]? = some e) : e.before.store.WF :=
  (Run.trace_invariant (P := fun w => w.store.WF) (fun _ op hw => World.apply_wf hw b op)
    (World.init_wf start) h).1

/-- An entry of a run is a step of the world. -/
theorem World.trace_step {k : Nat} {e : World.Entry}
    (h : (World.trace b start ops)[k]? = some e) :
    World.step b e.before e.input = (e.output, e.after) :=
  (Run.trace_getElem? h).2.2

theorem World.trace_rowStep {k : Nat} {e : World.Entry}
    (h : (World.trace b start ops)[k]? = some e) (id : Nat) :
    RowStep id e.before.store.nextId e.before.now e.input e.output (e.before.store.row? id)
      (e.after.store.row? id) := by
  have hrow := World.apply_rowStep (World.trace_wf h) b e.input id
  have hstep := World.trace_step h
  have houtput : (World.step b e.before e.input).1 = e.output := by rw [hstep]
  have hafter : (World.step b e.before e.input).2 = e.after := by rw [hstep]
  rw [← houtput, ← hafter]
  exact hrow

/-- A current pair was drawn by an earlier fetch. -/
theorem drawn_before_of_holds {k : Nat} {e : World.Entry}
    (h : (World.trace b start ops)[k]? = some e) {id : Nat} {token : UUID}
    (hholds : e.before.store.Holds id token) :
    ∃ d op, d < k ∧ ops[d]? = some op ∧ op.drawn = some token := by
  have hall : ∀ id token, (Run.final (World.step b) (World.init start) (ops.take k)).store.Holds
      id token → ∃ d op, d < k ∧ ops[d]? = some op ∧ op.drawn = some token := by
    refine Run.trace_induction (World.step b) (m := 0) (n := k)
      (P := fun n w => ∀ id token, w.store.Holds id token →
        ∃ d op, d < n ∧ ops[d]? = some op ∧ op.drawn = some token)
      (Nat.zero_le k) (Nat.le_of_lt (Run.lt_length_of_trace h)) ?_ ?_
    · intro id token ⟨r, hr, _⟩
      cases hr
    · intro n e' _ _ he' ih id token ⟨row, hrow, htoken⟩
      cases (World.trace_rowStep he' id).token_from hrow htoken with
      | inl hdrawn => exact ⟨n, e'.input, Nat.lt_succ_self n, (Run.trace_getElem? he').1, hdrawn⟩
      | inr hheld =>
        obtain ⟨d, op, hd, hop, hdrawn⟩ := ih id token hheld
        exact ⟨d, op, Nat.lt_succ_of_lt hd, hop, hdrawn⟩
  rw [(Run.trace_getElem? h).2.1] at hholds
  exact hall id token hholds

/-- **A dead pair stays dead**: with fresh tokens, a pair that is not current after an
    entry, whose token was drawn by then, is not current before any later entry. -/
theorem dead_pair_stays_dead (hfresh : (drawnTokens ops).Nodup) {d i j : Nat} {op : Op}
    {e e' : World.Entry} {id : Nat} {token : UUID} (hd : ops[d]? = some op)
    (hdrawn : op.drawn = some token) (hdi : d ≤ i)
    (hi : (World.trace b start ops)[i]? = some e) (hj : (World.trace b start ops)[j]? = some e')
    (hij : i < j) (hdead : ¬e.after.store.Holds id token) : ¬e'.before.store.Holds id token := by
  refine Run.trace_between (P := fun w => ¬w.store.Holds id token) hi hj hij hdead ?_
  intro k e'' hik _ hk hbefore ⟨row, hrow, htoken⟩
  cases (World.trace_rowStep hk id).token_from hrow htoken with
  | inl hdrawn' =>
    have hsame : d = k := List.getElem?_unique_of_nodup_filterMap hfresh hd
      (Run.trace_getElem? hk).1 hdrawn hdrawn'
    omega
  | inr hheld => exact hbefore hheld

/-- The pair of a superseded claim is not current any more. -/
theorem not_holds_of_supersedes (hfresh : (drawnTokens ops).Nodup) {i k : Nat}
    {claim since : World.Entry} {id : Nat} {token : UUID}
    (hi : (World.trace b start ops)[i]? = some claim)
    (hk : (World.trace b start ops)[k]? = some since) (hik : i < k)
    (hclaim : Claims claim.input claim.output id token)
    (hsince : Supersedes since.input since.output id) : ¬since.after.store.Holds id token := by
  have hrow := World.trace_rowStep hk id
  intro ⟨row, hafter, htoken⟩
  cases hsince with
  | inl hclaims =>
    -- the later claim has drawn a token of its own
    obtain ⟨token', hclaims⟩ := hclaims
    obtain ⟨hdrawn', row₀, _, _, _, _, _, _, _, hset⟩ := hrow.of_claims hclaims
    have hdrawn := ((World.trace_rowStep hi id).of_claims hclaim).1
    have heq : row = OutboxClient.claimSet row₀ since.before.now token' :=
      Option.some_inj.mp (hafter.symm.trans hset)
    subst heq
    have htokens : token' = token := Option.some_inj.mp htoken
    have hsame : i = k := List.getElem?_unique_of_nodup_filterMap hfresh
      (Run.trace_getElem? hi).1 (Run.trace_getElem? hk).1 hdrawn (htokens ▸ hdrawn')
    omega
  | inr hland =>
    obtain ⟨token', hland⟩ := hland
    have hnone := (hrow.of_landed hland).2 row hafter
    exact absurd (hnone.symm.trans htoken) (by simp)

/-- **Lease-token safety.** In every run whose fetches draw fresh tokens, at most one
    terminal write lands per claim; and a terminal write that carries the pair of a claim
    since superseded is denied, and leaves the dead letters and every row it does not hold
    as they were. -/
theorem lease_token_safety (b : Backend) (start : Int) (ops : List Op)
    (hfresh : (drawnTokens ops).Nodup) :
    let run := World.trace b start ops
    (∀ (i j : Nat) (e e' : World.Entry) (id : Nat) (token : UUID),
      run[i]? = some e → run[j]? = some e' →
      Landed e.input e.output id token → Landed e'.input e'.output id token → i = j) ∧
    (∀ (i k j : Nat) (claim since late : World.Entry) (id : Nat) (token : UUID),
      run[i]? = some claim → run[k]? = some since → run[j]? = some late → i < k → k < j →
      Claims claim.input claim.output id token →
      Supersedes since.input since.output id → late.input.Carries id token →
      Denied late.input late.output id token ∧
      late.after.store.dlqRows = late.before.store.dlqRows ∧
      ∀ id', (∀ token', late.input.Carries id' token' → ¬late.before.store.Holds id' token') →
        late.after.store.row? id' = late.before.store.row? id') := by
  intro run
  have honce : ∀ (i j : Nat) (e e' : World.Entry) (id : Nat) (token : UUID),
      run[i]? = some e → run[j]? = some e' →
      Landed e.input e.output id token → Landed e'.input e'.output id token → ¬i < j := by
    intro i j e e' id token hi hj hland hland' hij
    have hheld := ((World.trace_rowStep hi id).of_landed hland).1
    obtain ⟨d, op, hd, hop, hdrawn⟩ := drawn_before_of_holds hi hheld
    -- the pair died as the first write landed
    have hdead : ¬e.after.store.Holds id token := by
      intro ⟨row, hrow, htoken⟩
      have hnone := ((World.trace_rowStep hi id).of_landed hland).2 row hrow
      exact absurd (hnone.symm.trans htoken) (by simp)
    exact dead_pair_stays_dead hfresh hop hdrawn (Nat.le_of_lt hd) hi hj hij hdead
      ((World.trace_rowStep hj id).of_landed hland').1
  refine ⟨fun i j e e' id token hi hj hland hland' => ?_, ?_⟩
  · have h₁ := honce i j e e' id token hi hj hland hland'
    have h₂ := honce j i e' e id token hj hi hland' hland
    omega
  · intro i k j claim since late id token hi hk hj hik hkj hclaim hsince hcarries
    have hdrawn := ((World.trace_rowStep hi id).of_claims hclaim).1
    -- the pair died as the claim was superseded, and a fresh token does not bring it back
    have hdead := not_holds_of_supersedes hfresh hi hk hik hclaim hsince
    have hmiss := dead_pair_stays_dead hfresh (Run.trace_getElem? hi).1 hdrawn
      (Nat.le_of_lt hik) hk hj hkj hdead
    have hwf := World.trace_wf hj
    have hstep := World.trace_step hj
    have houtput : (World.step b late.before late.input).1 = late.output := by rw [hstep]
    have hafter : (World.step b late.before late.input).2 = late.after := by rw [hstep]
    rw [← houtput, ← hafter]
    exact ⟨World.denied_of_not_holds hwf b hcarries hmiss,
      World.step_dlqRows_of_not_held hwf b hcarries hmiss,
      fun id' hother => World.step_row?_of_not_held hwf b hcarries hother⟩

/-- A row is claimed, its lease expires, it is claimed again, and then both claims write:
    the batch with both pairs deletes the row once, for the live claim. -/
def reclaimedRun : List Op :=
  [.insert 0 { queue := "orders", payload := [] },
   .fetch 7 ["orders"] 10 30 [],
   .tick 31,
   .fetch 8 ["orders"] 10 30 [],
   .deleteBatchWithLease [(1, 7), (1, 8)],
   .deleteWithLease false 1 8 none]

theorem lease_token_safety_reclaimedRun :
    let run := World.trace .postgres 0 reclaimedRun
    ∃ claim since late, run[1]? = some claim ∧ run[3]? = some since ∧ run[4]? = some late ∧
      Claims claim.input claim.output 1 7 ∧ Supersedes since.input since.output 1 ∧
      late.input.Carries 1 7 ∧ Denied late.input late.output 1 7 := by
  intro run
  have hsafe := lease_token_safety .postgres 0 reclaimedRun (by decide)
  obtain ⟨claim, hclaim⟩ : ∃ e, run[1]? = some e := ⟨_, rfl⟩
  obtain ⟨since, hsince⟩ : ∃ e, run[3]? = some e := ⟨_, rfl⟩
  obtain ⟨late, hlate⟩ : ∃ e, run[4]? = some e := ⟨_, rfl⟩
  have hclaims : Claims claim.input claim.output 1 7 := by
    cases hclaim
    exact ⟨rfl, by decide⟩
  have hsupersedes : Supersedes since.input since.output 1 := by
    cases hsince
    exact Or.inl ⟨8, rfl, by decide⟩
  have hcarries : late.input.Carries 1 7 := by
    cases hlate
    show (1, 7) ∈ [(1, 7), (1, 8)]
    decide
  exact ⟨claim, since, late, hclaim, hsince, hlate, hclaims, hsupersedes, hcarries,
    (hsafe.2 1 3 4 claim since late 1 7 hclaim hsince hlate (by decide) (by decide) hclaims
      hsupersedes hcarries).1⟩

end Trace

end Outbox
