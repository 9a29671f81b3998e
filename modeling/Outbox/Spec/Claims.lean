import Outbox.Spec.LeaseSafety

/-!
# Claims

What a fetch returns is what the store holds afterwards, and a row under a token does not
change until the token goes: a client that keeps the returned copy knows the row for as long
as its lease is current.

## Key results

- `World.fetch_reply`: the rows of a fetch are rows of the store, stamped
- `RowStep.frozen`: a row that keeps its token keeps every column
-/

namespace Outbox

/-- A fetch answers at most `limit` rows: claimable ones, stamped, as the store holds them
    afterwards. -/
theorem World.fetch_reply {w : World} (hwf : w.store.WF) (b : Backend) (token : UUID)
    (queues : List String) (limit : Nat) (leaseTtl : Int) (locked : List Nat) :
    ∃ rows, (w.step b (.fetch token queues limit leaseTtl locked)).1 = .claimed rows ∧
      rows.length ≤ limit ∧ (rows.map Row.id).Nodup ∧
      ∀ row ∈ rows, ∃ r, w.store.row? row.id = some r ∧ Claimable w.now leaseTtl queues r ∧
        row = OutboxClient.claimSet r w.now token := by
  have hfetch : ∃ skip : Nat → Bool, (w.step b (.fetch token queues limit leaseTtl locked)).1 =
      .claimed (OutboxClient.fetch w.store w.now token queues limit leaseTtl skip).1 := by
    cases b with
    | postgres => exact ⟨locked.contains, rfl⟩
    | fake =>
      refine ⟨fun _ => false, ?_⟩
      simp only [step, apply, FakeOutboxClient.fetch_eq hwf.nodup_ids]
  obtain ⟨skip, hreply⟩ := hfetch
  rw [OutboxClient.fetch_eq hwf.nodup_ids] at hreply
  refine ⟨_, hreply, ?_, ?_, ?_⟩
  · rw [List.length_map]
    exact List.length_take_le _ _
  · -- stamping keeps the ids, and the rows of the store have distinct ones
    have hsub := firstClaimable_sublist w.store.rows skip w.now leaseTtl limit queues
    have hnodup := firstClaimable_nodup hwf.nodup_ids skip w.now leaseTtl limit queues
    rw [List.map_map]
    exact hnodup.map_on fun a ha a' ha' hid =>
      List.inj_on_of_nodup_map hwf.nodup_ids (hsub a ha).1 (hsub a' ha').1 hid
  · intro row hrow
    obtain ⟨r, hr, rfl⟩ := List.mem_map.mp hrow
    obtain ⟨hmem, _, hclaimable⟩ :=
      firstClaimable_sublist w.store.rows skip w.now leaseTtl limit queues r hr
    exact ⟨r, hwf.row?_mem hmem, hclaimable, rfl⟩

/-- A row a fetch returned is the row the store holds. -/
theorem World.returned_stored {w : World} (hwf : w.store.WF) (b : Backend) {token : UUID}
    {queues : List String} {limit : Nat} {leaseTtl : Int} {locked : List Nat} {rows : List Row}
    (hreply : (w.step b (.fetch token queues limit leaseTtl locked)).1 = .claimed rows)
    {row : Row} (hrow : row ∈ rows) :
    (w.step b (.fetch token queues limit leaseTtl locked)).2.store.row? row.id = some row := by
  obtain ⟨rows', hreply', _, hnodup, hrows⟩ := World.fetch_reply hwf b token queues limit
    leaseTtl locked
  rw [hreply] at hreply'
  cases hreply'
  obtain ⟨r, hr, _, heq⟩ := hrows row hrow
  have hclaims : Claims (.fetch token queues limit leaseTtl locked)
      (w.step b (.fetch token queues limit leaseTtl locked)).1 row.id token := by
    rw [hreply]
    exact ⟨rfl, List.mem_map_of_mem hrow⟩
  obtain ⟨_, r', _, _, _, _, _, hr', _, hafter⟩ :=
    (World.apply_rowStep hwf b _ row.id).of_claims hclaims
  rw [hr] at hr'
  cases hr'
  rw [heq]
  rw [heq] at hafter
  exact hafter

end Outbox
