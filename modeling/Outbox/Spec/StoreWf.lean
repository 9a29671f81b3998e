import Outbox.Native.World

/-!
# Well-formed stores

The constraints `make_outbox_table` declares, as one invariant `Store.WF`, and the
lookup `Store.row?` of a row by its id. A statement filters the rows, rewrites some of
them in place, or appends new ones; each of the three is handled once here, for the
invariant and for the lookup.

## Key results

- `row?_eq_some_iff`: a lookup finds exactly the row with the id
- `row?_filter` / `row?_map` / `row?_append`: lookups after a DELETE, UPDATE, INSERT
- `WF.filter` / `WF.map` / `WF.append`: the three keep the invariant
-/

namespace Outbox

/-! ## Lookups -/

/-- The row of a table with the given id. -/
def lookup (rows : List Row) (id : Nat) : Option Row := rows.find? fun r => r.id == id

/-- With distinct ids, a lookup finds exactly the row with the id. -/
theorem lookup_eq_some_iff {rows : List Row} (hids : (rows.map Row.id).Nodup) {id : Nat}
    {r : Row} : lookup rows id = some r ↔ r ∈ rows ∧ r.id = id := by
  constructor
  · intro h
    exact ⟨List.mem_of_find?_eq_some h, by simpa using List.find?_some h⟩
  · intro ⟨hr, hid⟩
    cases hl : lookup rows id with
    | none =>
      have hne := List.find?_eq_none.mp hl r hr
      simp [hid] at hne
    | some r' =>
      have hr' : r' ∈ rows := List.mem_of_find?_eq_some hl
      have hid' : r'.id = id := by simpa using List.find?_some hl
      rw [List.inj_on_of_nodup_map hids hr' hr (hid'.trans hid.symm)]

theorem lookup_eq_none_iff {rows : List Row} {id : Nat} :
    lookup rows id = none ↔ ∀ r ∈ rows, r.id ≠ id := by
  simp [lookup, List.find?_eq_none]

/-- Rewriting rows in place rewrites what a lookup finds. -/
theorem lookup_map {f : Row → Row} (hf : ∀ r, (f r).id = r.id) (rows : List Row) (id : Nat) :
    lookup (rows.map f) id = (lookup rows id).map f := by
  simp only [lookup, List.find?_map]
  congr 2
  funext r
  simp [hf]

/-- A lookup after a DELETE finds the row only if it was kept. -/
theorem lookup_filter {rows : List Row} (hids : (rows.map Row.id).Nodup) (p : Row → Bool)
    (id : Nat) : lookup (rows.filter p) id = (lookup rows id).filter p := by
  have hids' : ((rows.filter p).map Row.id).Nodup :=
    hids.sublist (List.filter_sublist.map _)
  apply Option.ext
  intro r
  rw [lookup_eq_some_iff hids', List.mem_filter, Option.filter_eq_some_iff,
    lookup_eq_some_iff hids]
  exact ⟨fun ⟨⟨hr, hp⟩, hid⟩ => ⟨⟨hr, hid⟩, hp⟩, fun ⟨⟨hr, hid⟩, hp⟩ => ⟨⟨hr, hp⟩, hid⟩⟩

theorem lookup_append (rows new : List Row) (id : Nat) :
    lookup (rows ++ new) id = (lookup rows id).or (lookup new id) :=
  List.find?_append

namespace Store

/-- The row of the outbox table with the given id. -/
def row? (s : Store) (id : Nat) : Option Row := lookup s.rows id

/-! ## The invariant -/

/-- The constraints of the outbox table: the primary key, drawn below the next id,
    `<table>_lease_ck` and `<table>_timer_id_uq`. -/
structure WF (s : Store) : Prop where
  nodup_ids : (s.rows.map Row.id).Nodup
  ids_lt : ∀ r ∈ s.rows, r.id < s.nextId
  lease_ck : ∀ r ∈ s.rows, r.LeaseCk
  timer_uq : s.rows.Pairwise fun a b =>
    ¬(a.timerId.isSome = true ∧ a.queue = b.queue ∧ a.timerId = b.timerId)

theorem WF.empty : WF {} where
  nodup_ids := by simp
  ids_lt := by simp
  lease_ck := by simp
  timer_uq := List.Pairwise.nil

theorem row?_eq_some_iff {s : Store} (hwf : s.WF) {id : Nat} {r : Row} :
    s.row? id = some r ↔ r ∈ s.rows ∧ r.id = id :=
  lookup_eq_some_iff hwf.nodup_ids

theorem WF.row?_mem {s : Store} (hwf : s.WF) {r : Row} (hr : r ∈ s.rows) :
    s.row? r.id = some r :=
  (row?_eq_some_iff hwf).mpr ⟨hr, rfl⟩

/-- No row has an id the store has yet to draw. -/
theorem WF.row?_of_le {s : Store} (hwf : s.WF) {id : Nat} (h : s.nextId ≤ id) :
    s.row? id = none := by
  refine lookup_eq_none_iff.mpr fun r hr hid => ?_
  have := hwf.ids_lt r hr
  omega

/-- A DELETE keeps the invariant. -/
theorem WF.filter {s : Store} (hwf : s.WF) (p : Row → Bool) {n : Nat} (hn : s.nextId ≤ n)
    {dlq : List DlqRow} : WF { rows := s.rows.filter p, nextId := n, dlqRows := dlq } where
  nodup_ids := hwf.nodup_ids.sublist (List.filter_sublist.map _)
  ids_lt r hr := Nat.lt_of_lt_of_le (hwf.ids_lt r (List.mem_of_mem_filter hr)) hn
  lease_ck r hr := hwf.lease_ck r (List.mem_of_mem_filter hr)
  timer_uq := hwf.timer_uq.filter p

/-- An UPDATE that keeps ids and timer keys and sets a whole lease or none keeps the
    invariant. -/
theorem WF.map {s : Store} (hwf : s.WF) {f : Row → Row} (hid : ∀ r, (f r).id = r.id)
    (hqueue : ∀ r, (f r).queue = r.queue) (htimer : ∀ r, (f r).timerId = r.timerId)
    (hck : ∀ r, r.LeaseCk → (f r).LeaseCk) {n : Nat} (hn : s.nextId ≤ n)
    {dlq : List DlqRow} : WF { rows := s.rows.map f, nextId := n, dlqRows := dlq } where
  nodup_ids := by
    have hmap : (s.rows.map f).map Row.id = s.rows.map Row.id := by
      rw [List.map_map]
      exact List.map_congr_left fun r _ => hid r
    rw [hmap]
    exact hwf.nodup_ids
  ids_lt := by
    intro r hr
    obtain ⟨r₀, hr₀, rfl⟩ := List.mem_map.mp hr
    rw [hid]
    exact Nat.lt_of_lt_of_le (hwf.ids_lt r₀ hr₀) hn
  lease_ck := by
    intro r hr
    obtain ⟨r₀, hr₀, rfl⟩ := List.mem_map.mp hr
    exact hck r₀ (hwf.lease_ck r₀ hr₀)
  timer_uq := by
    rw [List.pairwise_map]
    simpa only [hqueue, htimer] using hwf.timer_uq

/-- An INSERT of fresh rows, unleased and on free timer keys, keeps the invariant. -/
theorem WF.append {s : Store} (hwf : s.WF) {new : List Row} {n : Nat} (hn : s.nextId ≤ n)
    (hids : (new.map Row.id).Nodup) (hge : ∀ r ∈ new, s.nextId ≤ r.id)
    (hlt : ∀ r ∈ new, r.id < n) (hck : ∀ r ∈ new, r.LeaseCk)
    (huq : (s.rows ++ new).Pairwise fun a b =>
      ¬(a.timerId.isSome = true ∧ a.queue = b.queue ∧ a.timerId = b.timerId))
    {dlq : List DlqRow} : WF { rows := s.rows ++ new, nextId := n, dlqRows := dlq } where
  nodup_ids := by
    rw [List.map_append, List.nodup_append]
    refine ⟨hwf.nodup_ids, hids, ?_⟩
    intro a ha b hb hab
    obtain ⟨r, hr, rfl⟩ := List.mem_map.mp ha
    obtain ⟨r', hr', rfl⟩ := List.mem_map.mp hb
    have h₁ := hwf.ids_lt r hr
    have h₂ := hge r' hr'
    omega
  ids_lt := by
    intro r hr
    rw [List.mem_append] at hr
    cases hr with
    | inl h => exact Nat.lt_of_lt_of_le (hwf.ids_lt r h) hn
    | inr h => exact hlt r h
  lease_ck := by
    intro r hr
    rw [List.mem_append] at hr
    cases hr with
    | inl h => exact hwf.lease_ck r h
    | inr h => exact hck r h
  timer_uq := huq

/-- Rows with one lease and id: at most one matches a terminal write. -/
theorem WF.leased_unique {s : Store} (hwf : s.WF) (messageId : Nat) (token : UUID) :
    s.rows.Pairwise fun a b => ¬(OutboxClient.leased messageId token a = true ∧
      OutboxClient.leased messageId token b = true) := by
  have hne : s.rows.Pairwise fun a b => a.id ≠ b.id := List.pairwise_map.mp hwf.nodup_ids
  refine hne.imp fun hab ⟨ha, hb⟩ => hab ?_
  simp only [OutboxClient.leased, Bool.and_eq_true, beq_iff_eq] at ha hb
  exact ha.1.trans hb.1.symm

/-- At most one row holds a timer key. -/
theorem WF.holdsTimer_unique {s : Store} (hwf : s.WF) (queue timerId : String) :
    s.rows.Pairwise fun a b => ¬(a.holdsTimer queue timerId = true ∧
      b.holdsTimer queue timerId = true) := by
  refine hwf.timer_uq.imp fun hab ⟨ha, hb⟩ => hab ?_
  simp only [Row.holdsTimer, Bool.and_eq_true, beq_iff_eq] at ha hb
  exact ⟨by simp [ha.2], ha.1.trans hb.1.symm, ha.2.trans hb.2.symm⟩

end Store

end Outbox
