import Outbox.Native.FakeCalls
import Outbox.Spec.WorldStep

/-!
# The fake keeps its representation

Whatever sequence of calls a `FakeOutboxClient` has served, it is a well-formed outbox. A
call raises and leaves the rows alone, or it does what an operation of the client surface
does to them, or it is the claim of the sync mode; that is all the invariant needs to know
of the ten entry points.

## Key results

- `FakeCall.apply_did`: the three things a call can do
- `FakeStore.did`: each keeps the invariant, and what later states owe to earlier ones
- `fake_store_invariant`: the invariant of every reachable state
-/

namespace Outbox

/-! ## What a call can do -/

/-- What a call did to the rows, with the exception it raised, if any. -/
inductive FakeCall.Did (s : Store) : Option Error → Store → Prop where
  | raised (e : Error) : Did s (some e) s
  | ran (now : Int) (op : Op) : Did s none ((World.mk s now).apply .fake op).2
  | claimed (now : Int) (token : UUID) (rowId : Nat) :
      Did s none (FakeOutboxClient.syncDispatch s now token rowId).2

namespace FakeOutboxClient

/-- `feed` stores what an insert stores that ignores conflicts. -/
theorem feed_eq_insert (s : Store) (now : Int) {args : FeedArgs}
    (haware : (args.nextAttemptAt.isSome && args.naive) = false) :
    feed s now args = insert s now
      { queue := args.queue
        payload := args.payload
        headers := args.headers
        activateAt := args.nextAttemptAt
        timerId := args.timerId } := by
  have hdue : ∀ s : Store, append s now args.queue args.payload args.headers args.nextAttemptAt
      args.timerId = append s now args.queue args.payload args.headers
        (some (args.nextAttemptAt.getD now)) args.timerId := fun _ => rfl
  unfold feed insert
  rw [if_neg (by simp [haware])]
  cases hvalid : validateLikePostgres args.queue args.timerId args.headers with
  | some e => rfl
  | none =>
    cases s.rows.find? (holdsKey args.queue args.timerId) <;>
      simp only [store, hdue] <;> rfl

/-- A delete that raises leaves the rows alone. -/
theorem deleteWithLease_raised {s : Store} {now : Int} {dlqEnabled : Bool} {messageId : Nat}
    {token : UUID} {payload : Option DlqPayload} {e : Error}
    (h : (deleteWithLease s now dlqEnabled messageId token payload).1 = .error e) :
    (deleteWithLease s now dlqEnabled messageId token payload).2 = s := by
  unfold deleteWithLease at h ⊢
  cases hfind : s.rows.find? (holdsLease messageId token) with
  | none => rfl
  | some row =>
    simp only [hfind] at h ⊢
    cases payload with
    | none => cases h
    | some p =>
      cases dlqEnabled with
      | false => rfl
      | true =>
        obtain ⟨reason, exc⟩ := p
        cases reason with
        | none => rfl
        | some reason =>
          cases exc with
          | none => rfl
          | some exc => cases h

theorem insert_ok (s : Store) (now : Int) {args : InsertArgs}
    (hvalid : validateLikePostgres args.queue args.timerId args.headers = none) :
    ∃ rowId, (insert s now args).1 = .ok rowId := by
  unfold insert
  rw [hvalid]
  dsimp only
  split <;> exact ⟨_, rfl⟩

end FakeOutboxClient

namespace FakeCall

variable (outOfRange : Int → Bool) (dlqEnabled : Bool)

/-- Every call does one of the three. -/
theorem apply_did (s : Store) (call : FakeCall) :
    Did s (apply outOfRange dlqEnabled s call).1 (apply outOfRange dlqEnabled s call).2 := by
  have hinsert : ∀ (now : Int) (args : InsertArgs),
      FakeOutboxClient.validateLikePostgres args.queue args.timerId args.headers = none →
      Did s (outcome (FakeOutboxClient.insert s now args)).1
        (outcome (FakeOutboxClient.insert s now args)).2 := by
    intro now args hvalid
    obtain ⟨rowId, hok⟩ := FakeOutboxClient.insert_ok s now hvalid
    unfold outcome
    rw [hok]
    exact .ran now (.insert now args)
  cases call with
  | feed now args =>
    simp only [apply]
    by_cases haware : (args.nextAttemptAt.isSome && args.naive) = true
    · have hraised : FakeOutboxClient.feed s now args =
          (.error (.valueError "feed() requires next_attempt_at to be timezone-aware"), s) := by
        unfold FakeOutboxClient.feed
        rw [if_pos haware]
      rw [hraised]
      exact .raised _
    · have haware : (args.nextAttemptAt.isSome && args.naive) = false := by simpa using haware
      cases hvalid : FakeOutboxClient.validateLikePostgres args.queue args.timerId args.headers with
      | some e =>
        have hraised : FakeOutboxClient.feed s now args = (.error e, s) := by
          unfold FakeOutboxClient.feed
          rw [if_neg (by simp [haware]), hvalid]
        rw [hraised]
        exact .raised e
      | none =>
        rw [FakeOutboxClient.feed_eq_insert s now haware]
        exact hinsert now _ hvalid
  | insert now args =>
    simp only [apply]
    split
    · exact .raised _
    · split
      · exact .raised _
      · exact hinsert now args (by assumption)
  | insertBatch now args =>
    simp only [apply]
    split
    · exact .raised _
    · rename_i hvalid
      split
      · exact .raised _
      · have hok : (FakeOutboxClient.insertBatch s now args).1 = .ok () := by
          unfold FakeOutboxClient.insertBatch
          rw [hvalid]
        unfold outcome
        rw [hok]
        exact .ran now (.insertBatch now args)
  | fetch now token queues limit leaseTtl =>
    simp only [apply]
    split
    · exact .raised _
    · exact .ran now (.fetch token queues limit leaseTtl [])
  | deleteWithLease now messageId token payload =>
    simp only [apply, outcome]
    split
    · rename_i e hraised
      rw [FakeOutboxClient.deleteWithLease_raised hraised]
      exact .raised e
    · exact .ran now (.deleteWithLease dlqEnabled messageId token payload)
  | deleteBatchWithLease pairs => exact .ran 0 (.deleteBatchWithLease pairs)
  | markPendingWithLease now messageId token args =>
    simp only [apply]
    split
    · exact .raised _
    · exact .ran now (.markPendingWithLease messageId token args)
  | cancelTimer queue timerId session =>
    simp only [apply]
    split
    · exact .raised _
    · exact .ran 0 (.cancelTimer queue timerId)
  | syncDispatch now token rowId => exact .claimed now token rowId

/-- A call that raises leaves the store as it was. -/
theorem apply_raised {s : Store} {call : FakeCall} {e : Error}
    (h : (apply outOfRange dlqEnabled s call).1 = some e) :
    (apply outOfRange dlqEnabled s call).2 = s := by
  have hdid := apply_did outOfRange dlqEnabled s call
  generalize (apply outOfRange dlqEnabled s call).1 = raised at h hdid
  generalize (apply outOfRange dlqEnabled s call).2 = s' at hdid ⊢
  cases hdid with
  | raised _ => rfl
  | ran _ _ => cases h
  | claimed _ _ _ => cases h

end FakeCall

/-! ## The invariant -/

/-- The representation invariant: a well-formed outbox whose leased rows were delivered. -/
structure FakeStore (s : Store) : Prop where
  wf : s.WF
  delivered : ∀ id row, s.row? id = some row → row.acquiredToken ≠ none →
    1 ≤ row.deliveriesCount

/-- What a later state owes to an earlier one: ids are drawn once, and deliveries counted on. -/
structure Store.Later (s s' : Store) : Prop where
  nextId : s.nextId ≤ s'.nextId
  gone : ∀ id < s.nextId, s.row? id = none → s'.row? id = none
  deliveries : ∀ id row row', s.row? id = some row → s'.row? id = some row' →
    row.deliveriesCount ≤ row'.deliveriesCount

theorem Store.Later.refl (s : Store) : s.Later s where
  nextId := Nat.le_refl _
  gone _ _ h := h
  deliveries id row row' h h' := by
    rw [h, Option.some_inj] at h'
    rw [h']

theorem Store.Later.trans {s s' s'' : Store} (hwf : s.WF) (h : s.Later s') (h' : s'.Later s'') :
    s.Later s'' where
  nextId := Nat.le_trans h.nextId h'.nextId
  gone id hid hnone := h'.gone id (Nat.lt_of_lt_of_le hid h.nextId) (h.gone id hid hnone)
  deliveries id row row'' hrow hrow'' := by
    obtain ⟨hmem, hid⟩ := (Store.row?_eq_some_iff hwf).mp hrow
    cases hmid : s'.row? id with
    | none =>
      -- a row that is gone in between is gone at the end
      have hlt := hid ▸ hwf.ids_lt row hmem
      have hgone := h'.gone id (Nat.lt_of_lt_of_le hlt h.nextId) hmid
      rw [hgone] at hrow''
      cases hrow''
    | some row' =>
      exact Nat.le_trans (h.deliveries id row row' hrow hmid)
        (h'.deliveries id row' row'' hmid hrow'')

namespace FakeStore

variable {s : Store}

/-- A sync-mode claim rewrites the one row with the id. -/
theorem syncDispatch_eq (hs : FakeStore s) (now : Int) (token : UUID) (rowId : Nat) :
    (FakeOutboxClient.syncDispatch s now token rowId).2 =
      { s with rows := s.rows.map fun r =>
          if r.id == rowId then FakeOutboxClient.claimFakeRow r now token else r } := by
  unfold FakeOutboxClient.syncDispatch
  cases hfind : s.rows.find? fun r => r.id == rowId with
  | none =>
    have hsame : ∀ r ∈ s.rows, (if r.id == rowId then
        FakeOutboxClient.claimFakeRow r now token else r) = r := by
      intro r hr
      rw [if_neg (List.find?_eq_none.mp hfind r hr)]
    dsimp only
    rw [List.map_congr_left hsame, List.map_id']
  | some row =>
    have hunique : s.rows.Pairwise fun a b =>
        ¬((a.id == rowId) = true ∧ (b.id == rowId) = true) := by
      refine (List.pairwise_map.mp hs.wf.nodup_ids).imp fun hab ⟨ha, hb⟩ => hab ?_
      rw [beq_iff_eq] at ha hb
      exact ha.trans hb.symm
    dsimp only
    rw [List.updateFirst_eq_map _ hunique]

/-- The row with the id after a sync-mode claim. -/
theorem row?_syncDispatch (hs : FakeStore s) (now : Int) (token : UUID) (rowId id : Nat) :
    (FakeOutboxClient.syncDispatch s now token rowId).2.row? id =
      (s.row? id).map fun r =>
        if r.id == rowId then FakeOutboxClient.claimFakeRow r now token else r := by
  rw [hs.syncDispatch_eq]
  exact lookup_map (fun r => by split <;> rfl) s.rows id

/-- An operation that passes through `RowStep` leaves a leased row delivered. -/
theorem delivered_of_rowStep {id nextId : Nat} {now : Int} {op : Op} {reply : Reply}
    {r r' : Option Row} (h : RowStep id nextId now op reply r r')
    (hr : ∀ row, r = some row → row.acquiredToken ≠ none → 1 ≤ row.deliveriesCount) :
    ∀ row, r' = some row → row.acquiredToken ≠ none → 1 ≤ row.deliveriesCount := by
  intro row hrow hleased
  cases h with
  | same _ _ _ => exact hr row hrow hleased
  | inserted _ => cases hrow; exact absurd rfl hleased
  | insertedBatch _ _ => cases hrow; exact absurd rfl hleased
  | extended _ hfree _ _ _ _ => cases hrow; exact absurd hfree hleased
  | @claimed _ _ _ _ _ _ old _ _ =>
    cases hrow
    exact Nat.le_add_left 1 old.deliveriesCount
  | rescheduled _ => cases hrow; exact absurd rfl hleased
  | deleted _ => cases hrow
  | deletedBatch _ _ _ => cases hrow
  | cancelled _ _ => cases hrow

/-- ... and takes no delivery back. -/
theorem deliveries_of_rowStep {id nextId : Nat} {now : Int} {op : Op} {reply : Reply}
    {row row' : Row} (h : RowStep id nextId now op reply (some row) (some row')) :
    row.deliveriesCount ≤ row'.deliveriesCount := by
  cases h with
  | same _ _ _ => exact Nat.le_refl _
  | extended _ _ _ _ _ _ => exact Nat.le_refl _
  | claimed _ _ => exact Nat.le_succ _
  | rescheduled _ => exact Nat.le_refl _

/-- Whatever a call did, it kept the invariant and what it owes to the state before. -/
theorem did (hs : FakeStore s) {raised : Option Error} {s' : Store}
    (h : FakeCall.Did s raised s') : FakeStore s' ∧ s.Later s' := by
  cases h with
  | raised e => exact ⟨hs, .refl s⟩
  | ran now op =>
    have hwf : (World.mk s now).store.WF := hs.wf
    have hrow := World.apply_rowStep hwf .fake op
    refine ⟨⟨World.apply_wf hwf .fake op, fun id row hrow' => ?_⟩,
      ⟨World.apply_nextId_le hwf .fake op, fun id hid hnone => ?_, fun id row row' h h' => ?_⟩⟩
    · exact delivered_of_rowStep (hrow id) (hs.delivered id) row hrow'
    · -- an id below the next one that is free stays free
      have hstep := hrow id
      rw [show (World.mk s now).store.row? id = none from hnone] at hstep
      generalize ((World.mk s now).apply .fake op).2.row? id = r' at hstep ⊢
      generalize ((World.mk s now).apply .fake op).1 = reply at hstep
      cases hstep with
      | same _ _ _ => rfl
      | inserted hfresh => exact absurd hfresh (Nat.not_le_of_lt hid)
      | insertedBatch hfresh _ => exact absurd hfresh (Nat.not_le_of_lt hid)
    · -- a row that stays is not delivered less often
      have hstep := hrow id
      rw [show (World.mk s now).store.row? id = some row from h, h'] at hstep
      exact deliveries_of_rowStep hstep
  | claimed now token rowId =>
    have hstore := hs.syncDispatch_eq now token rowId
    have hlookup := hs.row?_syncDispatch now token rowId
    refine ⟨⟨?_, fun id row hrow hleased => ?_⟩,
      ⟨?_, fun id _ hnone => ?_, fun id row row' h h' => ?_⟩⟩
    · rw [hstore]
      -- stamping a row keeps its id, its queue and its timer
      refine hs.wf.map ?_ ?_ ?_ ?_ (Nat.le_refl _)
      · intro r; split <;> rfl
      · intro r; split <;> rfl
      · intro r; split <;> rfl
      · intro r hck
        split
        · simp [Row.LeaseCk, FakeOutboxClient.claimFakeRow]
        · exact hck
    · rw [hlookup] at hrow
      obtain ⟨old, hold, rfl⟩ := Option.map_eq_some_iff.mp hrow
      split at hleased
      · rename_i hid
        rw [if_pos hid]
        exact Nat.le_add_left 1 old.deliveriesCount
      · rename_i hid
        rw [if_neg hid]
        exact hs.delivered id old hold hleased
    · rw [hstore]
    · rw [hlookup, hnone]
      rfl
    · rw [hlookup, h, Option.map_some, Option.some_inj] at h'
      subst h'
      split
      · exact Nat.le_succ _
      · exact Nat.le_refl _

theorem empty : FakeStore {} where
  wf := .empty
  delivered id row h := by cases h

end FakeStore

/-! ## Runs -/

/-- The state of a new fake after a sequence of calls. -/
def FakeCall.final (outOfRange : Int → Bool) (dlqEnabled : Bool) (calls : List FakeCall) : Store :=
  Run.final (FakeCall.apply outOfRange dlqEnabled) {} calls

theorem FakeCall.final_fakeStore (outOfRange : Int → Bool) (dlqEnabled : Bool)
    (calls : List FakeCall) : FakeStore (final outOfRange dlqEnabled calls) :=
  Run.final_invariant (fun s call hs => (hs.did (apply_did outOfRange dlqEnabled s call)).1)
    FakeStore.empty calls

/-- Every state is later than those before it. -/
theorem FakeCall.final_later (outOfRange : Int → Bool) (dlqEnabled : Bool)
    (calls more : List FakeCall) :
    (final outOfRange dlqEnabled calls).Later (final outOfRange dlqEnabled (calls ++ more)) := by
  have hstart := final_fakeStore outOfRange dlqEnabled calls
  have happend : final outOfRange dlqEnabled (calls ++ more) =
      Run.final (apply outOfRange dlqEnabled) (final outOfRange dlqEnabled calls) more :=
    List.foldl_append
  have hrun := Run.final_invariant
    (P := fun s => FakeStore s ∧ (final outOfRange dlqEnabled calls).Later s)
    (fun s call ⟨hs, hlater⟩ =>
      have hdid := hs.did (apply_did outOfRange dlqEnabled s call)
      ⟨hdid.1, hlater.trans hstart.wf hdid.2⟩)
    ⟨hstart, .refl _⟩ more
  rw [happend]
  exact hrun.2

/-- **The representation invariant of the fake.** In every state that a sequence of calls
    leads to, raising ones included: row ids are distinct, below the next id, and an id whose
    row is gone never comes back; a timer key has at most one live row; a lease is fully set
    or fully unset; a leased row was delivered, and deliveries are never taken back; and a
    further call that raises changes neither the rows nor the dead-letter rows. -/
theorem fake_store_invariant (outOfRange : Int → Bool) (dlqEnabled : Bool)
    (calls : List FakeCall) :
    let s := FakeCall.final outOfRange dlqEnabled calls
    (s.rows.map Row.id).Nodup ∧
    (∀ row ∈ s.rows, row.id < s.nextId) ∧
    (∀ row ∈ s.rows, ∀ row' ∈ s.rows, row.timerId.isSome = true → row.queue = row'.queue →
      row.timerId = row'.timerId → row = row') ∧
    (∀ row ∈ s.rows, row.acquiredToken = none ↔ row.acquiredAt = none) ∧
    (∀ row ∈ s.rows, row.acquiredToken ≠ none → 1 ≤ row.deliveriesCount) ∧
    (∀ more, let s' := FakeCall.final outOfRange dlqEnabled (calls ++ more)
      (∀ id < s.nextId, (∀ row ∈ s.rows, row.id ≠ id) → ∀ row ∈ s'.rows, row.id ≠ id) ∧
      ∀ row ∈ s.rows, ∀ row' ∈ s'.rows, row.id = row'.id →
        row.deliveriesCount ≤ row'.deliveriesCount) ∧
    ∀ call e, (FakeCall.apply outOfRange dlqEnabled s call).1 = some e →
      (FakeCall.apply outOfRange dlqEnabled s call).2.rows = s.rows ∧
      (FakeCall.apply outOfRange dlqEnabled s call).2.dlqRows = s.dlqRows := by
  intro s
  have hs : FakeStore s := FakeCall.final_fakeStore outOfRange dlqEnabled calls
  refine ⟨hs.wf.nodup_ids, hs.wf.ids_lt, ?_, hs.wf.lease_ck, ?_, ?_, ?_⟩
  · intro row hrow row' hrow' hkeyed hqueue htimer
    obtain ⟨timerId, hid⟩ := Option.isSome_iff_exists.mp hkeyed
    refine List.eq_of_pairwise_not (hs.wf.holdsTimer_unique row.queue timerId) hrow hrow' ?_ ?_
    · simp [Row.holdsTimer, hid]
    · simp [Row.holdsTimer, ← hqueue, ← htimer, hid]
  · intro row hrow hleased
    exact hs.delivered row.id row (hs.wf.row?_mem hrow) hleased
  · intro more s'
    have hlater : s.Later s' := FakeCall.final_later outOfRange dlqEnabled calls more
    have hs' : FakeStore s' := FakeCall.final_fakeStore outOfRange dlqEnabled (calls ++ more)
    refine ⟨fun id hid hgone => ?_, fun row hrow row' hrow' hid => ?_⟩
    · exact lookup_eq_none_iff.mp (hlater.gone id hid (lookup_eq_none_iff.mpr hgone))
    · exact hlater.deliveries row.id row row' (hs.wf.row?_mem hrow)
        (hid ▸ hs'.wf.row?_mem hrow')
  · intro call e hraised
    rw [FakeCall.apply_raised outOfRange dlqEnabled hraised]
    exact ⟨rfl, rfl⟩

end Outbox
