import Outbox.Spec.ClientAgreement

/-!
# What one statement does to one row

`RowStep` says, for a fixed row id, everything an operation can do to the row with that
id and what its reply says about it. It is the abstract view of the outbox: every claim
about leases, timers and retry accounting follows the life of one row through it. This
file proves that each statement of `OutboxClient` is a `RowStep` of every row.

## Key results

- `insert_rowStep`, `fetch_rowStep`, `deleteWithLease_rowStep`, ...: one per statement
- `deleteWithLease_of_acceptable`, `deleteBatchWithLease_spec`, `markPendingWithLease_eq`:
  a terminal write lands iff the store holds its pair
-/

namespace Outbox

/-! ## What a reply says about a row -/

/-- The operation is a terminal write that carries the pair. -/
def Op.Carries (op : Op) (id : Nat) (token : UUID) : Prop :=
  match op with
  | .deleteWithLease _ messageId acquiredToken _ => messageId = id ∧ acquiredToken = token
  | .deleteBatchWithLease pairs => (id, token) ∈ pairs
  | .markPendingWithLease messageId acquiredToken _ => messageId = id ∧ acquiredToken = token
  | _ => False

/-- The operation is a terminal write that succeeded for the pair. -/
def Landed (op : Op) (reply : Reply) (id : Nat) (token : UUID) : Prop :=
  match op, reply with
  | .deleteWithLease _ messageId acquiredToken _, .deleted landed =>
    (messageId = id ∧ acquiredToken = token) ∧ landed = .ok true
  | .deleteBatchWithLease _, .deletedBatch deleted => (id, token) ∈ deleted
  | .markPendingWithLease messageId acquiredToken _, .rescheduled landed =>
    (messageId = id ∧ acquiredToken = token) ∧ landed = true
  | _, _ => False

/-- The operation is a fetch that returned the row under the token. -/
def Claims (op : Op) (reply : Reply) (id : Nat) (token : UUID) : Prop :=
  match op, reply with
  | .fetch drawn _ _ _ _, .claimed rows => drawn = token ∧ id ∈ rows.map Row.id
  | _, _ => False

/-- The store holds the row under the token. -/
def Store.Holds (s : Store) (id : Nat) (token : UUID) : Prop :=
  ∃ r, s.row? id = some r ∧ r.acquiredToken = some token

instance (s : Store) (id : Nat) (token : UUID) : Decidable (s.Holds id token) :=
  decidable_of_iff ((s.row? id).any fun r => decide (r.acquiredToken = some token))
    (by simp [Store.Holds, Option.any_eq_true])

/-! ## The step of one row -/

/-- A row as an INSERT leaves it. -/
def freshRow (id : Nat) (queue : String) (payload : Bytes) (headers : Option Headers)
    (timerId : Option String) (createdAt nextAttemptAt : Int) : Row :=
  { id := id
    queue := queue
    payload := payload
    headers := headers
    createdAt := createdAt
    nextAttemptAt := nextAttemptAt
    timerId := timerId }

/-- A row as `mark_pending_with_lease` leaves it. -/
def pendingSet (r : Row) (now : Int) (args : MarkPendingArgs) : Row :=
  { r with
    nextAttemptAt := now + max 0 args.delaySeconds
    attemptsCount := args.attemptsCount
    firstAttemptAt := args.firstAttemptAt
    lastAttemptAt := args.lastAttemptAt
    acquiredAt := none
    acquiredToken := none }

/-- One operation at clock `now` on a store that draws ids from `nextId`, seen from the
    row with the given id. -/
inductive RowStep (id nextId : Nat) (now : Int) :
    Op → Reply → Option Row → Option Row → Prop where
  /-- The operation passes the row by, and its reply does not name it. -/
  | same {op : Op} {reply : Reply} {r : Option Row}
      (hclaims : ∀ token, ¬Claims op reply id token)
      (hlanded : ∀ token, ¬Landed op reply id token)
      (hinserted : reply ≠ .inserted (.ok (some id))) : RowStep id nextId now op reply r r
  | inserted {at_ : Int} {args : InsertArgs} (hfresh : nextId ≤ id) :
      RowStep id nextId now (.insert at_ args) (.inserted (.ok (some id))) none
        (some (freshRow id args.queue args.payload args.headers args.timerId at_
          (args.deadline at_)))
  | insertedBatch {at_ : Int} {args : InsertBatchArgs} {row : Bytes × Option Headers}
      (hfresh : nextId ≤ id) (hrow : row ∈ args.rows) :
      RowStep id nextId now (.insertBatch at_ args) (.insertedBatch (.ok ())) none
        (some (freshRow id args.queue row.1 row.2 none at_
          ((resolveNextAttemptClientSide args.activateIn args.activateAt at_).getD at_)))
  | extended {at_ : Int} {args : InsertArgs} {r new : Row}
      (hmode : args.timerConflict = .extend) (hfree : r.acquiredToken = none)
      (hqueue : r.queue = args.queue) (htimer : r.timerId = args.timerId)
      (hkeyed : args.timerId.isSome = true)
      (hnew : ∃ s : Store, new = OutboxClient.excluded s at_ args) :
      RowStep id nextId now (.insert at_ args) (.inserted (.ok (some id))) (some r)
        (some (OutboxClient.extendSet r new))
  | claimed {token : UUID} {queues : List String} {limit : Nat} {leaseTtl : Int}
      {locked : List Nat} {rows : List Row} {r : Row}
      (hmem : OutboxClient.claimSet r now token ∈ rows)
      (hclaimable : Claimable now leaseTtl queues r) :
      RowStep id nextId now (.fetch token queues limit leaseTtl locked) (.claimed rows) (some r)
        (some (OutboxClient.claimSet r now token))
  | rescheduled {token : UUID} {args : MarkPendingArgs} {r : Row}
      (htoken : r.acquiredToken = some token) :
      RowStep id nextId now (.markPendingWithLease id token args) (.rescheduled true) (some r)
        (some (pendingSet r now args))
  | deleted {dlqTable : Bool} {token : UUID} {payload : Option DlqPayload} {r : Row}
      (htoken : r.acquiredToken = some token) :
      RowStep id nextId now (.deleteWithLease dlqTable id token payload) (.deleted (.ok true))
        (some r)
        none
  | deletedBatch {pairs : List (Nat × UUID)} {deleted : Finset (Nat × UUID)} {token : UUID}
      {r : Row} (htoken : r.acquiredToken = some token) (hmem : (id, token) ∈ pairs)
      (hdeleted : ∀ t, (id, t) ∈ deleted ↔ t = token) :
      RowStep id nextId now (.deleteBatchWithLease pairs) (.deletedBatch deleted) (some r) none
  | cancelled {queue timerId : String} {r : Row}
      (hkey : r.holdsTimer queue timerId = true) (hfree : r.acquiredToken = none) :
      RowStep id nextId now (.cancelTimer queue timerId) (.cancelled true) (some r) none

/-- An operation whose reply names no row leaves every row alone. -/
private theorem RowStep.same_of {id nextId : Nat} {now : Int} {op : Op} {reply : Reply}
    {r r' : Option Row} (h : r' = r) (hclaims : ∀ token, ¬Claims op reply id token)
    (hlanded : ∀ token, ¬Landed op reply id token)
    (hinserted : reply ≠ .inserted (.ok (some id))) : RowStep id nextId now op reply r r' :=
  h ▸ .same hclaims hlanded hinserted

namespace OutboxClient

variable {s : Store} (hwf : s.WF) (id : Nat) (now : Int)
include hwf

/-! ## Inserting -/

theorem insert_rowStep (at_ : Int) (args : InsertArgs) :
    RowStep id s.nextId now (.insert at_ args) (.inserted (insert s at_ args).1) (s.row? id)
      ((insert s at_ args).2.row? id) := by
  unfold insert
  split
  · exact .same (by simp [Claims]) (by simp [Landed]) (by simp)
  · cases hfind : s.rows.find? (conflicts (excluded s at_ args)) with
    | none =>
      simp only [hfind]
      have hafter : lookup (s.rows ++ [excluded s at_ args]) id =
          (s.row? id).or (lookup [excluded s at_ args] id) := lookup_append _ _ _
      by_cases hid : s.nextId = id
      · -- the row with this id is the new one
        have hbefore : s.row? id = none := hwf.row?_of_le (Nat.le_of_eq hid)
        have hrow : lookup [excluded s at_ args] id =
            some (freshRow id args.queue args.payload args.headers args.timerId at_
              (args.deadline at_)) := by
          simp only [lookup, excluded, freshRow, InsertArgs.deadline,
            resolveNextAttemptClientSide, hid]
          cases args.activateIn <;> simp
        have hreply : (excluded s at_ args).id = id := hid
        show RowStep id s.nextId now _ _ (s.row? id) (lookup _ id)
        rw [hafter, hbefore, hrow, hreply]
        exact .inserted (Nat.le_of_eq hid)
      · have hrow : lookup [excluded s at_ args] id = none := by
          simp [lookup, excluded, hid]
        refine .same_of ?_ (by simp [Claims]) (by simp [Landed]) ?_
        · show lookup _ id = s.row? id
          rw [hafter, hrow, Option.or_none]
        · simpa [excluded] using hid
    | some t =>
      simp only [hfind]
      have ht : t ∈ s.rows := List.mem_of_find?_eq_some hfind
      have hconf : conflicts (excluded s at_ args) t = true := List.find?_some hfind
      cases hmode : args.timerConflict with
      | ignore => exact .same (by simp [Claims]) (by simp [Landed]) (by simp)
      | extend =>
        simp only
        split
        · rename_i hfree
          have hafter := lookup_map
            (f := fun r => if conflicts (excluded s at_ args) r then
              extendSet r (excluded s at_ args) else r)
            (fun r => by split <;> rfl) s.rows id
          by_cases hid : t.id = id
          · -- the conflicting row is the live timer
            have hbefore : s.row? id = some t := hid ▸ hwf.row?_mem ht
            have hset : lookup (s.rows.map fun r => if conflicts (excluded s at_ args) r then
                extendSet r (excluded s at_ args) else r) id =
                some (extendSet t (excluded s at_ args)) := by
              have hlive : lookup s.rows id = some t := hbefore
              rw [hafter, hlive, Option.map_some, if_pos hconf]
            show RowStep id s.nextId now _ _ (s.row? id) (lookup _ id)
            rw [hbefore, hset, hid]
            simp only [conflicts, Bool.and_eq_true, beq_iff_eq, excluded] at hconf
            exact .extended hmode (Option.isNone_iff_eq_none.mp hfree) hconf.1.2 hconf.2
              hconf.1.1 ⟨s, rfl⟩
          · refine .same_of ?_ (by simp [Claims]) (by simp [Landed]) (by simpa using hid)
            show lookup _ id = s.row? id
            rw [hafter]
            cases hrow : s.row? id with
            | none =>
              have hnone : lookup s.rows id = none := hrow
              rw [hnone, Option.map_none]
            | some r =>
              have hsome : lookup s.rows id = some r := hrow
              obtain ⟨hr, hrid⟩ := (Store.row?_eq_some_iff hwf).mp hrow
              have hmiss : ¬conflicts (excluded s at_ args) r = true := by
                intro hc
                have heq : r = t := List.eq_of_pairwise_not
                  (FakeOutboxClient.conflicts_unique hwf _) hr ht hc hconf
                exact hid (heq ▸ hrid)
              rw [hsome, Option.map_some, if_neg hmiss]
        · exact .same (by simp [Claims]) (by simp [Landed]) (by simp)

theorem insertBatch_rowStep (at_ : Int) (args : InsertBatchArgs) :
    RowStep id s.nextId now (.insertBatch at_ args) (.insertedBatch (insertBatch s at_ args).1)
      (s.row? id) ((insertBatch s at_ args).2.row? id) := by
  unfold insertBatch
  split
  · exact .same (by simp [Claims]) (by simp [Landed]) (by simp)
  · simp only
    generalize hnew : (args.rows.zipIdx.map _ : List Row) = new
    have hafter : lookup (s.rows ++ new) id = (s.row? id).or (lookup new id) :=
      lookup_append _ _ _
    show RowStep id s.nextId now _ _ (s.row? id) (lookup _ id)
    rw [hafter]
    cases hrow : lookup new id with
    | none =>
      rw [Option.or_none]
      exact .same (by simp [Claims]) (by simp [Landed]) (by simp)
    -- a new row, under an id that was free
    | some r =>
      have hr : r ∈ new := List.mem_of_find?_eq_some hrow
      have hrid : r.id = id := by simpa using List.find?_some hrow
      rw [← hnew] at hr
      obtain ⟨⟨row, i⟩, hmem, rfl⟩ := List.mem_map.mp hr
      have hfresh : s.nextId ≤ id := by
        have hid : s.nextId + i = id := hrid
        omega
      have hbefore : s.row? id = none := hwf.row?_of_le hfresh
      have hin : row ∈ args.rows := (List.mem_zipIdx' hmem).2 ▸ List.getElem_mem _
      rw [hbefore, Option.none_or]
      subst hrid
      exact .insertedBatch hfresh hin

/-! ## Claiming -/

theorem fetch_rowStep (token : UUID) (queues : List String) (limit : Nat) (leaseTtl : Int)
    (locked : Nat → Bool) (locked' : List Nat) :
    RowStep id s.nextId now (.fetch token queues limit leaseTtl locked')
      (.claimed (fetch s now token queues limit leaseTtl locked).1) (s.row? id)
      ((fetch s now token queues limit leaseTtl locked).2.row? id) := by
  rw [fetch_eq hwf.nodup_ids]
  have hsub := firstClaimable_sublist s.rows locked now leaseTtl limit queues
  generalize firstClaimable s.rows locked now leaseTtl limit queues = claimed at hsub
  have hafter := lookup_map
    (f := fun r => if r ∈ claimed then claimSet r now token else r)
    (fun r => by split <;> rfl) s.rows id
  show RowStep id s.nextId now _ _ (s.row? id) (lookup _ id)
  rw [hafter]
  by_cases hclaimed : ∃ r ∈ claimed, r.id = id
  · obtain ⟨r, hr, hrid⟩ := hclaimed
    have hbefore : s.row? id = some r := hrid ▸ hwf.row?_mem (hsub r hr).1
    have hlive : lookup s.rows id = some r := hbefore
    rw [hbefore, hlive, Option.map_some, if_pos hr]
    exact .claimed (List.mem_map_of_mem hr) (hsub r hr).2.2
  · refine .same_of ?_ ?_ (by simp [Landed]) (by simp)
    · show Option.map _ (s.row? id) = s.row? id
      cases hrow : s.row? id with
      | none => rfl
      | some r =>
        have hmiss : r ∉ claimed := fun hr =>
          hclaimed ⟨r, hr, ((Store.row?_eq_some_iff hwf).mp hrow).2⟩
        rw [Option.map_some, if_neg hmiss]
    · intro t ⟨_, hmem⟩
      rw [List.map_map] at hmem
      obtain ⟨r, hr, hrid⟩ := List.mem_map.mp hmem
      exact hclaimed ⟨r, hr, hrid⟩

/-! ## Terminal writes -/

omit hwf in
/-- A row the guard of a terminal write finds is the row of the pair. -/
theorem leased_iff {messageId : Nat} {token : UUID} {r : Row} :
    leased messageId token r = true ↔ r.id = messageId ∧ r.acquiredToken = some token := by
  simp [leased]

/-- The guard matches some row iff the store holds the pair. -/
theorem filter_leased_pos_iff (messageId : Nat) (token : UUID) :
    0 < (s.rows.filter (leased messageId token)).length ↔ s.Holds messageId token := by
  rw [List.length_pos_iff_exists_mem]
  constructor
  · intro ⟨r, hr⟩
    obtain ⟨hmem, hl⟩ := List.mem_filter.mp hr
    obtain ⟨hid, htoken⟩ := leased_iff.mp hl
    exact ⟨r, hid ▸ hwf.row?_mem hmem, htoken⟩
  · intro ⟨r, hrow, htoken⟩
    obtain ⟨hmem, hid⟩ := (Store.row?_eq_some_iff hwf).mp hrow
    exact ⟨r, List.mem_filter.mpr ⟨hmem, leased_iff.mpr ⟨hid, htoken⟩⟩⟩

/-- The guard of a terminal write under a current lease finds the row, and no other. -/
theorem leased_eq_of_held {messageId : Nat} {token : UUID} {stored : Row}
    (hstored : s.row? messageId = some stored) (htoken : stored.acquiredToken = some token)
    {r : Row} (hr : r ∈ s.rows) : leased messageId token r = (r.id == messageId) := by
  rw [Bool.eq_iff_iff, leased_iff, beq_iff_eq]
  refine ⟨And.left, fun hid => ⟨hid, ?_⟩⟩
  have hsame : r = stored := by
    have hrow := hwf.row?_mem hr
    rw [hid, hstored] at hrow
    exact (Option.some_inj.mp hrow).symm
  rw [hsame, htoken]

theorem filter_leased_of_held {messageId : Nat} {token : UUID} {stored : Row}
    (hstored : s.row? messageId = some stored) (htoken : stored.acquiredToken = some token) :
    s.rows.filter (leased messageId token) = [stored] := by
  have hfilter : s.rows.filter (leased messageId token) =
      s.rows.filter fun r => r.id == messageId :=
    List.filter_congr fun r hr => leased_eq_of_held hwf hstored htoken hr
  have hfind : s.rows.find? (fun r => r.id == messageId) = some stored := hstored
  rw [List.filter_eq_find?_toList (hwf.leased_unique messageId token), ← List.head?_filter,
    hfilter, List.head?_filter, hfind]
  rfl

omit hwf in
/-- The dead-letter rows a delete writes: one for the row it deletes, given a payload. -/
def archived (s : Store) (now : Int) (messageId : Nat) (token : UUID)
    (payload : Option DlqPayload) : List DlqRow :=
  match payload with
  | none => []
  | some p => (s.rows.filter (leased messageId token)).map fun r =>
      dlqProjection r now (p.failureReason.getD "") (p.lastException.getD none)

/-- An accepted delete: it lands iff the store holds the pair. -/
theorem deleteWithLease_of_acceptable {dlqTable : Bool} {payload : Option DlqPayload}
    (hok : DlqPayload.Acceptable dlqTable payload) (messageId : Nat) (token : UUID) :
    deleteWithLease s now dlqTable messageId token payload =
      (.ok (decide (s.Holds messageId token)),
        { s with
          rows := s.rows.filter fun r => !leased messageId token r
          dlqRows := s.dlqRows ++ archived s now messageId token payload }) := by
  have hlanded : decide (0 < (s.rows.filter (leased messageId token)).length) =
      decide (s.Holds messageId token) := by
    rw [decide_eq_decide]
    exact filter_leased_pos_iff hwf messageId token
  unfold deleteWithLease archived
  simp only [hlanded]
  cases payload with
  | none => simp
  | some p =>
    obtain ⟨htable, reason, exc, hreason, hexc⟩ := hok.of_some
    simp [htable, hreason, hexc]

omit hwf in
/-- A refused delete raises before its statement runs. -/
theorem deleteWithLease_of_refused {dlqTable : Bool} {payload : Option DlqPayload}
    (hno : ¬DlqPayload.Acceptable dlqTable payload) (messageId : Nat) (token : UUID) :
    ∃ e, deleteWithLease s now dlqTable messageId token payload = (.error e, s) := by
  unfold deleteWithLease
  cases payload with
  | none => exact absurd trivial hno
  | some p =>
    cases dlqTable with
    | false => exact ⟨_, rfl⟩
    | true =>
      simp only [Bool.not_true, Bool.false_eq_true, if_false]
      cases hreason : p.failureReason with
      | none => exact ⟨_, rfl⟩
      | some reason =>
        cases hexc : p.lastException with
        | none => exact ⟨_, rfl⟩
        | some exc => exact absurd ⟨rfl, by simp [hreason], by simp [hexc]⟩ hno

/-- A row whose pair is not current is kept. -/
private theorem filter_leased_keeps {messageId : Nat} {token : UUID}
    (hmiss : ¬(messageId = id ∧ s.Holds messageId token)) :
    (s.row? id).filter (fun r => !leased messageId token r) = s.row? id := by
  cases hrow : s.row? id with
  | none => rfl
  | some r =>
    have hne : leased messageId token r = false := by
      rw [Bool.eq_false_iff]
      intro hl
      obtain ⟨hrid, htoken⟩ := leased_iff.mp hl
      have hid : messageId = id := hrid.symm.trans ((Store.row?_eq_some_iff hwf).mp hrow).2
      exact hmiss ⟨hid, r, hid ▸ hrow, htoken⟩
    simp [Option.filter, hne]

theorem deleteWithLease_rowStep (dlqTable : Bool) (messageId : Nat) (token : UUID)
    (payload : Option DlqPayload) :
    RowStep id s.nextId now (.deleteWithLease dlqTable messageId token payload)
      (.deleted (deleteWithLease s now dlqTable messageId token payload).1) (s.row? id)
      ((deleteWithLease s now dlqTable messageId token payload).2.row? id) := by
  by_cases hok : DlqPayload.Acceptable dlqTable payload
  · rw [deleteWithLease_of_acceptable hwf now hok]
    have hafter := lookup_filter hwf.nodup_ids (fun r => !leased messageId token r) id
    show RowStep id s.nextId now _ _ (s.row? id) (lookup _ id)
    rw [hafter]
    by_cases hheld : messageId = id ∧ s.Holds messageId token
    · obtain ⟨hid, hheld⟩ := hheld
      subst hid
      rw [decide_eq_true hheld]
      obtain ⟨r, hrow, htoken⟩ := hheld
      have hl : leased messageId token r = true :=
        leased_iff.mpr ⟨((Store.row?_eq_some_iff hwf).mp hrow).2, htoken⟩
      have hlive : lookup s.rows messageId = some r := hrow
      rw [hrow, hlive, Option.filter_some, hl]
      exact .deleted htoken
    · refine .same_of (filter_leased_keeps hwf id hheld) (by simp [Claims]) ?_ (by simp)
      intro t ⟨⟨hid, _⟩, hland⟩
      simp only [Except.ok.injEq, decide_eq_true_eq] at hland
      exact hheld ⟨hid, hland⟩
  · obtain ⟨e, he⟩ := deleteWithLease_of_refused (s := s) now hok messageId token
    rw [he]
    exact .same (by simp [Claims]) (by simp [Landed]) (by simp)

omit hwf in
/-- A row is wanted by a batch iff the batch carries its id and its token. -/
theorem wanted_iff {pairs : List (Nat × UUID)} {r : Row} :
    wanted pairs r = true ↔ ∃ token, r.acquiredToken = some token ∧ (r.id, token) ∈ pairs := by
  simp only [wanted, List.any_eq_true, Bool.and_eq_true, beq_iff_eq]
  constructor
  · rintro ⟨pair, hmem, hid, htoken⟩
    exact ⟨pair.2, htoken, hid ▸ hmem⟩
  · rintro ⟨token, htoken, hmem⟩
    exact ⟨(r.id, token), hmem, rfl, htoken⟩

/-- A batched delete returns the carried pairs that are current, and deletes their rows. -/
theorem deleteBatchWithLease_spec (pairs : List (Nat × UUID)) :
    (∀ token, (id, token) ∈ (deleteBatchWithLease s pairs).1 ↔
      (id, token) ∈ pairs ∧ s.Holds id token) ∧
    (deleteBatchWithLease s pairs).2 =
      { s with rows := s.rows.filter fun r => !wanted pairs r } := by
  unfold deleteBatchWithLease
  split
  · rename_i hempty
    have hnil : pairs = [] := List.isEmpty_iff.mp hempty
    subst hnil
    have hnone : wanted [] = fun _ => false := rfl
    simp [hnone]
  · refine ⟨fun token => ?_, rfl⟩
    simp only [List.mem_toFinset, List.mem_filterMap, List.mem_filter, Option.map_eq_some_iff,
      Prod.mk.injEq]
    constructor
    · intro ⟨r, ⟨hr, hw⟩, t, htoken, hid, ht⟩
      obtain ⟨t', htoken', hmem⟩ := wanted_iff.mp hw
      have htt : t' = t := Option.some_inj.mp (htoken'.symm.trans htoken)
      subst hid ht htt
      exact ⟨hmem, r, hwf.row?_mem hr, htoken⟩
    · intro ⟨hmem, r, hrow, htoken⟩
      obtain ⟨hr, hid⟩ := (Store.row?_eq_some_iff hwf).mp hrow
      exact ⟨r, ⟨hr, wanted_iff.mpr ⟨token, htoken, hid ▸ hmem⟩⟩, token, htoken, hid, rfl⟩

theorem deleteBatchWithLease_rowStep (pairs : List (Nat × UUID)) :
    RowStep id s.nextId now (.deleteBatchWithLease pairs)
      (.deletedBatch (deleteBatchWithLease s pairs).1) (s.row? id)
      ((deleteBatchWithLease s pairs).2.row? id) := by
  obtain ⟨hreply, hstore⟩ := deleteBatchWithLease_spec hwf id pairs
  have hafter := lookup_filter hwf.nodup_ids (fun r => !wanted pairs r) id
  rw [hstore]
  show RowStep id s.nextId now _ _ (s.row? id) (lookup _ id)
  rw [hafter]
  show RowStep id s.nextId now _ _ (s.row? id) ((s.row? id).filter _)
  by_cases hheld : ∃ token, (id, token) ∈ pairs ∧ s.Holds id token
  · -- a carried pair is current, and it is the only one of the row
    obtain ⟨token, hmem, r, hrow, htoken⟩ := hheld
    have hw : wanted pairs r = true := wanted_iff.mpr
      ⟨token, htoken, ((Store.row?_eq_some_iff hwf).mp hrow).2 ▸ hmem⟩
    rw [hrow, Option.filter_some, hw]
    refine .deletedBatch htoken hmem fun t => ?_
    rw [hreply]
    constructor
    · intro ⟨_, r', hrow', htoken'⟩
      have heq : r' = r := Option.some_inj.mp (hrow'.symm.trans hrow)
      subst heq
      exact Option.some_inj.mp (htoken'.symm.trans htoken)
    · intro ht
      exact ht ▸ ⟨hmem, r, hrow, htoken⟩
  · refine .same_of ?_ (by simp [Claims]) ?_ (by simp)
    · cases hrow : s.row? id with
      | none => rfl
      | some r =>
        have hne : wanted pairs r = false := by
          rw [Bool.eq_false_iff]
          intro hw
          obtain ⟨token, htoken, hmem⟩ := wanted_iff.mp hw
          have hrid := ((Store.row?_eq_some_iff hwf).mp hrow).2
          exact hheld ⟨token, hrid ▸ hmem, r, hrow, htoken⟩
        rw [Option.filter_some, hne]
        rfl
    · intro token hland
      exact hheld ⟨token, (hreply token).mp hland⟩

theorem markPendingWithLease_eq (messageId : Nat) (token : UUID) (args : MarkPendingArgs) :
    markPendingWithLease s now messageId token args =
      (decide (s.Holds messageId token),
        { s with rows := s.rows.map fun r =>
            if leased messageId token r then pendingSet r now args else r }) := by
  have hlanded : decide (0 < (s.rows.filter (leased messageId token)).length) =
      decide (s.Holds messageId token) := by
    rw [decide_eq_decide]
    exact filter_leased_pos_iff hwf messageId token
  unfold markPendingWithLease
  rw [hlanded]
  rfl

theorem markPendingWithLease_rowStep (messageId : Nat) (token : UUID)
    (args : MarkPendingArgs) :
    RowStep id s.nextId now (.markPendingWithLease messageId token args)
      (.rescheduled (markPendingWithLease s now messageId token args).1) (s.row? id)
      ((markPendingWithLease s now messageId token args).2.row? id) := by
  rw [markPendingWithLease_eq hwf]
  have hafter := lookup_map
    (f := fun r => if leased messageId token r then pendingSet r now args else r)
    (fun r => by split <;> rfl) s.rows id
  show RowStep id s.nextId now _ _ (s.row? id) (lookup _ id)
  rw [hafter]
  show RowStep id s.nextId now _ _ (s.row? id) ((s.row? id).map _)
  by_cases hheld : messageId = id ∧ s.Holds messageId token
  · obtain ⟨hid, hheld⟩ := hheld
    subst hid
    rw [decide_eq_true hheld]
    obtain ⟨r, hrow, htoken⟩ := hheld
    have hl : leased messageId token r = true :=
      leased_iff.mpr ⟨((Store.row?_eq_some_iff hwf).mp hrow).2, htoken⟩
    rw [hrow, Option.map_some, if_pos hl]
    exact .rescheduled htoken
  · refine .same_of ?_ (by simp [Claims]) ?_ (by simp)
    · cases hrow : s.row? id with
      | none => rfl
      | some r =>
        have hne : ¬leased messageId token r = true := by
          intro hl
          obtain ⟨hrid, htoken⟩ := leased_iff.mp hl
          have hid : messageId = id :=
            hrid.symm.trans ((Store.row?_eq_some_iff hwf).mp hrow).2
          exact hheld ⟨hid, r, hid ▸ hrow, htoken⟩
        rw [Option.map_some, if_neg hne]
    · intro t ⟨⟨hid, _⟩, hland⟩
      exact hheld ⟨hid, of_decide_eq_true hland⟩

/-! ## Timers -/

omit hwf in
/-- The guard of `cancel_timer`. -/
theorem cancelTimer_eq (queue timerId : String) :
    cancelTimer s queue timerId =
      (decide (0 < (s.rows.filter (FakeOutboxClient.cancellable queue timerId)).length),
        { s with rows := s.rows.filter fun r =>
            !FakeOutboxClient.cancellable queue timerId r }) := rfl

theorem cancelTimer_rowStep (queue timerId : String) :
    RowStep id s.nextId now (.cancelTimer queue timerId)
      (.cancelled (cancelTimer s queue timerId).1) (s.row? id)
      ((cancelTimer s queue timerId).2.row? id) := by
  rw [cancelTimer_eq]
  have hafter := lookup_filter hwf.nodup_ids
    (fun r => !FakeOutboxClient.cancellable queue timerId r) id
  show RowStep id s.nextId now _ _ (s.row? id) (lookup _ id)
  rw [hafter]
  show RowStep id s.nextId now _ _ (s.row? id) ((s.row? id).filter _)
  cases hrow : s.row? id with
  | none => exact .same (by simp [Claims]) (by simp [Landed]) (by simp)
  | some r =>
    rw [Option.filter_some]
    by_cases hc : FakeOutboxClient.cancellable queue timerId r = true
    · have hmem : r ∈ s.rows := ((Store.row?_eq_some_iff hwf).mp hrow).1
      have hpos : 0 < (s.rows.filter (FakeOutboxClient.cancellable queue timerId)).length :=
        List.length_pos_of_mem (List.mem_filter.mpr ⟨hmem, hc⟩)
      rw [hc, decide_eq_true hpos]
      simp only [FakeOutboxClient.cancellable, Bool.and_eq_true,
        Option.isNone_iff_eq_none] at hc
      exact .cancelled hc.1 hc.2
    · rw [Bool.not_eq_true] at hc
      rw [hc]
      exact .same (by simp [Claims]) (by simp [Landed]) (by simp)

end OutboxClient

end Outbox
