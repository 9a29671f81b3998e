import Outbox.Spec.RowStep

/-!
# What one operation does to the world

The facts every run-level proof starts from, for both clients at once: an operation
keeps the schema's constraints, moves every row by a `RowStep`, never draws an id twice,
and writes the dead-letter table only through an archiving delete.

## Key results

- `World.apply_applied`: what an operation of either client can do
- `World.apply_wf`: every operation keeps `Store.WF`
- `World.apply_rowStep`: every operation is a `RowStep` of every row
- `World.landed_of_holds`: a terminal write whose pair is current succeeds
- `World.apply_dlqRows`: only a delete that lands with a payload archives
-/

namespace Outbox

/-- The client accepts the payload the operation carries, if any. -/
def Op.Acceptable (op : Op) : Prop :=
  match op with
  | .deleteWithLease dlqTable _ _ payload => DlqPayload.Acceptable dlqTable payload
  | _ => True

/-- The reply of a terminal write reports that the pair did not land: `False`, a set
    without the pair, or the exception its payload is refused with. -/
def Denied (op : Op) (reply : Reply) (id : Nat) (token : UUID) : Prop :=
  match op, reply with
  | .deleteWithLease _ _ _ _, .deleted landed =>
    landed = .ok false ∨ ¬op.Acceptable ∧ ∃ e, landed = .error e
  | .deleteBatchWithLease _, .deletedBatch deleted => (id, token) ∉ deleted
  | .markPendingWithLease _ _ _, .rescheduled landed => landed = false
  | _, _ => False

/-! ## The fake, refused -/

namespace FakeOutboxClient

open OutboxClient (insertable leased)

theorem insert_of_not_insertable (s : Store) (now : Int) {args : InsertArgs}
    (hno : ¬insertable args.queue args.timerId args.headers = true) :
    ∃ e, insert s now args = (.error e, s) := by
  unfold insert
  cases hv : validateLikePostgres args.queue args.timerId args.headers with
  | none => exact absurd ((validateLikePostgres_eq_none_iff _ _ _).mp hv) hno
  | some e => exact ⟨e, rfl⟩

theorem insertBatch_of_not_insertable (s : Store) (now : Int) {args : InsertBatchArgs}
    (hno : ¬(args.rows.all fun row => insertable args.queue none row.2) = true) :
    ∃ e, insertBatch s now args = (.error e, s) := by
  unfold insertBatch
  cases hv : args.rows.findSome? fun row => validateLikePostgres args.queue none row.2 with
  | none =>
    rw [List.findSome?_eq_none_iff] at hv
    refine absurd (List.all_eq_true.mpr fun row hrow => ?_) hno
    exact (validateLikePostgres_eq_none_iff _ _ _).mp (hv row hrow)
  | some e => exact ⟨e, rfl⟩

/-- The scan finds the row that holds the lease, if the store holds it. -/
theorem find?_holdsLease_isSome_iff {s : Store} (hwf : s.WF) (messageId : Nat) (token : UUID) :
    (s.rows.find? (holdsLease messageId token)).isSome = true ↔ s.Holds messageId token := by
  rw [holdsLease_eq, ← OutboxClient.filter_leased_pos_iff hwf, filter_leased_eq hwf]
  cases s.rows.find? (leased messageId token) <;> simp

/-- The fake finds the row before it looks at the payload it refuses: without the lease it
    answers `False`. -/
theorem deleteWithLease_of_refused {s : Store} (hwf : s.WF) (now : Int) {dlqTable : Bool}
    {payload : Option DlqPayload} (hno : ¬DlqPayload.Acceptable dlqTable payload)
    (messageId : Nat) (token : UUID) :
    ∃ r, r ≠ .ok true ∧ ((∃ e, r = .error e) ↔ s.Holds messageId token) ∧
      deleteWithLease s now dlqTable messageId token payload = (r, s) := by
  have hfound := find?_holdsLease_isSome_iff hwf messageId token
  unfold deleteWithLease
  cases hfind : s.rows.find? (holdsLease messageId token) with
  | none =>
    have hmiss : ¬s.Holds messageId token := by simpa [hfind] using hfound
    exact ⟨.ok false, by simp, by simp [hmiss], rfl⟩
  | some row =>
    have hheld : s.Holds messageId token := hfound.mp (by simp [hfind])
    cases payload with
    | none => exact absurd trivial hno
    | some p =>
      cases dlqTable with
      | false => exact ⟨_, by simp, by simp [hheld], rfl⟩
      | true =>
        simp only [Bool.not_true, Bool.false_eq_true, if_false]
        cases hreason : p.failureReason with
        | none => exact ⟨_, by simp, by simp [hheld], rfl⟩
        | some reason =>
          cases hexc : p.lastException with
          | none => exact ⟨_, by simp, by simp [hheld], rfl⟩
          | some exc => exact absurd ⟨rfl, by simp [hreason], by simp [hexc]⟩ hno

end FakeOutboxClient

/-! ## The schema's constraints -/

namespace OutboxClient

/-- A statement that reaches the table draws an id, whether or not it inserts. -/
theorem insert_nextId (s : Store) (now : Int) (args : InsertArgs) :
    (insert s now args).2.nextId =
      if insertable args.queue args.timerId args.headers = true then s.nextId + 1
      else s.nextId := by
  unfold insert
  by_cases hok : insertable args.queue args.timerId args.headers = true
  · rw [if_neg (by simp [hok]), if_pos hok]
    cases hfind : s.rows.find? (conflicts (excluded s now args)) with
    | none => simp [hfind]
    | some t =>
      simp only [hfind]
      cases args.timerConflict with
      | ignore => rfl
      | extend => simp only; split <;> rfl
  · simp [hok]

theorem insert_dlqRows (s : Store) (now : Int) (args : InsertArgs) :
    (insert s now args).2.dlqRows = s.dlqRows := by
  unfold insert
  split
  · rfl
  · cases hfind : s.rows.find? (conflicts (excluded s now args)) with
    | none => simp [hfind]
    | some t =>
      simp only [hfind]
      cases args.timerConflict with
      | ignore => rfl
      | extend => simp only; split <;> rfl

theorem insertBatch_dlqRows (s : Store) (now : Int) (args : InsertBatchArgs) :
    (insertBatch s now args).2.dlqRows = s.dlqRows := by
  unfold insertBatch
  split <;> rfl

variable {s : Store} (hwf : s.WF)
include hwf

/-- An insert keeps the constraints, at any next id past the rows it leaves. -/
theorem insert_wf (now : Int) (args : InsertArgs) {n : Nat} (hn : s.nextId ≤ n)
    (hfresh : s.rows.find? (conflicts (excluded s now args)) = none →
      insertable args.queue args.timerId args.headers = true → s.nextId < n) :
    Store.WF { (insert s now args).2 with nextId := n } := by
  have hkeep : Store.WF { s with nextId := n } := by
    have h : Store.WF { s with rows := s.rows.filter fun _ => true, nextId := n } :=
      hwf.filter (fun _ => true) hn
    rwa [List.filter_true] at h
  unfold insert
  split
  · exact hkeep
  · rename_i hok
    have hok : insertable args.queue args.timerId args.headers = true := by simpa using hok
    cases hfind : s.rows.find? (conflicts (excluded s now args)) with
    | none =>
      simp only [hfind]
      refine hwf.append hn (by simp) ?_ ?_ ?_ ?_
      · simp [excluded]
      · simpa [excluded] using hfresh hfind hok
      · simp [excluded, Row.LeaseCk]
      · rw [List.pairwise_append]
        refine ⟨hwf.timer_uq, by simp, ?_⟩
        rintro a ha b hb ⟨htimer, hqueue, hkey⟩
        -- a row on the new row's key would have been found
        rw [List.mem_singleton] at hb
        subst hb
        have hmiss := List.find?_eq_none.mp hfind a ha
        refine hmiss ?_
        simp only [conflicts, Bool.and_eq_true, beq_iff_eq]
        exact ⟨⟨hkey ▸ htimer, hqueue⟩, hkey⟩
    | some t =>
      simp only [hfind]
      cases args.timerConflict with
      | ignore => exact hkeep
      | extend =>
        simp only
        split
        · exact hwf.map (fun r => by split <;> rfl) (fun r => by split <;> rfl)
            (fun r => by split <;> rfl) (fun r hr => by split <;> exact hr) hn
        · exact hkeep

theorem insertBatch_wf (now : Int) (args : InsertBatchArgs) :
    (insertBatch s now args).2.WF := by
  unfold insertBatch
  split
  · exact hwf
  · -- what the constraints read of the new rows
    have hmem : ∀ r ∈ args.rows.zipIdx.map fun p =>
        ({ id := s.nextId + p.2
           queue := args.queue
           payload := p.1.1
           headers := p.1.2
           createdAt := now
           nextAttemptAt := (resolveNextAttemptClientSide args.activateIn args.activateAt
             now).getD now } : Row),
        (∃ i < args.rows.length, r.id = s.nextId + i) ∧ r.LeaseCk ∧ r.timerId = none := by
      intro r hr
      obtain ⟨⟨row, i⟩, hi, rfl⟩ := List.mem_map.mp hr
      exact ⟨⟨i, (List.mem_zipIdx' hi).1, rfl⟩, by simp [Row.LeaseCk], rfl⟩
    refine hwf.append (Nat.le_add_right _ _) ?_ ?_ ?_ (fun r hr => (hmem r hr).2.1) ?_
    · rw [List.map_map]
      have hids : (args.rows.zipIdx.map (Row.id ∘ fun p =>
          ({ id := s.nextId + p.2
             queue := args.queue
             payload := p.1.1
             headers := p.1.2
             createdAt := now
             nextAttemptAt := (resolveNextAttemptClientSide args.activateIn args.activateAt
               now).getD now } : Row))) =
          (args.rows.zipIdx.map Prod.snd).map fun i => s.nextId + i := by
        rw [List.map_map]
        rfl
      rw [hids, List.zipIdx_map_snd]
      exact (List.nodup_range' 1).map fun i j hij => Nat.add_left_cancel hij
    · intro r hr
      obtain ⟨i, _, hid⟩ := (hmem r hr).1
      omega
    · intro r hr
      obtain ⟨i, hi, hid⟩ := (hmem r hr).1
      simp only [List.length_map, List.length_zipIdx]
      omega
    · rw [List.pairwise_append]
      refine ⟨hwf.timer_uq, ?_, ?_⟩
      · refine List.pairwise_of_forall_mem_list ?_
        -- a batch carries no timers
        rintro a ha b hb ⟨htimer, _, _⟩
        simp [(hmem a ha).2.2] at htimer
      · rintro a ha b hb ⟨htimer, _, hkey⟩
        simp [hkey, (hmem b hb).2.2] at htimer

theorem fetch_wf (now : Int) (token : UUID) (queues : List String) (limit : Nat)
    (leaseTtl : Int) (locked : Nat → Bool) :
    (fetch s now token queues limit leaseTtl locked).2.WF := by
  rw [fetch_eq hwf.nodup_ids]
  exact hwf.map (fun r => by split <;> rfl) (fun r => by split <;> rfl)
    (fun r => by split <;> rfl)
    (fun r hr => by
      split
      · simp [Row.LeaseCk, claimSet]
      · exact hr)
    (Nat.le_refl _)

theorem pendingSet_wf (now : Int) (messageId : Nat) (token : UUID) (args : MarkPendingArgs) :
    Store.WF { s with
      rows := s.rows.map fun r =>
        if leased messageId token r then pendingSet r now args else r } :=
  hwf.map (fun r => by split <;> rfl) (fun r => by split <;> rfl)
    (fun r => by split <;> rfl)
    (fun r hr => by
      split
      · simp [Row.LeaseCk, pendingSet]
      · exact hr)
    (Nat.le_refl _)

end OutboxClient

/-! ## Both clients -/

namespace World

open OutboxClient (insertable conflicts excluded)

variable {w : World} (hwf : w.store.WF)
include hwf

/-- What becomes of an operation, at either client: it is one of the Postgres client's, up to
    the ids an insert draws, or it raises and changes nothing. -/
inductive Applied (w : World) : Op → Reply → Store → Prop where
  | ticked {elapsed : Nat} : Applied w (.tick elapsed) .ticked w.store
  | inserted {at_ : Int} {args : InsertArgs} {n : Nat} (hn : w.store.nextId ≤ n)
      (hfresh : w.store.rows.find? (conflicts (excluded w.store at_ args)) = none →
        insertable args.queue args.timerId args.headers = true → w.store.nextId < n) :
      Applied w (.insert at_ args) (.inserted (OutboxClient.insert w.store at_ args).1)
        { (OutboxClient.insert w.store at_ args).2 with nextId := n }
  | insertRaised {at_ : Int} {args : InsertArgs} (e : Error) :
      Applied w (.insert at_ args) (.inserted (.error e)) w.store
  | insertedBatch {at_ : Int} {args : InsertBatchArgs} :
      Applied w (.insertBatch at_ args)
        (.insertedBatch (OutboxClient.insertBatch w.store at_ args).1)
        (OutboxClient.insertBatch w.store at_ args).2
  | batchRaised {at_ : Int} {args : InsertBatchArgs} (e : Error) :
      Applied w (.insertBatch at_ args) (.insertedBatch (.error e)) w.store
  /-- Postgres passes over the rows that are locked, the fake over none. -/
  | fetched {token : UUID} {queues : List String} {limit : Nat} {leaseTtl : Int}
      {locked : List Nat} (skip : Nat → Bool) :
      Applied w (.fetch token queues limit leaseTtl locked)
        (.claimed (OutboxClient.fetch w.store w.now token queues limit leaseTtl skip).1)
        (OutboxClient.fetch w.store w.now token queues limit leaseTtl skip).2
  | deleted {dlqTable : Bool} {messageId : Nat} {token : UUID} {payload : Option DlqPayload}
      (hok : DlqPayload.Acceptable dlqTable payload) :
      Applied w (.deleteWithLease dlqTable messageId token payload)
        (.deleted (.ok (decide (w.store.Holds messageId token))))
        { w.store with
          rows := w.store.rows.filter fun r => !OutboxClient.leased messageId token r
          dlqRows := w.store.dlqRows ++
            OutboxClient.archived w.store w.now messageId token payload }
  /-- The fake finds the row before it looks at the payload it refuses. -/
  | refused {dlqTable : Bool} {messageId : Nat} {token : UUID} {payload : Option DlqPayload}
      {landed : Except Error Bool} (hno : ¬DlqPayload.Acceptable dlqTable payload)
      (hlanded : landed ≠ .ok true) :
      Applied w (.deleteWithLease dlqTable messageId token payload) (.deleted landed) w.store
  | deletedBatch {pairs : List (Nat × UUID)} :
      Applied w (.deleteBatchWithLease pairs)
        (.deletedBatch (OutboxClient.deleteBatchWithLease w.store pairs).1)
        { w.store with rows := w.store.rows.filter fun r => !OutboxClient.wanted pairs r }
  | rescheduled {messageId : Nat} {token : UUID} {args : MarkPendingArgs} :
      Applied w (.markPendingWithLease messageId token args)
        (.rescheduled (decide (w.store.Holds messageId token)))
        { w.store with rows := w.store.rows.map fun r =>
            if OutboxClient.leased messageId token r then pendingSet r w.now args else r }
  | cancelled {queue timerId : String} :
      Applied w (.cancelTimer queue timerId)
        (.cancelled (OutboxClient.cancelTimer w.store queue timerId).1)
        (OutboxClient.cancelTimer w.store queue timerId).2
  | unprocessed {queue : Option String} {limit : Int} (rows : Except Error (List Row)) :
      Applied w (.fetchUnprocessed queue limit) (.unprocessed rows) w.store

/-- A delete whose payload the client accepts, at either client. -/
theorem apply_deleteWithLease (b : Backend) {dlqTable : Bool} {payload : Option DlqPayload}
    (hok : DlqPayload.Acceptable dlqTable payload) (messageId : Nat) (token : UUID) :
    w.apply b (.deleteWithLease dlqTable messageId token payload) =
      (.deleted (.ok (decide (w.store.Holds messageId token))),
        { w.store with
          rows := w.store.rows.filter fun r => !OutboxClient.leased messageId token r
          dlqRows := w.store.dlqRows ++
            OutboxClient.archived w.store w.now messageId token payload }) := by
  have hsql := OutboxClient.deleteWithLease_of_acceptable hwf w.now hok messageId token
  cases b with
  | postgres => simp only [apply, hsql]
  | fake =>
    simp only [apply, FakeOutboxClient.deleteWithLease_eq hwf w.now messageId token hok, hsql]

theorem apply_deleteBatchWithLease (b : Backend) (pairs : List (Nat × UUID)) :
    w.apply b (.deleteBatchWithLease pairs) =
      (.deletedBatch (OutboxClient.deleteBatchWithLease w.store pairs).1,
        { w.store with rows := w.store.rows.filter fun r => !OutboxClient.wanted pairs r }) := by
  have hstore := (OutboxClient.deleteBatchWithLease_spec hwf 0 pairs).2
  cases b with
  | postgres => simp only [apply, hstore]
  | fake => simp only [apply, FakeOutboxClient.deleteBatchWithLease_eq, hstore]

theorem apply_markPendingWithLease (b : Backend) (messageId : Nat) (token : UUID)
    (args : MarkPendingArgs) :
    w.apply b (.markPendingWithLease messageId token args) =
      (.rescheduled (decide (w.store.Holds messageId token)),
        { w.store with rows := w.store.rows.map fun r =>
            if OutboxClient.leased messageId token r then pendingSet r w.now args else r }) := by
  have hsql := OutboxClient.markPendingWithLease_eq hwf w.now messageId token args
  cases b with
  | postgres => simp only [apply, hsql]
  | fake => simp only [apply, FakeOutboxClient.markPendingWithLease_eq hwf, hsql]

theorem apply_cancelTimer (b : Backend) (queue timerId : String) :
    w.apply b (.cancelTimer queue timerId) =
      (.cancelled (OutboxClient.cancelTimer w.store queue timerId).1,
        (OutboxClient.cancelTimer w.store queue timerId).2) := by
  cases b with
  | postgres => rfl
  | fake => simp only [apply, FakeOutboxClient.cancelTimer_eq hwf]

/-- **What an operation of either client does.** -/
theorem apply_applied (b : Backend) (op : Op) : w.Applied op (w.apply b op).1 (w.apply b op).2 := by
  cases op with
  | tick elapsed => exact .ticked
  | insert at_ args =>
    cases b with
    | postgres =>
      have hdrawn := OutboxClient.insert_nextId w.store at_ args
      by_cases hok : insertable args.queue args.timerId args.headers = true
      · -- the statement draws an id even where the row conflicts
        rw [if_pos hok] at hdrawn
        exact .inserted (n := (OutboxClient.insert w.store at_ args).2.nextId) (by omega)
          fun _ _ => by omega
      · rw [if_neg hok] at hdrawn
        exact .inserted (n := (OutboxClient.insert w.store at_ args).2.nextId) (by omega)
          fun _ hins => absurd hins hok
    | fake =>
      by_cases hok : insertable args.queue args.timerId args.headers = true
      · simp only [apply, FakeOutboxClient.insert_eq hwf at_ hok]
        refine .inserted (by split <;> omega) fun hfind _ => ?_
        have hany : w.store.rows.any (conflicts (excluded w.store at_ args)) = false := by
          rw [List.any_eq_false]
          exact List.find?_eq_none.mp hfind
        simp [hany]
      · obtain ⟨e, he⟩ := FakeOutboxClient.insert_of_not_insertable w.store at_ hok
        simp only [apply, he]
        exact .insertRaised e
  | insertBatch at_ args =>
    cases b with
    | postgres => exact .insertedBatch
    | fake =>
      by_cases hok : (args.rows.all fun row => insertable args.queue none row.2) = true
      · simp only [apply, FakeOutboxClient.insertBatch_eq w.store at_ hok]
        exact .insertedBatch
      · obtain ⟨e, he⟩ := FakeOutboxClient.insertBatch_of_not_insertable w.store at_ hok
        simp only [apply, he]
        exact .batchRaised e
  | fetch token queues limit leaseTtl locked =>
    cases b with
    | postgres => exact .fetched locked.contains
    | fake =>
      simp only [apply, FakeOutboxClient.fetch_eq hwf.nodup_ids]
      exact .fetched _
  | deleteWithLease dlqTable messageId token payload =>
    by_cases hok : DlqPayload.Acceptable dlqTable payload
    · rw [apply_deleteWithLease hwf b hok]
      exact .deleted hok
    · cases b with
      | postgres =>
        obtain ⟨e, he⟩ := OutboxClient.deleteWithLease_of_refused (s := w.store) w.now hok
          messageId token
        simp only [apply, he]
        exact .refused hok (by simp)
      | fake =>
        obtain ⟨r, hr, _, he⟩ := FakeOutboxClient.deleteWithLease_of_refused hwf w.now hok
          messageId token
        simp only [apply, he]
        exact .refused hok hr
  | deleteBatchWithLease pairs =>
    rw [apply_deleteBatchWithLease hwf b]
    exact .deletedBatch
  | markPendingWithLease messageId token args =>
    rw [apply_markPendingWithLease hwf b]
    exact .rescheduled
  | cancelTimer queue timerId =>
    rw [apply_cancelTimer hwf b]
    exact .cancelled
  | fetchUnprocessed queue limit => exact .unprocessed _

/-- Every operation of either client is a `RowStep` of every row. -/
theorem Applied.rowStep {op : Op} {reply : Reply} {s' : Store} (h : w.Applied op reply s')
    (id : Nat) : RowStep id w.store.nextId w.now op reply (w.store.row? id) (s'.row? id) := by
  cases h with
  | ticked | insertRaised _ | batchRaised _ | unprocessed _ =>
    exact .same (by simp [Claims]) (by simp [Landed]) (by simp)
  | refused _ hlanded => exact .same (by simp [Claims]) (by simp [Landed, hlanded]) (by simp)
  | @inserted at_ args => exact OutboxClient.insert_rowStep hwf id w.now at_ args
  | insertedBatch => exact OutboxClient.insertBatch_rowStep hwf id w.now _ _
  | fetched skip => exact OutboxClient.fetch_rowStep hwf id w.now _ _ _ _ skip _
  | @deleted dlqTable messageId token payload hok =>
    have h := OutboxClient.deleteWithLease_rowStep hwf id w.now dlqTable messageId token payload
    rwa [OutboxClient.deleteWithLease_of_acceptable hwf w.now hok] at h
  | @deletedBatch pairs =>
    have h := OutboxClient.deleteBatchWithLease_rowStep hwf id w.now pairs
    rwa [(OutboxClient.deleteBatchWithLease_spec hwf id pairs).2] at h
  | @rescheduled messageId token args =>
    have h := OutboxClient.markPendingWithLease_rowStep hwf id w.now messageId token args
    rwa [OutboxClient.markPendingWithLease_eq hwf] at h
  | cancelled => exact OutboxClient.cancelTimer_rowStep hwf id w.now _ _

theorem apply_rowStep (b : Backend) (op : Op) (id : Nat) :
    RowStep id w.store.nextId w.now op (w.apply b op).1 (w.store.row? id)
      ((w.apply b op).2.row? id) :=
  (apply_applied hwf b op).rowStep hwf id

/-- Every operation keeps the schema's constraints. -/
theorem Applied.wf {op : Op} {reply : Reply} {s' : Store} (h : w.Applied op reply s') :
    s'.WF := by
  cases h with
  | ticked | insertRaised _ | batchRaised _ | refused _ _ | unprocessed _ => exact hwf
  | inserted hn hfresh => exact OutboxClient.insert_wf hwf _ _ hn hfresh
  | insertedBatch => exact OutboxClient.insertBatch_wf hwf _ _
  | fetched skip => exact OutboxClient.fetch_wf hwf w.now _ _ _ _ skip
  | deleted _ => exact hwf.filter _ (Nat.le_refl _)
  | deletedBatch => exact hwf.filter _ (Nat.le_refl _)
  | rescheduled => exact OutboxClient.pendingSet_wf hwf w.now _ _ _
  | cancelled => exact hwf.filter _ (Nat.le_refl _)

theorem apply_wf (b : Backend) (op : Op) : (w.apply b op).2.WF :=
  (apply_applied hwf b op).wf hwf

/-- A terminal write whose pair is current succeeds for it. -/
theorem landed_of_holds (b : Backend) {op : Op} (hok : op.Acceptable) {id : Nat}
    {token : UUID} (hcarries : op.Carries id token) (hholds : w.store.Holds id token) :
    Landed op (w.apply b op).1 id token := by
  have happlied := apply_applied hwf b op
  generalize w.apply b op = out at happlied
  obtain ⟨reply, s'⟩ := out
  cases happlied with
  | deleted _ =>
    obtain ⟨rfl, rfl⟩ := hcarries
    simp [Landed, hholds]
  | refused hno _ => exact absurd hok hno
  | deletedBatch =>
    exact ((OutboxClient.deleteBatchWithLease_spec hwf id _).1 token).mpr ⟨hcarries, hholds⟩
  | rescheduled =>
    obtain ⟨rfl, rfl⟩ := hcarries
    simp [Landed, hholds]
  | _ => exact hcarries.elim

/-- A terminal write whose pair is not current reports so, unless its payload is refused. -/
theorem denied_of_not_holds (b : Backend) {op : Op} {id : Nat} {token : UUID}
    (hcarries : op.Carries id token) (hno : ¬w.store.Holds id token) :
    Denied op (w.apply b op).1 id token := by
  have happlied := apply_applied hwf b op
  generalize w.apply b op = out at happlied
  obtain ⟨reply, s'⟩ := out
  cases happlied with
  | deleted _ =>
    obtain ⟨rfl, rfl⟩ := hcarries
    exact .inl (by simp [hno])
  | @refused _ _ _ _ landed hpayload hlanded =>
    cases landed with
    | error e => exact .inr ⟨hpayload, e, rfl⟩
    | ok landed =>
      cases landed with
      | false => exact .inl rfl
      | true => exact absurd rfl hlanded
  | @deletedBatch pairs =>
    have hspec := (OutboxClient.deleteBatchWithLease_spec hwf id pairs).1 token
    exact fun hmem => hno (hspec.mp hmem).2
  | rescheduled =>
    obtain ⟨rfl, rfl⟩ := hcarries
    simp [Denied, hno]
  | _ => exact hcarries.elim

/-- The dead-letter rows an operation writes: the projection of the row a delete lands on,
    when it carries a payload. -/
def archivedBy (w : World) (op : Op) (reply : Reply) : List DlqRow :=
  match op, reply with
  | .deleteWithLease _ messageId _ (some p), .deleted (.ok true) =>
    (w.store.row? messageId).toList.map fun r =>
      dlqProjection r w.now (p.failureReason.getD "") (p.lastException.getD none)
  | _, _ => []

/-- The rows a delete archives, as its reply tells. -/
theorem archived_eq (dlqTable : Bool) (messageId : Nat) (token : UUID)
    (payload : Option DlqPayload) :
    OutboxClient.archived w.store w.now messageId token payload =
      w.archivedBy (.deleteWithLease dlqTable messageId token payload)
        (.deleted (.ok (decide (w.store.Holds messageId token)))) := by
  cases payload with
  | none => rfl
  | some p =>
    by_cases hholds : w.store.Holds messageId token
    · have hfind : w.store.rows.filter (OutboxClient.leased messageId token) =
          (w.store.row? messageId).toList := by
        obtain ⟨r, hrow, htoken⟩ := hholds
        obtain ⟨hr, hid⟩ := (Store.row?_eq_some_iff hwf).mp hrow
        have hl := OutboxClient.leased_iff.mpr ⟨hid, htoken⟩
        rw [hrow, List.filter_eq_find?_toList (hwf.leased_unique messageId token)]
        cases hf : w.store.rows.find? (OutboxClient.leased messageId token) with
        | none => exact absurd hl (List.find?_eq_none.mp hf r hr)
        | some r' =>
          rw [List.eq_of_pairwise_not (hwf.leased_unique messageId token)
            (List.mem_of_find?_eq_some hf) hr (List.find?_some hf) hl]
      simp [OutboxClient.archived, archivedBy, hholds, hfind]
    · have hnone : w.store.rows.filter (OutboxClient.leased messageId token) = [] := by
        have hzero := (OutboxClient.filter_leased_pos_iff hwf messageId token).not.mpr hholds
        exact List.eq_nil_of_length_eq_zero (by omega)
      simp [OutboxClient.archived, archivedBy, hholds, hnone]

/-- Only a delete that lands with a payload writes the dead-letter table. -/
theorem Applied.dlqRows {op : Op} {reply : Reply} {s' : Store} (h : w.Applied op reply s') :
    s'.dlqRows = w.store.dlqRows ++ w.archivedBy op reply := by
  cases h with
  | ticked | insertRaised _ | batchRaised _ | deletedBatch | rescheduled | unprocessed _ =>
    simp [archivedBy]
  | inserted _ _ => simp [archivedBy, OutboxClient.insert_dlqRows]
  | insertedBatch => simp [archivedBy, OutboxClient.insertBatch_dlqRows]
  | fetched skip => simp [archivedBy, OutboxClient.fetch_eq hwf.nodup_ids]
  | @deleted dlqTable messageId token payload _ =>
    rw [← archived_eq hwf dlqTable messageId token payload]
  | @refused _ _ _ payload landed _ hlanded =>
    cases payload with
    | none => simp [archivedBy]
    | some p =>
      cases landed with
      | error e => simp [archivedBy]
      | ok landed =>
        cases landed with
        | false => simp [archivedBy]
        | true => exact absurd rfl hlanded
  | cancelled => simp [archivedBy, OutboxClient.cancelTimer_eq]

theorem apply_dlqRows (b : Backend) (op : Op) :
    (w.apply b op).2.dlqRows = w.store.dlqRows ++ w.archivedBy op (w.apply b op).1 :=
  (apply_applied hwf b op).dlqRows hwf

/-- An operation never takes a row id back. -/
theorem Applied.nextId_le {op : Op} {reply : Reply} {s' : Store} (h : w.Applied op reply s') :
    w.store.nextId ≤ s'.nextId := by
  cases h with
  | ticked | insertRaised _ | batchRaised _ | refused _ _ | deleted _ | deletedBatch
  | rescheduled | cancelled | unprocessed _ => exact Nat.le_refl _
  | inserted hn _ => exact hn
  | insertedBatch =>
    unfold OutboxClient.insertBatch
    split
    · exact Nat.le_refl _
    · exact Nat.le_add_right _ _
  | fetched skip => simp [OutboxClient.fetch_eq hwf.nodup_ids]

theorem apply_nextId_le (b : Backend) (op : Op) :
    w.store.nextId ≤ (w.apply b op).2.nextId :=
  (apply_applied hwf b op).nextId_le hwf

end World

end Outbox
