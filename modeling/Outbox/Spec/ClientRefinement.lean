import Mathlib.Data.Finset.Image
import Outbox.ForStd.Renaming
import Outbox.Spec.LeaseSafety

/-!
# The in-memory client refines the SQL client

Both clients run the same calls under the same clock and the same tokens. The only
number they draw differently is a row id: a conflicting INSERT has drawn a value of the
Postgres sequence. The statements never look at an id except to compare it, so renaming
ids commutes with every statement, and the renaming that follows the two counters makes
the runs agree call by call.

## Key results

- `OutboxClient.fetch_rename`, `OutboxClient.insert_rename`, ...: renaming commutes
- `World.step_rename`: one call of the two clients on stores equal up to a renaming
- `fake_refines_postgres`: every run of admissible calls
-/

namespace Outbox

/-! ## Renaming row ids -/

def Row.rename (ρ : Nat → Nat) (r : Row) : Row := { r with id := ρ r.id }

def DlqRow.rename (ρ : Nat → Nat) (r : DlqRow) : DlqRow := { r with originalId := ρ r.originalId }

/-- A store with its ids renamed, whose sequence stands at `next`. -/
def Store.rename (ρ : Nat → Nat) (next : Nat) (s : Store) : Store :=
  { rows := s.rows.map (Row.rename ρ)
    nextId := next
    dlqRows := s.dlqRows.map (DlqRow.rename ρ) }

/-- A claim's pair, renamed. -/
def renamePair (ρ : Nat → Nat) (pair : Nat × UUID) : Nat × UUID := (ρ pair.1, pair.2)

/-- The call with the row ids it carries renamed. -/
def Op.rename (ρ : Nat → Nat) : Op → Op
  | .deleteWithLease dlqTable messageId token payload =>
    .deleteWithLease dlqTable (ρ messageId) token payload
  | .deleteBatchWithLease pairs => .deleteBatchWithLease (pairs.map (renamePair ρ))
  | .markPendingWithLease messageId token args => .markPendingWithLease (ρ messageId) token args
  | op => op

/-- The reply with the row ids it carries renamed. -/
def Reply.rename (ρ : Nat → Nat) : Reply → Reply
  | .inserted (.ok rowId) => .inserted (.ok (rowId.map ρ))
  | .claimed rows => .claimed (rows.map (Row.rename ρ))
  | .deletedBatch pairs => .deletedBatch (pairs.image (renamePair ρ))
  | .unprocessed (.ok rows) => .unprocessed (.ok (rows.map (Row.rename ρ)))
  | reply => reply

/-- The arguments both clients admit: strings the columns hold, JSON headers, a batch of
    at least one row, a positive limit, a payload only with a dead-letter table. One call
    runs at a time, so no row is locked. -/
def Op.Admissible : Op → Prop
  | .insert _ args => OutboxClient.insertable args.queue args.timerId args.headers = true
  | .insertBatch _ args =>
    args.rows ≠ [] ∧
      (args.rows.all fun row => OutboxClient.insertable args.queue none row.2) = true
  | .fetch _ _ limit _ locked => 1 ≤ limit ∧ locked = []
  | .deleteWithLease dlqTable _ _ payload => DlqPayload.Acceptable dlqTable payload
  | _ => True

theorem Row.rename_injective {ρ : Nat → Nat} (hρ : StrictMono ρ) :
    Function.Injective (Row.rename ρ) := by
  intro a b hab
  have hid : a.id = b.id := hρ.injective (congrArg Row.id hab)
  cases a
  cases b
  simp_all [Row.rename]

/-- A DELETE or SELECT that does not look at ids commutes with the renaming. -/
theorem filter_rename (ρ : Nat → Nat) (rows : List Row) {p q : Row → Bool}
    (h : ∀ r, q (r.rename ρ) = p r) :
    (rows.map (Row.rename ρ)).filter q = (rows.filter p).map (Row.rename ρ) := by
  rw [List.filter_map]
  congr 2
  funext r
  exact h r

/-- So does an UPDATE. -/
theorem map_rename (ρ : Nat → Nat) (rows : List Row) {f g : Row → Row}
    (h : ∀ r ∈ rows, g (r.rename ρ) = (f r).rename ρ) :
    (rows.map (Row.rename ρ)).map g = (rows.map f).map (Row.rename ρ) := by
  rw [List.map_map, List.map_map]
  exact List.map_congr_left h

namespace OutboxClient

variable {ρ : Nat → Nat} (hρ : StrictMono ρ) {s : Store} (next : Nat)

/-! ## Statements -/

section
include hρ

theorem beq_rename (a b : Nat) : (ρ a == ρ b) = (a == b) := by
  rw [Bool.eq_iff_iff, beq_iff_eq, beq_iff_eq, hρ.injective.eq_iff]

theorem leased_rename (messageId : Nat) (token : UUID) (r : Row) :
    leased (ρ messageId) token (r.rename ρ) = leased messageId token r := by
  simp only [leased, Row.rename, beq_rename hρ]

theorem wanted_rename (pairs : List (Nat × UUID)) (r : Row) :
    wanted (pairs.map (renamePair ρ)) (r.rename ρ) = wanted pairs r := by
  simp only [wanted, Row.rename, renamePair, List.any_map, Function.comp_def, beq_rename hρ]

theorem firstClaimable_rename (rows : List Row) (now leaseTtl : Int) (limit : Nat)
    (queues : List String) :
    firstClaimable (rows.map (Row.rename ρ)) (fun _ => false) now leaseTtl limit queues =
      (firstClaimable rows (fun _ => false) now leaseTtl limit queues).map (Row.rename ρ) := by
  unfold firstClaimable
  rw [filter_rename ρ rows (p := fun r => !false && decide (Claimable now leaseTtl queues r))
    fun r => rfl]
  rw [← List.map_insertionSort Row.claimLe Row.claimLe, List.map_take]
  intro a _ b _
  simp only [Row.claimLe, Row.rename, hρ.le_iff_le]

theorem fetch_rename (hwf : s.WF) (now : Int) (token : UUID) (queues : List String)
    (limit : Nat) (leaseTtl : Int) :
    fetch (s.rename ρ next) now token queues limit leaseTtl (fun _ => false) =
      ((fetch s now token queues limit leaseTtl fun _ => false).1.map (Row.rename ρ),
        (fetch s now token queues limit leaseTtl fun _ => false).2.rename ρ next) := by
  have hids : ((s.rename ρ next).rows.map Row.id).Nodup := by
    have hmap : (s.rename ρ next).rows.map Row.id = (s.rows.map Row.id).map ρ := by
      simp [Store.rename, Row.rename, Function.comp_def]
    rw [hmap]
    exact hwf.nodup_ids.map hρ.injective
  rw [fetch_eq hids, fetch_eq hwf.nodup_ids]
  simp only [Store.rename, firstClaimable_rename hρ]
  generalize firstClaimable s.rows (fun _ => false) now leaseTtl limit queues = claimed
  have hrows := map_rename ρ s.rows
    (f := fun r => if r ∈ claimed then claimSet r now token else r)
    (g := fun r => if r ∈ claimed.map (Row.rename ρ) then claimSet r now token else r)
    fun r _ => by
      simp only [List.mem_map_of_injective (Row.rename_injective hρ)]
      split <;> rfl
  rw [hrows]
  simp [Function.comp_def, claimSet, Row.rename]

theorem deleteWithLease_rename (now : Int) {dlqTable : Bool} {payload : Option DlqPayload}
    (hok : DlqPayload.Acceptable dlqTable payload) (messageId : Nat) (token : UUID) :
    deleteWithLease (s.rename ρ next) now dlqTable (ρ messageId) token payload =
      ((deleteWithLease s now dlqTable messageId token payload).1,
        (deleteWithLease s now dlqTable messageId token payload).2.rename ρ next) := by
  have hdeleted := filter_rename ρ s.rows (leased_rename hρ messageId token)
  have hkept := filter_rename ρ s.rows (p := fun r => !leased messageId token r)
    (q := fun r => !leased (ρ messageId) token r)
    fun r => congrArg not (leased_rename hρ messageId token r)
  cases payload with
  | none => simp [deleteWithLease, Store.rename, hdeleted, hkept]
  | some p =>
    obtain ⟨htable, hreason, hexc⟩ := hok
    obtain ⟨reason, hreason⟩ := Option.isSome_iff_exists.mp hreason
    obtain ⟨exc, hexc⟩ := Option.isSome_iff_exists.mp hexc
    simp [deleteWithLease, Store.rename, hdeleted, hkept, htable, hreason, hexc,
      Function.comp_def, dlqProjection, Row.rename, DlqRow.rename]

theorem deleteBatchWithLease_rename (pairs : List (Nat × UUID)) :
    deleteBatchWithLease (s.rename ρ next) (pairs.map (renamePair ρ)) =
      ((deleteBatchWithLease s pairs).1.image (renamePair ρ),
        (deleteBatchWithLease s pairs).2.rename ρ next) := by
  have hdeleted := filter_rename ρ s.rows (wanted_rename hρ pairs)
  have hkept := filter_rename ρ s.rows (p := fun r => !wanted pairs r)
    (q := fun r => !wanted (pairs.map (renamePair ρ)) r)
    fun r => congrArg not (wanted_rename hρ pairs r)
  unfold deleteBatchWithLease
  cases pairs with
  | nil => simp
  | cons pair pairs =>
    simp only [List.isEmpty_cons, List.map_cons, Bool.false_eq_true, if_false]
    simp only [List.map_cons] at hdeleted hkept
    simp only [Store.rename, hdeleted, hkept]
    refine Prod.ext ?_ rfl
    ext q
    simp only [List.mem_toFinset, List.mem_filterMap, List.mem_map, Finset.mem_image,
      Option.map_eq_some_iff]
    constructor
    · intro ⟨_, ⟨r, hr, rfl⟩, t, ht, hq⟩
      exact ⟨(r.id, t), ⟨r, hr, t, ht, rfl⟩, hq⟩
    · intro ⟨_, ⟨r, hr, t, ht, rfl⟩, hq⟩
      exact ⟨_, ⟨r, hr, rfl⟩, t, ht, hq⟩

theorem markPendingWithLease_rename (now : Int) (messageId : Nat) (token : UUID)
    (args : MarkPendingArgs) :
    markPendingWithLease (s.rename ρ next) now (ρ messageId) token args =
      ((markPendingWithLease s now messageId token args).1,
        (markPendingWithLease s now messageId token args).2.rename ρ next) := by
  have hmatched := filter_rename ρ s.rows (leased_rename hρ messageId token)
  have hrows := map_rename ρ s.rows
    (f := fun r => if leased messageId token r then pendingSet r now args else r)
    (g := fun r => if leased (ρ messageId) token r then pendingSet r now args else r)
    fun r _ => by
      simp only [leased_rename hρ]
      split <;> rfl
  unfold markPendingWithLease
  simp only [Store.rename, hmatched, List.length_map]
  exact Prod.ext rfl (congrArg (fun rows => Store.mk rows next
    (s.dlqRows.map (DlqRow.rename ρ))) hrows)

theorem fetchUnprocessed_rename (queue : Option String) (limit : Int) :
    fetchUnprocessed (s.rename ρ next) queue limit =
      (fetchUnprocessed s queue limit).map (List.map (Row.rename ρ)) := by
  unfold fetchUnprocessed
  split
  · rfl
  · simp only [Except.map, List.topN]
    rw [Store.rename, filter_rename ρ s.rows (p := fun r => queue.all fun q => r.queue == q)
      fun r => rfl]
    rw [← List.map_insertionSort Row.idLe Row.idLe, List.map_take]
    intro a _ b _
    simp only [Row.idLe, Row.rename, hρ.le_iff_le]

end

theorem cancelTimer_rename (queue timerId : String) :
    cancelTimer (s.rename ρ next) queue timerId =
      ((cancelTimer s queue timerId).1, (cancelTimer s queue timerId).2.rename ρ next) := by
  have hdropped := filter_rename ρ s.rows (p := FakeOutboxClient.cancellable queue timerId)
    (q := FakeOutboxClient.cancellable queue timerId) fun r => rfl
  have hkept := filter_rename ρ s.rows
    (p := fun r => !FakeOutboxClient.cancellable queue timerId r)
    (q := fun r => !FakeOutboxClient.cancellable queue timerId r) fun r => rfl
  simp only [cancelTimer_eq, Store.rename, hdropped, hkept, List.length_map]

/-- The number of sequence values an INSERT draws without using: one when it conflicts. -/
def skipped (s : Store) (now : Int) (args : InsertArgs) : Nat :=
  if s.rows.any (conflicts (excluded s now args)) then 1 else 0

/-- The statement looks at the proposed row's id only to store and return it. -/
theorem insert_rename (now : Int) {args : InsertArgs}
    (hok : insertable args.queue args.timerId args.headers = true)
    (hnext : skipped s now args = 0 → ρ s.nextId = next) :
    insert (s.rename ρ next) now args =
      ((insert s now args).1.map (Option.map ρ),
        (insert s now args).2.rename ρ (next + 1)) := by
  -- the conflict test does not look at ids
  have hconf : ∀ r, conflicts (excluded (s.rename ρ next) now args) (r.rename ρ) =
      conflicts (excluded s now args) r := fun r => rfl
  have hfind : (s.rename ρ next).rows.find?
      (conflicts (excluded (s.rename ρ next) now args)) =
      (s.rows.find? (conflicts (excluded s now args))).map (Row.rename ρ) := by
    show (s.rows.map (Row.rename ρ)).find? _ = _
    rw [List.find?_map]
    rfl
  unfold insert
  rw [if_neg (by simp [hok]), if_neg (by simp [hok])]
  simp only [hfind]
  cases hlive : s.rows.find? (conflicts (excluded s now args)) with
  | none =>
    -- nothing was skipped, so the new row takes the next id on either side
    have hskip : skipped s now args = 0 := by
      have hany : s.rows.any (conflicts (excluded s now args)) = false := by
        rw [List.any_eq_false]
        exact List.find?_eq_none.mp hlive
      simp [skipped, hany]
    have hnew : (excluded s now args).rename ρ = excluded (s.rename ρ next) now args := by
      simp [excluded, Row.rename, Store.rename, hnext hskip]
    simp only [Option.map_none, Except.map, Option.map_some]
    have hid : (excluded (s.rename ρ next) now args).id = ρ (excluded s now args).id := by
      rw [← hnew]
      rfl
    rw [hid]
    refine Prod.ext rfl ?_
    show Store.mk ((s.rows.map (Row.rename ρ)) ++ [excluded (s.rename ρ next) now args])
      (next + 1) _ = Store.rename ρ (next + 1) _
    rw [← hnew]
    simp [Store.rename]
  | some t =>
    simp only [Option.map_some]
    cases args.timerConflict with
    | ignore => rfl
    | extend =>
      have hlease : (t.rename ρ).acquiredToken = t.acquiredToken := rfl
      simp only [hlease]
      by_cases hfree : t.acquiredToken.isNone = true
      · have hrows := map_rename ρ s.rows
          (f := fun r => if conflicts (excluded s now args) r then
            extendSet r (excluded s now args) else r)
          (g := fun r => if conflicts (excluded (s.rename ρ next) now args) r then
            extendSet r (excluded (s.rename ρ next) now args) else r)
          fun r _ => by
            simp only [hconf]
            split <;> rfl
        rw [if_pos hfree, if_pos hfree]
        exact Prod.ext rfl (congrArg (fun rows => Store.mk rows (next + 1)
          (s.dlqRows.map (DlqRow.rename ρ))) hrows)
      · rw [if_neg hfree, if_neg hfree]
        rfl

theorem insertBatch_rename (now : Int) {args : InsertBatchArgs}
    (hok : (args.rows.all fun row => insertable args.queue none row.2) = true)
    (hnext : ∀ i, i < args.rows.length → ρ (s.nextId + i) = next + i) :
    insertBatch (s.rename ρ next) now args =
      ((insertBatch s now args).1,
        (insertBatch s now args).2.rename ρ (next + args.rows.length)) := by
  unfold insertBatch
  rw [if_neg (by simp [hok]), if_neg (by simp [hok])]
  refine Prod.ext rfl ?_
  simp only [Store.rename, List.map_append, List.map_map, List.length_map, List.length_zipIdx]
  congr 2
  refine List.map_congr_left fun entry hentry => ?_
  obtain ⟨row, i⟩ := entry
  have hi := (List.mem_zipIdx' hentry).1
  simp [Row.rename, hnext i hi]

end OutboxClient

/-! ## One call -/

/-- The sequence values a call draws in Postgres and the fake does not. -/
def Op.skips (w : World) : Op → Nat
  | .insert now args => OutboxClient.skipped w.store now args
  | _ => 0

/-- The world of Postgres that corresponds to a world of the fake. -/
def World.rename (ρ : Nat → Nat) (gap : Nat) (w : World) : World :=
  { store := w.store.rename ρ (w.store.nextId + gap), now := w.now }

/-- `ρ` takes the ids the fake has drawn to those Postgres has drawn, `gap` further on. -/
def Boundary (ρ : Nat → Nat) (n gap : Nat) : Prop := ∀ m, m < n ↔ ρ m < n + gap

theorem Reply.rename_inserted (ρ : Nat → Nat) (result : Except Error (Option Nat)) :
    Reply.rename ρ (.inserted result) = .inserted (result.map (Option.map ρ)) := by
  cases result <;> rfl

theorem Reply.rename_unprocessed (ρ : Nat → Nat) (result : Except Error (List Row)) :
    Reply.rename ρ (.unprocessed result) =
      .unprocessed (result.map (List.map (Row.rename ρ))) := by
  cases result <;> rfl

namespace World

variable {ρ : Nat → Nat} (hρ : StrictMono ρ) {w : World} (hwf : w.store.WF) {gap : Nat}
include hρ hwf

/-- A conflicting INSERT moves the gap by one, any other moves both counters. -/
theorem step_insert_rename (at_ : Int) {args : InsertArgs}
    (hok : OutboxClient.insertable args.queue args.timerId args.headers = true)
    (hhere : Boundary ρ w.store.nextId gap)
    (hthere : Boundary ρ (w.step .fake (.insert at_ args)).2.store.nextId
      (gap + Op.skips w (.insert at_ args))) :
    (w.rename ρ gap).step .postgres (.insert at_ args) =
      ((w.step .fake (.insert at_ args)).1.rename ρ,
        (w.step .fake (.insert at_ args)).2.rename ρ (gap + Op.skips w (.insert at_ args))) := by
  have hfake := FakeOutboxClient.insert_eq hwf at_ hok
  have hsql := OutboxClient.insert_rename (ρ := ρ) (s := w.store) (w.store.nextId + gap) at_ hok
  have hstore : (w.step .fake (.insert at_ args)).2.store.nextId +
      (gap + Op.skips w (.insert at_ args)) = w.store.nextId + gap + 1 := by
    simp only [step, apply, hfake, Op.skips, OutboxClient.skipped]
    split <;> omega
  -- an insert that inserts takes the next id on either side
  have hnext : OutboxClient.skipped w.store at_ args = 0 →
      ρ w.store.nextId = w.store.nextId + gap := by
    intro hskip
    have hdrawn : (w.step .fake (.insert at_ args)).2.store.nextId = w.store.nextId + 1 := by
      simp only [Op.skips] at hstore
      omega
    have hhigh : ∀ m, m < w.store.nextId + 1 ↔ ρ m < w.store.nextId + gap + 1 := by
      intro m
      have h := hthere m
      rw [hstore, hdrawn] at h
      exact h
    exact Renaming.eq_add_of_boundary hρ hhere hhigh (Nat.lt_succ_self 0)
  have hstep : (w.rename ρ gap).step .postgres (.insert at_ args) =
      (.inserted (OutboxClient.insert (w.store.rename ρ (w.store.nextId + gap)) at_ args).1,
        { store := (OutboxClient.insert (w.store.rename ρ (w.store.nextId + gap)) at_ args).2
          now := w.now }) := rfl
  rw [hstep, hsql hnext]
  refine Prod.ext ?_ ?_
  · simp only [step, apply, hfake, Reply.rename_inserted]
  · unfold World.rename
    rw [hstore]
    simp only [step, apply, hfake, clock]
    rfl

omit hwf in
/-- A batch moves both counters by its length. -/
theorem step_insertBatch_rename (at_ : Int) {args : InsertBatchArgs}
    (hok : (args.rows.all fun row => OutboxClient.insertable args.queue none row.2) = true)
    (hhere : Boundary ρ w.store.nextId gap)
    (hthere : Boundary ρ (w.step .fake (.insertBatch at_ args)).2.store.nextId gap) :
    (w.rename ρ gap).step .postgres (.insertBatch at_ args) =
      ((w.step .fake (.insertBatch at_ args)).1.rename ρ,
        (w.step .fake (.insertBatch at_ args)).2.rename ρ gap) := by
  have hfake := FakeOutboxClient.insertBatch_eq w.store at_ hok
  have hsql := OutboxClient.insertBatch_rename (ρ := ρ) (s := w.store) (w.store.nextId + gap)
    at_ hok
  have hdrawn : (w.step .fake (.insertBatch at_ args)).2.store.nextId =
      w.store.nextId + args.rows.length := by
    simp only [step, apply, hfake, OutboxClient.insertBatch]
    rw [if_neg (by simp [hok])]
    simp
  -- the ids of a batch are consecutive, and so are their images
  have hnext : ∀ i, i < args.rows.length →
      ρ (w.store.nextId + i) = w.store.nextId + gap + i := by
    intro i hi
    have hhigh : ∀ m, m < w.store.nextId + args.rows.length ↔
        ρ m < w.store.nextId + gap + args.rows.length := by
      intro m
      have h := hthere m
      rw [hdrawn] at h
      have hcomm : w.store.nextId + args.rows.length + gap =
          w.store.nextId + gap + args.rows.length := by omega
      rwa [hcomm] at h
    exact Renaming.eq_add_of_boundary hρ hhere hhigh hi
  have hstep : (w.rename ρ gap).step .postgres (.insertBatch at_ args) =
      (.insertedBatch
        (OutboxClient.insertBatch (w.store.rename ρ (w.store.nextId + gap)) at_ args).1,
        { store := (OutboxClient.insertBatch (w.store.rename ρ (w.store.nextId + gap)) at_ args).2
          now := w.now }) := rfl
  rw [hstep, hsql hnext]
  refine Prod.ext ?_ ?_
  · simp only [step, apply, hfake]
    rfl
  · unfold World.rename
    have hcomm : w.store.nextId + gap + args.rows.length =
        (w.step .fake (.insertBatch at_ args)).2.store.nextId + gap := by omega
    rw [hcomm]
    simp only [step, apply, hfake, clock]

/-- One call of the two clients, on stores equal up to the renaming. -/
theorem step_rename {op : Op} (hadm : op.Admissible) (hhere : Boundary ρ w.store.nextId gap)
    (hthere : Boundary ρ (w.step .fake op).2.store.nextId (gap + op.skips w)) :
    (w.rename ρ gap).step .postgres (op.rename ρ) =
      ((w.step .fake op).1.rename ρ, (w.step .fake op).2.rename ρ (gap + op.skips w)) := by
  cases op with
  | tick elapsed => rfl
  | insert at_ args => exact step_insert_rename hρ hwf at_ hadm hhere hthere
  | insertBatch at_ args => exact step_insertBatch_rename hρ at_ hadm.2 hhere hthere
  | fetch token queues limit leaseTtl locked =>
    obtain ⟨_, rfl⟩ := hadm
    have hnext : (OutboxClient.fetch w.store w.now token queues limit leaseTtl
        fun _ => false).2.nextId = w.store.nextId := by
      rw [OutboxClient.fetch_eq hwf.nodup_ids]
    have hlocked : ([] : List Nat).contains = fun _ => false := rfl
    simp only [Op.rename, step, apply, World.rename, hlocked, Op.skips, Nat.add_zero,
      OutboxClient.fetch_rename hρ _ hwf, FakeOutboxClient.fetch_eq hwf.nodup_ids, hnext, clock]
    rfl
  | deleteWithLease dlqTable messageId token payload =>
    have hnext : (OutboxClient.deleteWithLease w.store w.now dlqTable messageId token
        payload).2.nextId = w.store.nextId := by
      rw [OutboxClient.deleteWithLease_of_acceptable hwf w.now hadm]
    simp only [Op.rename, step, apply, World.rename, Op.skips, Nat.add_zero,
      OutboxClient.deleteWithLease_rename hρ _ w.now hadm,
      FakeOutboxClient.deleteWithLease_eq hwf w.now messageId token hadm, hnext, clock]
    rfl
  | deleteBatchWithLease pairs =>
    have hnext : (OutboxClient.deleteBatchWithLease w.store pairs).2.nextId =
        w.store.nextId := by
      rw [(OutboxClient.deleteBatchWithLease_spec hwf 0 pairs).2]
    simp only [Op.rename, step, apply, World.rename, Op.skips, Nat.add_zero,
      OutboxClient.deleteBatchWithLease_rename hρ, FakeOutboxClient.deleteBatchWithLease_eq,
      hnext, clock]
    rfl
  | markPendingWithLease messageId token args =>
    simp only [Op.rename, step, apply, World.rename, Op.skips, Nat.add_zero,
      OutboxClient.markPendingWithLease_rename hρ, FakeOutboxClient.markPendingWithLease_eq hwf,
      clock]
    rfl
  | cancelTimer queue timerId =>
    simp only [Op.rename, step, apply, World.rename, Op.skips, Nat.add_zero,
      OutboxClient.cancelTimer_rename, FakeOutboxClient.cancelTimer_eq hwf, clock]
    rfl
  | fetchUnprocessed queue limit =>
    simp only [Op.rename, step, apply, World.rename, Op.skips, Nat.add_zero,
      OutboxClient.fetchUnprocessed_rename hρ, FakeOutboxClient.fetchUnprocessed_eq hwf,
      Reply.rename_unprocessed, clock]

end World

/-! ## A run -/

/-- The two counters along a run of the fake: its next id, and how far ahead the sequence
    of Postgres is. -/
def World.gaps (w : World) (gap : Nat) : List Op → List (Nat × Nat)
  | [] => [(w.store.nextId, gap)]
  | op :: ops => (w.store.nextId, gap) :: (w.step .fake op).2.gaps (gap + op.skips w) ops

/-- Neither counter ever goes back. -/
theorem World.pairwise_gaps {w : World} (hwf : w.store.WF) (gap : Nat) (ops : List Op) :
    (w.gaps gap ops).Pairwise (fun p q => p.1 ≤ q.1 ∧ p.2 ≤ q.2) ∧
      ∀ p ∈ w.gaps gap ops, w.store.nextId ≤ p.1 ∧ gap ≤ p.2 := by
  induction ops generalizing w gap with
  | nil => simp [World.gaps]
  | cons op ops ih =>
    obtain ⟨hpair, hlow⟩ := ih (w := (w.step .fake op).2) (World.apply_wf hwf .fake op)
      (gap + op.skips w)
    have hgrow : w.store.nextId ≤ (w.step .fake op).2.store.nextId :=
      World.apply_nextId_le hwf .fake op
    have hlow' : ∀ p ∈ (w.step .fake op).2.gaps (gap + op.skips w) ops,
        w.store.nextId ≤ p.1 ∧ gap ≤ p.2 := by
      intro p hp
      have := hlow p hp
      omega
    refine ⟨List.pairwise_cons.mpr ⟨hlow', hpair⟩, ?_⟩
    intro p hp
    cases hp with
    | head => exact ⟨Nat.le_refl _, Nat.le_refl _⟩
    | tail _ hp => exact hlow' p hp

theorem World.mem_gaps (w : World) (gap : Nat) (ops : List Op) :
    (w.store.nextId, gap) ∈ w.gaps gap ops := by
  cases ops with
  | nil => exact List.mem_singleton_self _
  | cons op ops => exact List.mem_cons_self

/-- The replies of a run, in order. -/
def World.replies (b : Backend) (w : World) (ops : List Op) : List Reply :=
  (Run.trace (World.step b) w ops).map Run.Entry.output

/-- Where `ρ` follows the two counters, a run of Postgres on the renamed calls is the
    renamed run of the fake. -/
theorem World.run_rename {ρ : Nat → Nat} (hρ : StrictMono ρ) {w : World} (hwf : w.store.WF)
    {gap : Nat} {ops : List Op} (hadm : ∀ op ∈ ops, op.Admissible)
    (hpoints : ∀ p ∈ w.gaps gap ops, Boundary ρ p.1 p.2) :
    (w.rename ρ gap).replies .postgres (ops.map (Op.rename ρ)) =
        (w.replies .fake ops).map (Reply.rename ρ) ∧
      ∃ gap', Run.final (World.step .postgres) (w.rename ρ gap) (ops.map (Op.rename ρ)) =
        (Run.final (World.step .fake) w ops).rename ρ gap' := by
  induction ops generalizing w gap with
  | nil => exact ⟨rfl, gap, rfl⟩
  | cons op ops ih =>
    have hhere : Boundary ρ w.store.nextId gap := hpoints _ List.mem_cons_self
    have htail : ∀ p ∈ (w.step .fake op).2.gaps (gap + op.skips w) ops, Boundary ρ p.1 p.2 :=
      fun p hp => hpoints p (List.mem_cons_of_mem _ hp)
    have hthere : Boundary ρ (w.step .fake op).2.store.nextId (gap + op.skips w) :=
      htail _ (World.mem_gaps _ _ ops)
    have hstep := World.step_rename hρ hwf (hadm op List.mem_cons_self) hhere hthere
    obtain ⟨hreplies, gap', hfinal⟩ := ih (World.apply_wf hwf .fake op)
      (fun op' hop' => hadm op' (List.mem_cons_of_mem _ hop')) htail
    refine ⟨?_, gap', ?_⟩
    · simp only [World.replies, Run.trace, List.map_cons, hstep] at hreplies ⊢
      rw [hreplies]
    · simp only [List.map_cons, Run.final_cons, hstep]
      exact hfinal

/-- **The in-memory client refines the SQL client.** For every sequence of calls that both
    clients admit there is an order-preserving renaming of row ids under which they return
    the same result at every call and end with the same rows and dead letters. -/
theorem fake_refines_postgres (start : Int) (ops : List Op)
    (hadm : ∀ op ∈ ops, op.Admissible) :
    ∃ ρ : Nat → Nat, StrictMono ρ ∧
      let fake := World.init start
      let sql := World.init start
      sql.replies .postgres (ops.map (Op.rename ρ)) =
        (fake.replies .fake ops).map (Reply.rename ρ) ∧
      (Run.final (World.step .postgres) sql (ops.map (Op.rename ρ))).store.rows =
        (Run.final (World.step .fake) fake ops).store.rows.map (Row.rename ρ) ∧
      (Run.final (World.step .postgres) sql (ops.map (Op.rename ρ))).store.dlqRows =
        (Run.final (World.step .fake) fake ops).store.dlqRows.map (DlqRow.rename ρ) := by
  let points := (World.init start).gaps 0 ops
  have hmono := (World.pairwise_gaps (World.init_wf start) 0 ops).1
  have hρ := Renaming.strictMono_ofGaps points
  have hinit : (World.init start).rename (Renaming.ofGaps points) 0 = World.init start := rfl
  obtain ⟨hreplies, gap', hfinal⟩ := World.run_rename hρ (World.init_wf start) hadm
    fun p hp m => Renaming.lt_iff_ofGaps_lt hmono hp m
  rw [hinit] at hreplies hfinal
  refine ⟨Renaming.ofGaps points, hρ, hreplies, ?_, ?_⟩
  · rw [hfinal]
    rfl
  · rw [hfinal]
    rfl

/-- A publish on a live timer key between two others: Postgres has skipped an id. -/
def conflictingRun : List Op :=
  [.insert 0 { queue := "orders", payload := [1], timerId := some "t" },
   .insert 0 { queue := "orders", payload := [2], timerId := some "t" },
   .insert 0 { queue := "orders", payload := [3] },
   .fetch 7 ["orders"] 10 30 [],
   .deleteWithLease true 2 7 (some ⟨some "rejected", some none⟩)]

theorem fake_refines_postgres_conflictingRun :
    ∃ ρ : Nat → Nat, StrictMono ρ ∧
      (World.init 0).replies .postgres (conflictingRun.map (Op.rename ρ)) =
        ((World.init 0).replies .fake conflictingRun).map (Reply.rename ρ) := by
  have hadm : ∀ op ∈ conflictingRun, op.Admissible := by
    intro op hop
    simp only [conflictingRun, List.mem_cons, List.not_mem_nil, or_false] at hop
    rcases hop with rfl | rfl | rfl | rfl | rfl
    · show _ = true
      decide
    · show _ = true
      decide
    · show _ = true
      decide
    · exact ⟨by decide, rfl⟩
    · exact ⟨rfl, rfl, rfl⟩
  obtain ⟨ρ, hρ, hreplies, _⟩ := fake_refines_postgres 0 conflictingRun hadm
  exact ⟨ρ, hρ, hreplies⟩

end Outbox
