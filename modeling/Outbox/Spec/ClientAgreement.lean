import Mathlib.Data.Finset.Lattice.Lemmas
import Outbox.Spec.FetchCorrect

/-!
# The two clients agree

`FakeOutboxClient` scans and mutates a list; `OutboxClient` issues one statement. On a
well-formed store every call of the two gives the same reply and leaves the same rows,
so whatever is proved of the statements holds for the fake. Two differences remain: an
insert that conflicts still draws a value of the Postgres sequence, and a dead-letter
payload the client refuses is refused by the fake only once the row is found.

## Key results

- `FakeOutboxClient.insert_eq`: equal up to the drawn sequence value
- `FakeOutboxClient.deleteBatchLoop_eq`: the reverse index loop deletes the wanted rows
- `FakeOutboxClient.deleteWithLease_eq`, `FakeOutboxClient.markPendingWithLease_eq`,
  `FakeOutboxClient.cancelTimer_eq`: first match in the list = the one matching row
-/

namespace Outbox

/-- A dead-letter payload the client accepts: none, or both keys and a table to write to. -/
def DlqPayload.Acceptable (dlqTable : Bool) : Option DlqPayload → Prop
  | none => True
  | some payload =>
    dlqTable = true ∧ payload.failureReason.isSome = true ∧ payload.lastException.isSome = true

instance (dlqTable : Bool) (payload : Option DlqPayload) :
    Decidable (DlqPayload.Acceptable dlqTable payload) :=
  match payload with
  | none => isTrue trivial
  | some _ => inferInstanceAs (Decidable (_ ∧ _ ∧ _))

theorem DlqPayload.Acceptable.of_some {dlqTable : Bool} {p : DlqPayload}
    (hok : DlqPayload.Acceptable dlqTable (some p)) :
    dlqTable = true ∧ ∃ reason exc, p.failureReason = some reason ∧
      p.lastException = some exc := by
  obtain ⟨htable, hreason, hexc⟩ := hok
  obtain ⟨reason, hreason⟩ := Option.isSome_iff_exists.mp hreason
  obtain ⟨exc, hexc⟩ := Option.isSome_iff_exists.mp hexc
  exact ⟨htable, reason, exc, hreason, hexc⟩

namespace FakeOutboxClient

open OutboxClient (leased wanted conflicts excluded extendSet insertable)

/-! ## Inserting -/

/-- The fake validates exactly what the statement's columns accept. -/
theorem validateLikePostgres_eq_none_iff (queue : String) (timerId : Option String)
    (headers : Option Headers) :
    validateLikePostgres queue timerId headers = none ↔
      insertable queue timerId headers = true := by
  unfold validateLikePostgres insertable
  split
  · simp only [Bool.and_eq_true, decide_eq_true_eq]
    constructor
    · intro h
      cases h
    · intro h
      omega
  · split
    · simp only [Bool.and_eq_true, decide_eq_true_eq]
      constructor
      · intro h
        cases h
      · intro h
        omega
    · simp only [Bool.and_eq_true, decide_eq_true_eq, Option.map_eq_none_iff,
        Option.isNone_iff_eq_none]
      constructor
      · intro h
        exact ⟨by omega, h⟩
      · intro h
        exact h.2

/-- The scan for the timer key is the index lookup. -/
theorem holdsKey_eq_conflicts (s : Store) (now : Int) (args : InsertArgs) :
    holdsKey args.queue args.timerId = conflicts (excluded s now args) := by
  funext r
  cases ht : args.timerId with
  | none => simp [holdsKey, conflicts, excluded, ht]
  | some t => simp [holdsKey, conflicts, excluded, ht, Row.holdsTimer]

/-- At most one row conflicts with an insert. -/
theorem conflicts_unique {s : Store} (hwf : s.WF) (new : Row) :
    s.rows.Pairwise fun a b => ¬(conflicts new a = true ∧ conflicts new b = true) := by
  refine hwf.timer_uq.imp fun hab ⟨ha, hb⟩ => hab ?_
  simp only [conflicts, Bool.and_eq_true, beq_iff_eq] at ha hb
  exact ⟨by rw [ha.2]; exact ha.1.1, ha.1.2.trans hb.1.2.symm, ha.2.trans hb.2.symm⟩

/-- `_extend` computes the upsert's `SET` list on an unleased row. -/
theorem extend_eq {row : Row} (hfree : row.acquiredToken = none) (s : Store) (now : Int)
    (args : InsertArgs) :
    extend row args.payload args.headers (args.deadline now) =
      (some row.id, extendSet row (excluded s now args)) := by
  have hdeadline : (excluded s now args).nextAttemptAt = args.deadline now := by
    simp only [excluded, InsertArgs.deadline, resolveNextAttemptClientSide]
    cases args.activateIn <;> rfl
  unfold extend extendSet
  rw [hdeadline, if_neg (by simp [hfree])]
  by_cases hlater : args.deadline now > row.nextAttemptAt
  · simp [hlater, excluded, Int.max_eq_right (Int.le_of_lt hlater)]
  · have hmax : max row.nextAttemptAt (args.deadline now) = row.nextAttemptAt :=
      Int.max_eq_left (Int.not_lt.mp hlater)
    simp [hlater, hmax]

/-- The appended row is the one the statement proposes. -/
theorem append_eq (s : Store) (now : Int) (args : InsertArgs) :
    append s now args.queue args.payload args.headers (some (args.deadline now)) args.timerId =
      (excluded s now args,
        { s with rows := s.rows ++ [excluded s now args], nextId := s.nextId + 1 }) := by
  simp only [append, excluded, InsertArgs.deadline, resolveNextAttemptClientSide]
  cases args.activateIn <;> rfl

/-- The two inserts agree, except that a conflicting statement has drawn an id. -/
theorem insert_eq {s : Store} (hwf : s.WF) (now : Int) {args : InsertArgs}
    (hok : insertable args.queue args.timerId args.headers = true) :
    insert s now args =
      ((OutboxClient.insert s now args).1,
        { (OutboxClient.insert s now args).2 with
          nextId := if s.rows.any (conflicts (excluded s now args)) then s.nextId
            else s.nextId + 1 }) := by
  have hvalid := (validateLikePostgres_eq_none_iff _ _ _).mpr hok
  unfold insert OutboxClient.insert
  rw [hvalid, if_neg (by simp [hok]), holdsKey_eq_conflicts s now args]
  cases hfind : s.rows.find? (conflicts (excluded s now args)) with
  | none =>
    have hany : s.rows.any (conflicts (excluded s now args)) = false := by
      rw [List.any_eq_false]
      exact List.find?_eq_none.mp hfind
    simp [store, holdsKey_eq_conflicts s now args, hany, hfind, append_eq]
  | some live =>
    have hlive := List.find?_some hfind
    have hany : s.rows.any (conflicts (excluded s now args)) = true :=
      List.any_eq_true.mpr ⟨live, List.mem_of_find?_eq_some hfind, hlive⟩
    cases hc : args.timerConflict with
    | ignore => simp [store, holdsKey_eq_conflicts s now args, hany, hfind]
    | extend =>
      have hunique := conflicts_unique hwf (excluded s now args)
      simp only [hany, hfind, if_true]
      cases htoken : live.acquiredToken with
      | some token =>
        -- a leased timer is left alone by both
        have hkeep : (s.rows.map fun r =>
            if conflicts (excluded s now args) r then live else r) = s.rows := by
          have hsame : ∀ r ∈ s.rows,
              (if conflicts (excluded s now args) r then live else r) = r := by
            intro r hr
            split
            · rename_i hcr
              exact List.eq_of_pairwise_not hunique
                (List.mem_of_find?_eq_some hfind) hr hlive hcr
            · rfl
          rw [List.map_congr_left hsame, List.map_id']
        simp [extend, htoken, List.updateFirst_eq_map _ hunique, hkeep]
      | none =>
        rw [extend_eq htoken s now args]
        simp only [Option.isNone_none, if_true]
        have hset : (s.rows.map fun r => if conflicts (excluded s now args) r then
              extendSet live (excluded s now args) else r) =
            s.rows.map fun r => if conflicts (excluded s now args) r then
              extendSet r (excluded s now args) else r := by
          refine List.map_congr_left fun r hr => ?_
          split
          · rename_i hcr
            rw [List.eq_of_pairwise_not hunique (List.mem_of_find?_eq_some hfind) hr hlive hcr]
          · rfl
        rw [List.updateFirst_eq_map _ hunique, hset]

/-- The loop over `_append` inserts the statement's rows, numbered from the next id. -/
private theorem foldl_append_eq (now : Int) (queue : String) (nextAt : Option Int)
    (rows : List (Bytes × Option Headers)) (s : Store) :
    rows.foldl (fun s row => (append s now queue row.1 row.2 nextAt none).2) s =
      { s with
        rows := s.rows ++ (rows.zipIdx s.nextId).map fun (row, i) =>
          ({ id := i
             queue := queue
             payload := row.1
             headers := row.2
             createdAt := now
             nextAttemptAt := nextAt.getD now } : Row)
        nextId := s.nextId + rows.length } := by
  induction rows generalizing s with
  | nil => simp
  | cons row rows ih =>
    rw [List.foldl_cons, ih]
    simp only [append, List.zipIdx_cons, List.map_cons, List.append_assoc, List.cons_append,
      List.nil_append, List.length_cons]
    congr 1
    omega

theorem insertBatch_eq (s : Store) (now : Int) {args : InsertBatchArgs}
    (hok : (args.rows.all fun row => insertable args.queue none row.2) = true) :
    insertBatch s now args = OutboxClient.insertBatch s now args := by
  have hvalid : (args.rows.findSome? fun row => validateLikePostgres args.queue none row.2) =
      none := by
    rw [List.findSome?_eq_none_iff]
    intro row hrow
    exact (validateLikePostgres_eq_none_iff _ _ _).mpr (List.all_eq_true.mp hok row hrow)
  unfold insertBatch OutboxClient.insertBatch
  rw [hvalid, if_neg (by simp [hok])]
  simp only [foldl_append_eq]
  rw [List.zipIdx_eq_map_add]
  simp [List.map_map, Function.comp_def]

/-! ## Terminal writes -/

theorem holdsLease_eq (messageId : Nat) (token : UUID) :
    holdsLease messageId token = leased messageId token := by
  funext r
  simp [holdsLease, leaseTokenMatches, leased]

/-- The rows a single terminal write matches, as the row the scan finds. -/
theorem filter_leased_eq {s : Store} (hwf : s.WF) (messageId : Nat) (token : UUID) :
    s.rows.filter (leased messageId token) =
      (s.rows.find? (leased messageId token)).toList :=
  List.filter_eq_find?_toList (hwf.leased_unique messageId token)

theorem deleteWithLease_eq {s : Store} (hwf : s.WF) (now : Int) {dlqTable : Bool}
    (messageId : Nat) (token : UUID) {payload : Option DlqPayload}
    (hok : DlqPayload.Acceptable dlqTable payload) :
    deleteWithLease s now dlqTable messageId token payload =
      OutboxClient.deleteWithLease s now dlqTable messageId token payload := by
  have hunique := hwf.leased_unique messageId token
  unfold deleteWithLease OutboxClient.deleteWithLease
  rw [holdsLease_eq, filter_leased_eq hwf]
  cases hfind : s.rows.find? (leased messageId token) with
  | none =>
    -- no row is under the lease: the statement deletes none
    have hkeep : (s.rows.filter fun r => !leased messageId token r) = s.rows := by
      rw [List.filter_eq_self]
      intro r hr
      simpa using List.find?_eq_none.mp hfind r hr
    cases payload with
    | none => simp [hkeep]
    | some p =>
      obtain ⟨htable, reason, exc, hreason, hexc⟩ := hok.of_some
      simp [hkeep, htable, hreason, hexc]
  | some row =>
    simp only [List.eraseP_eq_filter hunique]
    cases payload with
    | none => simp
    | some p =>
      obtain ⟨htable, reason, exc, hreason, hexc⟩ := hok.of_some
      simp [htable, hreason, hexc]

/-- The row holds the lease of one of the pairs. -/
private def holdsPair (pairs : Finset (Nat × UUID)) (r : Row) : Bool :=
  (leasePair r).any fun pair => decide (pair ∈ pairs)

/-- The reverse index loop deletes the wanted rows below the index and nothing else:
    deleting at `i` shifts only rows above it. -/
private theorem deleteBatchLoop_eq (pairs : Finset (Nat × UUID)) (i : Nat) (rows : List Row)
    (deleted : Finset (Nat × UUID)) (hi : i ≤ rows.length) :
    deleteBatchLoop pairs i rows deleted =
      ((((rows.take i).filter (holdsPair pairs)).filterMap leasePair).toFinset ∪ deleted,
        ((rows.take i).filter fun r => !holdsPair pairs r) ++ rows.drop i) := by
  induction i generalizing rows deleted with
  | zero => simp [deleteBatchLoop]
  | succ i ih =>
    have hlt : i < rows.length := hi
    -- the row at the index is the last of the prefix
    have htake : rows.take (i + 1) = rows.take i ++ [rows[i]] :=
      List.take_succ_eq_append_getElem hlt
    have hdrop : rows.drop i = rows[i] :: rows.drop (i + 1) := List.drop_eq_getElem_cons hlt
    unfold deleteBatchLoop
    rw [List.getElem?_eq_getElem hlt, Option.bind_some, htake]
    cases hpair : leasePair rows[i] with
    | none =>
      have hmiss : holdsPair pairs rows[i] = false := by simp [holdsPair, hpair]
      simp only [ih rows deleted (Nat.le_of_lt hlt), List.filter_append]
      rw [hdrop]
      simp [hmiss]
    | some pair =>
      by_cases hmem : pair ∈ pairs
      · -- the row goes, and the ones below it stay where they are
        have hhit : holdsPair pairs rows[i] = true := by simp [holdsPair, hpair, hmem]
        have herase : rows.eraseIdx i = rows.take i ++ rows.drop (i + 1) :=
          List.eraseIdx_eq_take_drop_succ rows i
        have hlen : (rows.take i).length = i := List.length_take_of_le (Nat.le_of_lt hlt)
        have hbelow : (rows.eraseIdx i).take i = rows.take i := by
          rw [herase, List.take_left' hlen]
        have habove : (rows.eraseIdx i).drop i = rows.drop (i + 1) := by
          rw [herase, List.drop_left' hlen]
        have hbound : i ≤ (rows.eraseIdx i).length := by
          rw [herase, List.length_append, hlen]
          omega
        simp only [hmem, if_true, ih (rows.eraseIdx i) _ hbound, hbelow, habove,
          List.filter_append]
        refine Prod.ext ?_ (by simp [hhit])
        ext p
        simp [hhit, hpair]
      · have hmiss : holdsPair pairs rows[i] = false := by simp [holdsPair, hpair, hmem]
        simp only [hmem, if_false, ih rows deleted (Nat.le_of_lt hlt), List.filter_append]
        rw [hdrop]
        simp [hmiss]

theorem deleteBatchWithLease_eq (s : Store) (pairs : List (Nat × UUID)) :
    deleteBatchWithLease s pairs = OutboxClient.deleteBatchWithLease s pairs := by
  have hhit : holdsPair pairs.toFinset = wanted pairs := by
    funext r
    rw [Bool.eq_iff_iff]
    simp only [holdsPair, leasePair, wanted, Option.any_eq_true, List.any_eq_true,
      List.mem_toFinset, decide_eq_true_eq, Option.map_eq_some_iff, Bool.and_eq_true,
      beq_iff_eq]
    constructor
    · rintro ⟨pair, ⟨token, htoken, hpair⟩, hmem⟩
      exact ⟨pair, hmem, by rw [← hpair], by rw [htoken, ← hpair]⟩
    · rintro ⟨pair, hmem, hid, htoken⟩
      exact ⟨pair, ⟨pair.2, htoken, by rw [hid]⟩, hmem⟩
  unfold deleteBatchWithLease OutboxClient.deleteBatchWithLease
  rw [deleteBatchLoop_eq pairs.toFinset s.rows.length s.rows ∅ (Nat.le_refl _), hhit]
  simp only [List.take_length, List.drop_length, Finset.union_empty, List.append_nil]
  split
  · rename_i hempty
    have hnone : wanted pairs = fun _ => false := by
      funext r
      simp [wanted, List.isEmpty_iff.mp hempty]
    simp [hnone]
  · rfl

theorem markPendingWithLease_eq {s : Store} (hwf : s.WF) (now : Int) (messageId : Nat)
    (token : UUID) (args : MarkPendingArgs) :
    markPendingWithLease s now messageId token args =
      OutboxClient.markPendingWithLease s now messageId token args := by
  have hunique := hwf.leased_unique messageId token
  unfold markPendingWithLease OutboxClient.markPendingWithLease
  rw [holdsLease_eq]
  split
  · rename_i hany
    obtain ⟨r, hr, hl⟩ := List.any_eq_true.mp hany
    have hpos : 0 < (s.rows.filter (leased messageId token)).length :=
      List.length_pos_of_mem (List.mem_filter.mpr ⟨hr, hl⟩)
    rw [List.updateFirst_eq_map _ hunique, decide_eq_true hpos]
  · rename_i hany
    have hnone : ∀ r ∈ s.rows, leased messageId token r = false := by
      rw [Bool.not_eq_true, List.any_eq_false] at hany
      intro r hr
      simpa using hany r hr
    have hzero : s.rows.filter (leased messageId token) = [] := by
      rw [List.filter_eq_nil_iff]
      intro r hr
      simp [hnone r hr]
    -- no row is under the lease: the statement updates none
    have hkeep : ∀ f : Row → Row,
        (s.rows.map fun r => if leased messageId token r then f r else r) = s.rows := by
      intro f
      have hsame : ∀ r ∈ s.rows, (if leased messageId token r then f r else r) = r := by
        intro r hr
        rw [hnone r hr]
        rfl
      rw [List.map_congr_left hsame, List.map_id']
    rw [hzero, hkeep]
    rfl

/-! ## Timers and reads -/

theorem cancelTimer_eq {s : Store} (hwf : s.WF) (queue timerId : String) :
    cancelTimer s queue timerId = OutboxClient.cancelTimer s queue timerId := by
  have hunique : s.rows.Pairwise fun a b => ¬(cancellable queue timerId a = true ∧
      cancellable queue timerId b = true) := by
    refine (hwf.holdsTimer_unique queue timerId).imp fun hab ⟨ha, hb⟩ => hab ?_
    simp only [cancellable, Bool.and_eq_true] at ha hb
    exact ⟨ha.1, hb.1⟩
  have hcancel : (fun r : Row => r.queue == queue && r.timerId == some timerId &&
      r.acquiredToken.isNone) = cancellable queue timerId := by
    funext r
    rfl
  unfold cancelTimer OutboxClient.cancelTimer
  rw [hcancel]
  split
  · rename_i hany
    obtain ⟨r, hr, hc⟩ := List.any_eq_true.mp hany
    have hpos : 0 < (s.rows.filter (cancellable queue timerId)).length :=
      List.length_pos_of_mem (List.mem_filter.mpr ⟨hr, hc⟩)
    simp only [List.eraseP_eq_filter hunique, decide_eq_true hpos]
  · rename_i hany
    rw [Bool.not_eq_true, List.any_eq_false] at hany
    have hzero : s.rows.filter (cancellable queue timerId) = [] :=
      List.filter_eq_nil_iff.mpr hany
    have hkeep : (s.rows.filter fun r => !cancellable queue timerId r) = s.rows := by
      rw [List.filter_eq_self]
      intro r hr
      simpa using hany r hr
    simp only [hzero, hkeep]
    rfl

theorem fetchUnprocessed_eq {s : Store} (hwf : s.WF) (queue : Option String) (limit : Int) :
    fetchUnprocessed s queue limit = OutboxClient.fetchUnprocessed s queue limit := by
  have hties : s.rows.Untied Row.idLe := by
    intro a ha b hb hab hba
    exact List.inj_on_of_nodup_map hwf.nodup_ids ha hb (Nat.le_antisymm hab hba)
  unfold fetchUnprocessed OutboxClient.fetchUnprocessed
  cases queue with
  | none => simp [List.topN]
  | some q =>
    simp only [Option.all_some, List.topN]
    rw [List.filter_insertionSort _ hties]

end FakeOutboxClient

end Outbox
