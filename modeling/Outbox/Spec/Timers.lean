import Outbox.Spec.LeaseSafety

/-!
# Timers

The contract of `timer_id`: an extend that returned a row is a promise on its deadline,
a cancel that returned `True` is final, and a publish or a cancel that returned nothing
has touched nothing. The deadline of a row is also written by reschedules; these need the
row's lease, which an extended row does not have, and count from a clock that is past the
deadline by the time a lease exists.

## Key results

- `RowStep.keeps_deadline`: one operation keeps an extend's promise
- `World.insert_on_free_key`, `World.cancel_lands`: what the two replies mean
- `timer_contract`: the contract over any run
-/

namespace Outbox

/-- The promise of an extend on a row: unclaimed with a deadline of at least `d`, or gone,
    until the clock reaches `d`; and its id is never drawn again. -/
structure Promised (d : Int) (id : Nat) (w : World) : Prop where
  drawn : id < w.store.nextId
  due : d ≤ w.now ∨ ∀ row, w.store.row? id = some row →
    row.acquiredToken = none ∧ d ≤ row.nextAttemptAt

/-! ## One step -/

theorem RowStep.keeps_deadline {id nextId : Nat} {now d : Int} {op : Op} {reply : Reply}
    {r r' : Option Row} (h : RowStep id nextId now op reply r r') (hdrawn : id < nextId)
    (hdue : d ≤ now ∨ ∀ row, r = some row → row.acquiredToken = none ∧ d ≤ row.nextAttemptAt) :
    d ≤ now ∨ ∀ row, r' = some row → row.acquiredToken = none ∧ d ≤ row.nextAttemptAt := by
  cases hdue with
  | inl hnow => exact Or.inl hnow
  | inr hrow =>
    cases h with
    | same _ _ _ => exact Or.inr hrow
    | inserted hfresh => omega
    | insertedBatch hfresh _ => omega
    | @extended _ _ row new _ _ _ _ _ _ =>
      obtain ⟨hfree, hlater⟩ := hrow row rfl
      refine Or.inr fun row' hrow' => ?_
      cases hrow'
      exact ⟨hfree, Int.le_trans hlater (Int.le_max_left _ _)⟩
    | claimed _ hclaimable =>
      -- a claim needs the deadline to have passed
      exact Or.inl (Int.le_trans (hrow _ rfl).2 hclaimable.2.1)
    | rescheduled htoken => exact absurd ((hrow _ rfl).1.symm.trans htoken) (by simp)
    | deleted _ => exact Or.inr fun row hrow' => by cases hrow'
    | deletedBatch _ _ _ => exact Or.inr fun row hrow' => by cases hrow'
    | cancelled _ _ => exact Or.inr fun row hrow' => by cases hrow'

/-- An extend that returns an id has set the row's deadline to the requested one or later. -/
theorem RowStep.of_inserted {id nextId : Nat} {now at_ : Int} {args : InsertArgs}
    {reply : Reply} {r r' : Option Row}
    (h : RowStep id nextId now (.insert at_ args) reply r r')
    (hreply : reply = .inserted (.ok (some id))) :
    ∃ row, r' = some row ∧ row.acquiredToken = none ∧ args.deadline at_ ≤ row.nextAttemptAt := by
  cases h with
  | same _ _ hno => exact absurd hreply hno
  | inserted _ => exact ⟨_, rfl, rfl, Int.le_refl _⟩
  | extended _ hfree _ _ _ hnew =>
    obtain ⟨s, rfl⟩ := hnew
    refine ⟨_, rfl, hfree, ?_⟩
    have hdeadline : (OutboxClient.excluded s at_ args).nextAttemptAt = args.deadline at_ := by
      simp only [OutboxClient.excluded, InsertArgs.deadline, resolveNextAttemptClientSide]
      cases args.activateIn <;> rfl
    rw [← hdeadline]
    exact Int.le_max_right _ _

/-- A row no live id is drawn for again stays gone. -/
theorem RowStep.stays_gone {id nextId : Nat} {now : Int} {op : Op} {reply : Reply}
    {r' : Option Row} (h : RowStep id nextId now op reply none r') (hdrawn : id < nextId) :
    r' = none ∧ ∀ token, ¬Claims op reply id token := by
  cases h with
  | same hclaims _ _ => exact ⟨rfl, hclaims⟩
  | inserted hfresh => omega
  | insertedBatch hfresh _ => omega

/-- Publishing and cancelling touch no leased row. -/
theorem RowStep.leased_kept {id nextId : Nat} {now : Int} {op : Op} {reply : Reply} {row : Row}
    {r' : Option Row} (h : RowStep id nextId now op reply (some row) r')
    (hop : (∃ at_ args, op = .insert at_ args) ∨ (∃ at_ args, op = .insertBatch at_ args) ∨
      ∃ queue timerId, op = .cancelTimer queue timerId)
    (hleased : row.acquiredToken ≠ none) : r' = some row := by
  cases h with
  | same _ _ _ => rfl
  | extended _ hfree _ _ _ _ => exact absurd hfree hleased
  | cancelled _ hfree => exact absurd hfree hleased
  | _ => simp at hop

/-- A publish that returns `None` and a cancel that returns `False` change no row. -/
theorem RowStep.same_of_nothing {id nextId : Nat} {now : Int} {op : Op} {reply : Reply}
    {r r' : Option Row} (h : RowStep id nextId now op reply r r')
    (hreply : reply = .inserted (.ok none) ∨ reply = .cancelled false) : r' = r := by
  cases h with
  | same _ _ _ => rfl
  | _ => simp at hreply

namespace World

variable {w : World} (hwf : w.store.WF)
include hwf

/-- A publish on a key no live row holds inserts a new row. -/
theorem insert_on_free_key (b : Backend) (at_ : Int) {args : InsertArgs}
    (hok : OutboxClient.insertable args.queue args.timerId args.headers = true)
    (hfree : ∀ t, args.timerId = some t → ∀ r ∈ w.store.rows, ¬r.holdsTimer args.queue t = true) :
    ∃ new, w.store.nextId ≤ new ∧
      (w.step b (.insert at_ args)).1 = .inserted (.ok (some new)) ∧
      (w.step b (.insert at_ args)).2.store.row? new =
        some (freshRow new args.queue args.payload args.headers args.timerId at_
          (args.deadline at_)) := by
  have hfind : w.store.rows.find?
      (OutboxClient.conflicts (OutboxClient.excluded w.store at_ args)) = none := by
    rw [← FakeOutboxClient.holdsKey_eq_conflicts, List.find?_eq_none]
    intro r hr
    cases ht : args.timerId with
    | none => simp [FakeOutboxClient.holdsKey]
    | some t => exact hfree t ht r hr
  have hsql : (OutboxClient.insert w.store at_ args).1 = .ok (some w.store.nextId) := by
    unfold OutboxClient.insert
    rw [if_neg (by simp [hok])]
    simp only [hfind]
    rfl
  have hreply : (w.apply b (.insert at_ args)).1 = .inserted (.ok (some w.store.nextId)) := by
    cases b <;> simp [apply, FakeOutboxClient.insert_eq hwf at_ hok, hsql]
  have hrow := apply_rowStep hwf b (.insert at_ args) w.store.nextId
  rw [hreply, hwf.row?_of_le (Nat.le_refl _)] at hrow
  refine ⟨w.store.nextId, Nat.le_refl _, hreply, ?_⟩
  show (w.apply b (.insert at_ args)).2.row? w.store.nextId = _
  generalize (w.apply b (.insert at_ args)).2.row? w.store.nextId = r' at hrow
  cases hrow with
  | same _ _ hno => exact absurd rfl hno
  | inserted _ => rfl

/-- A cancel that returns `True` removed the live, unleased row of the key. -/
theorem cancel_lands (b : Backend) {queue timerId : String}
    (hreply : (w.step b (.cancelTimer queue timerId)).1 = .cancelled true) :
    ∃ id row, w.store.row? id = some row ∧ row.holdsTimer queue timerId = true ∧
      row.acquiredToken = none ∧
      (w.step b (.cancelTimer queue timerId)).2.store.row? id = none ∧
      ∀ r ∈ (w.step b (.cancelTimer queue timerId)).2.store.rows,
        ¬r.holdsTimer queue timerId = true := by
  simp only [step, apply_cancelTimer hwf b, OutboxClient.cancelTimer_eq] at hreply ⊢
  simp only [Reply.cancelled.injEq, decide_eq_true_eq] at hreply
  obtain ⟨row, hmem⟩ := List.exists_mem_of_length_pos hreply
  obtain ⟨hrow, hc⟩ := List.mem_filter.mp hmem
  have hkey : row.holdsTimer queue timerId = true ∧ row.acquiredToken = none := by
    simpa [FakeOutboxClient.cancellable] using hc
  refine ⟨row.id, row, hwf.row?_mem hrow, hkey.1, hkey.2, ?_, ?_⟩
  · show lookup _ row.id = none
    have hlive : lookup w.store.rows row.id = some row := hwf.row?_mem hrow
    rw [lookup_filter hwf.nodup_ids, hlive, Option.filter_some, hc]
    rfl
  · intro r hr hholds
    obtain ⟨hr, hkept⟩ := List.mem_filter.mp hr
    have hsame : r = row := List.eq_of_pairwise_not (hwf.holdsTimer_unique queue timerId) hr hrow
      hholds hkey.1
    rw [hsame, hc] at hkept
    cases hkept

end World

/-! ## A run -/

section Trace

variable {b : Backend} {start : Int} {ops : List Op}

theorem World.trace_output {k : Nat} {e : World.Entry}
    (h : (World.trace b start ops)[k]? = some e) :
    (World.step b e.before e.input).1 = e.output ∧
      (World.step b e.before e.input).2 = e.after := by
  rw [World.trace_step h]
  exact ⟨rfl, rfl⟩

theorem World.trace_wf_after {k : Nat} {e : World.Entry}
    (h : (World.trace b start ops)[k]? = some e) : e.after.store.WF :=
  (Run.trace_invariant (P := fun w => w.store.WF) (fun _ op hw => World.apply_wf hw b op)
    (World.init_wf start) h).2

theorem World.trace_nextId_le {k : Nat} {e : World.Entry}
    (h : (World.trace b start ops)[k]? = some e) :
    e.before.store.nextId ≤ e.after.store.nextId := by
  rw [← (World.trace_output h).2]
  exact World.apply_nextId_le (World.trace_wf h) b e.input

/-- The clock of the database never goes back. -/
theorem World.trace_now_le {k : Nat} {e : World.Entry}
    (h : (World.trace b start ops)[k]? = some e) : e.before.now ≤ e.after.now := by
  rw [← (World.trace_output h).2]
  show e.before.now ≤ e.before.clock e.input
  unfold World.clock
  split <;> omega

/-- A row a run has removed is never claimed again. -/
theorem removed_row_stays_gone {i j : Nat} {e e' : World.Entry} {id : Nat}
    (hi : (World.trace b start ops)[i]? = some e) (hj : (World.trace b start ops)[j]? = some e')
    (hij : i < j) (hdrawn : id < e.after.store.nextId) (hgone : e.after.store.row? id = none) :
    id < e'.before.store.nextId ∧ ∀ token, ¬Claims e'.input e'.output id token := by
  have hbefore := Run.trace_between
    (P := fun w => id < w.store.nextId ∧ w.store.row? id = none) hi hj hij ⟨hdrawn, hgone⟩
    fun k e'' _ _ hk ⟨hdrawn, hgone⟩ => by
      have hrow := World.trace_rowStep hk id
      rw [hgone] at hrow
      exact ⟨Nat.lt_of_lt_of_le hdrawn (World.trace_nextId_le hk),
        (hrow.stays_gone hdrawn).1⟩
  have hrow := World.trace_rowStep hj id
  rw [hbefore.2] at hrow
  exact ⟨hbefore.1, (hrow.stays_gone hbefore.1).2⟩

/-- The deadline an extend returned a row for is a promise on every later claim. -/
theorem extend_deadline_kept {i j : Nat} {e e' : World.Entry} {id : Nat} {at_ : Int}
    {args : InsertArgs} {token : UUID} (hi : (World.trace b start ops)[i]? = some e)
    (hj : (World.trace b start ops)[j]? = some e') (hij : i < j)
    (hop : e.input = .insert at_ args) (hreply : e.output = .inserted (.ok (some id)))
    (hclaims : Claims e'.input e'.output id token) : args.deadline at_ ≤ e'.before.now := by
  have hfirst : Promised (args.deadline at_) id e.after := by
    have hrow := World.trace_rowStep hi id
    rw [hop] at hrow
    obtain ⟨row, hafter, hfree, hlater⟩ := hrow.of_inserted hreply
    obtain ⟨hmem, hid⟩ := (Store.row?_eq_some_iff (World.trace_wf_after hi)).mp hafter
    refine ⟨hid ▸ (World.trace_wf_after hi).ids_lt row hmem, Or.inr fun row' hrow' => ?_⟩
    have heq : row' = row := Option.some_inj.mp (hrow'.symm.trans hafter)
    subst heq
    exact ⟨hfree, hlater⟩
  have hlast : Promised (args.deadline at_) id e'.before :=
    Run.trace_between hi hj hij hfirst fun k e'' _ _ hk hbefore => by
      refine ⟨Nat.lt_of_lt_of_le hbefore.drawn (World.trace_nextId_le hk), ?_⟩
      cases (World.trace_rowStep hk id).keeps_deadline hbefore.drawn hbefore.due with
      | inl hnow => exact Or.inl (Int.le_trans hnow (World.trace_now_le hk))
      | inr hrow => exact Or.inr hrow
  obtain ⟨_, row, _, _, _, _, _, hrow, hclaimable, _⟩ :=
    (World.trace_rowStep hj id).of_claims hclaims
  cases hlast.due with
  | inl hnow => exact hnow
  | inr hdue => exact Int.le_trans (hdue row hrow).2 hclaimable.2.1

/-- **The timer contract.** In every run: an extend that returned a row id is not claimed
    before its deadline; a cancel that returned `True` removed a row that no later fetch
    returns, and its key is free for a new row; a publish that returned `None` or a cancel
    that returned `False` changed no row; and a row with a lease, expired or not, is left
    alone by publishes and cancels. -/
theorem timer_contract (b : Backend) (start : Int) (ops : List Op) :
    let run := World.trace b start ops
    (∀ (i j : Nat) (e e' : World.Entry) (at_ : Int) (args : InsertArgs) (id : Nat)
      (token : UUID), run[i]? = some e → run[j]? = some e' → i < j →
      e.input = .insert at_ args → args.timerConflict = .extend →
      e.output = .inserted (.ok (some id)) → Claims e'.input e'.output id token →
      args.deadline at_ ≤ e'.before.now) ∧
    (∀ (i : Nat) (e : World.Entry) (queue timerId : String), run[i]? = some e →
      e.input = .cancelTimer queue timerId → e.output = .cancelled true →
      ∃ id row, e.before.store.row? id = some row ∧ row.holdsTimer queue timerId = true ∧
        row.acquiredToken = none ∧ e.after.store.row? id = none ∧
        (∀ (j : Nat) (e' : World.Entry) (token : UUID), i < j → run[j]? = some e' →
          ¬Claims e'.input e'.output id token) ∧
        ∀ (at_ : Int) (args : InsertArgs), args.queue = queue → args.timerId = some timerId →
          OutboxClient.insertable args.queue args.timerId args.headers = true →
          ∃ new, new ≠ id ∧
            (e.after.step b (.insert at_ args)).1 = .inserted (.ok (some new)) ∧
            (e.after.step b (.insert at_ args)).2.store.row? new =
              some (freshRow new args.queue args.payload args.headers args.timerId at_
                (args.deadline at_))) ∧
    (∀ (i : Nat) (e : World.Entry), run[i]? = some e →
      e.output = .inserted (.ok none) ∨ e.output = .cancelled false →
      ∀ id, e.after.store.row? id = e.before.store.row? id) ∧
    (∀ (i : Nat) (e : World.Entry), run[i]? = some e →
      ((∃ at_ args, e.input = .insert at_ args) ∨ (∃ at_ args, e.input = .insertBatch at_ args) ∨
        ∃ queue timerId, e.input = .cancelTimer queue timerId) →
      ∀ id row, e.before.store.row? id = some row → row.acquiredToken ≠ none →
        e.after.store.row? id = some row) := by
  intro run
  refine ⟨?_, ?_, ?_, ?_⟩
  · intro i j e e' at_ args id token hi hj hij hop _ hreply hclaims
    exact extend_deadline_kept hi hj hij hop hreply hclaims
  · -- a cancel that landed
    intro i e queue timerId hi hop hreply
    obtain ⟨houtput, hafter⟩ := World.trace_output hi
    rw [hop] at houtput hafter
    obtain ⟨id, row, hrow, hkey, hfree, hgone, hnone⟩ :=
      World.cancel_lands (World.trace_wf hi) b (houtput.trans hreply)
    rw [hafter] at hgone hnone
    -- its id was drawn, so that no later insert takes it again
    have hdrawn : id < e.after.store.nextId := by
      obtain ⟨hmem, hid⟩ := (Store.row?_eq_some_iff (World.trace_wf hi)).mp hrow
      have hlt := (World.trace_wf hi).ids_lt row hmem
      have hle := World.trace_nextId_le hi
      omega
    refine ⟨id, row, hrow, hkey, hfree, hgone, ?_, ?_⟩
    · intro j e' token hij hj
      exact (removed_row_stays_gone hi hj hij hdrawn hgone).2 token
    · intro at_ args hqueue htimer hok
      obtain ⟨new, hle, hreply', hrow'⟩ :=
        World.insert_on_free_key (World.trace_wf_after hi) b at_ hok fun t ht r hr => by
          have heq : t = timerId := Option.some_inj.mp (ht.symm.trans htimer)
          rw [heq, hqueue]
          exact hnone r hr
      exact ⟨new, by omega, hreply', hrow'⟩
  · -- a call that reports nothing done
    intro i e hi hreply id
    exact (World.trace_rowStep hi id).same_of_nothing hreply
  · -- a row under a lease
    intro i e hi hop id row hrow hleased
    have hstep := World.trace_rowStep hi id
    rw [hrow] at hstep
    exact hstep.leased_kept hop hleased

end Trace

end Outbox
