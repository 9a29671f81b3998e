import Mathlib.Data.List.Nodup
import Outbox.Native.Inserter

/-!
# The NOTIFY memo never suppresses a needed wake-up

A queue is in the memo of an open object only if a NOTIFY for it is among what that very
object has done, or the object is aborted and none of it will ever commit. So a row a
publish stores without a NOTIFY of its own shares its fate with one that was sent before:
both are in the same object, and objects commit and roll back as a whole.

## Key results

- `Session.Inv`: the invariant
- `Session.Inv.insert`, `Session.Inv.insertBatch`: publishing keeps it
- `notify_dedup_sound`: every committed row that is due has a committed NOTIFY, and no
  object executes two NOTIFYs for a queue
-/

namespace Outbox

/-- Every row that is not future-dated has a NOTIFY for its queue beside it. -/
def Covered (table : String) (effects : List Effect) : Prop :=
  ∀ rowId queue, Effect.row rowId queue false ∈ effects →
    Effect.notify (channel table) queue ∈ effects

theorem Covered.append {table : String} {effects effects' : List Effect}
    (h : Covered table effects) (h' : Covered table effects') :
    Covered table (effects ++ effects') := by
  intro rowId queue hrow
  rw [List.mem_append] at hrow ⊢
  exact hrow.imp (h rowId queue) (h' rowId queue)

namespace Session

/-- The invariant of a session and its memo. -/
structure Inv (table : String) (s : Session) : Prop where
  ids : (s.transactions.map Transaction.id).Nodup
  fresh : ∀ t ∈ s.transactions, t.id < s.nextTransaction
  known : ∀ entry ∈ s.notified, entry.1 < s.nextTransaction
  covered : ∀ t ∈ s.transactions, t.aborted = false → Covered table t.effects
  /-- What the memo holds of an open object was sent in it. -/
  sent : ∀ t ∈ s.transactions, t.aborted = false → ∀ queue, (t.id, queue) ∈ s.notified →
    Effect.notify (channel table) queue ∈ t.effects
  executed : s.executed.Nodup
  remembered : ∀ entry ∈ s.executed, entry ∈ s.notified
  committed : ∀ effects ∈ s.committed, Covered table effects

variable {table : String} {s : Session}

theorem Inv.empty (table : String) : Inv table {} where
  ids := List.nodup_nil
  fresh _ h := by cases h
  known _ h := by cases h
  covered _ h := by cases h
  sent _ h := by cases h
  executed := List.nodup_nil
  remembered _ h := by cases h
  committed _ h := by cases h

/-! ## Transactions -/

/-- A new object begins with nothing done and nothing remembered. -/
theorem Inv.push (h : Inv table s) :
    Inv table { s with
      transactions := { id := s.nextTransaction } :: s.transactions
      nextTransaction := s.nextTransaction + 1 } where
  ids := by
    rw [List.map_cons, List.nodup_cons]
    refine ⟨fun hmem => ?_, h.ids⟩
    obtain ⟨t, ht, hid⟩ := List.mem_map.mp hmem
    have hlt := h.fresh t ht
    have hid : t.id = s.nextTransaction := hid
    omega
  fresh t ht := by
    cases ht with
    | head => exact Nat.lt_succ_self _
    | tail _ ht => exact Nat.lt_succ_of_lt (h.fresh t ht)
  known entry hentry := Nat.lt_succ_of_lt (h.known entry hentry)
  covered t ht := by
    cases ht with
    | head => exact fun _ _ _ hrow => by cases hrow
    | tail _ ht => exact h.covered t ht
  sent t ht := by
    cases ht with
    | head =>
      intro _ queue hmem
      have hlt : s.nextTransaction < s.nextTransaction := h.known _ hmem
      omega
    | tail _ ht => exact h.sent t ht
  executed := h.executed
  remembered := h.remembered
  committed := h.committed

/-- Some of the objects end; what they did is gone. -/
theorem Inv.drop (h : Inv table s) {rest : List Transaction}
    (hrest : rest.Sublist s.transactions) : Inv table { s with transactions := rest } where
  ids := h.ids.sublist (hrest.map _)
  fresh t ht := h.fresh t (hrest.subset ht)
  known := h.known
  covered t ht := h.covered t (hrest.subset ht)
  sent t ht := h.sent t (hrest.subset ht)
  executed := h.executed
  remembered := h.remembered
  committed := h.committed

theorem Inv.autobegin (h : Inv table s) : Inv table s.autobegin := by
  unfold Session.autobegin
  split
  · rename_i hempty
    have hpush := h.push
    rw [List.isEmpty_iff.mp hempty] at hpush
    exact hpush
  · exact h

theorem Inv.beginNested (h : Inv table s) : Inv table s.beginNested := by
  have hbegun := h.autobegin
  unfold Session.beginNested
  dsimp only
  split
  · exact hbegun
  · rename_i t rest htop
    split
    · exact hbegun
    · rw [← htop]
      exact hbegun.push

theorem Inv.release (h : Inv table s) : Inv table s.release := by
  unfold Session.release
  split
  · rename_i t parent rest htop
    split
    · exact h
    · rename_i halive
      have hids := h.ids
      rw [htop] at hids
      have ht : t ∈ s.transactions := htop ▸ List.mem_cons_self
      have hparent : parent ∈ s.transactions := htop ▸ List.mem_cons_of_mem t List.mem_cons_self
      have hrest : ∀ t' ∈ rest, t' ∈ s.transactions := fun t' ht' =>
        htop ▸ List.mem_cons_of_mem t (List.mem_cons_of_mem parent ht')
      exact {
        ids := (List.nodup_cons.mp hids).2
        fresh := fun t' ht' => by
          cases ht' with
          | head => exact h.fresh parent hparent
          | tail _ ht' => exact h.fresh t' (hrest t' ht')
        known := h.known
        covered := fun t' ht' haborted => by
          cases ht' with
          -- the parent takes over what the savepoint did
          | head =>
            exact (h.covered parent hparent haborted).append
              (h.covered t ht (by simpa using halive))
          | tail _ ht' => exact h.covered t' (hrest t' ht') haborted
        sent := fun t' ht' haborted queue hmem => by
          cases ht' with
          | head => exact List.mem_append_left _ (h.sent parent hparent haborted queue hmem)
          | tail _ ht' => exact h.sent t' (hrest t' ht') haborted queue hmem
        executed := h.executed
        remembered := h.remembered
        committed := h.committed }
  · exact h

theorem Inv.rollbackNested (h : Inv table s) : Inv table s.rollbackNested := by
  unfold Session.rollbackNested
  split
  · rename_i t parent rest htop
    exact h.drop (htop ▸ List.sublist_cons_self t _)
  · exact h

theorem Inv.rollback (h : Inv table s) : Inv table s.rollback := h.drop (List.nil_sublist _)

theorem Inv.commit (h : Inv table s) : Inv table s.commit := by
  unfold Session.commit
  split
  · exact h
  · split
    · exact h.drop (List.nil_sublist _)
    · rename_i halive
      have hdropped : Inv table { s with transactions := [] } := h.drop (List.nil_sublist _)
      refine { hdropped with committed := fun effects heffects => ?_ }
      rw [List.mem_append, List.mem_singleton] at heffects
      obtain heffects | rfl := heffects
      · exact h.committed effects heffects
      · -- a row and its NOTIFY are in the same object
        intro rowId queue hrow
        obtain ⟨t, ht, hrow⟩ := List.mem_flatMap.mp hrow
        have halive : t.aborted = false := by
          simp only [List.any_eq_true, not_exists, not_and] at halive
          simpa using halive t (List.mem_reverse.mp ht)
        exact List.mem_flatMap.mpr
          ⟨t, ht, h.covered t (List.mem_reverse.mp ht) halive rowId queue hrow⟩

/-! ## Statements -/

/-- The innermost object does more, and the memo follows: a queue that enters the memo was
    notified in it, unless it is aborted. -/
theorem Inv.top (h : Inv table s) {t : Transaction} {rest : List Transaction}
    (htop : s.transactions = t :: rest) (t' : Transaction) (queues sent : List String)
    (hid : t'.id = t.id) (hsub : ∀ q ∈ sent, q ∈ queues) (hnodup : sent.Nodup)
    (hnew : ∀ q ∈ sent, (t.id, q) ∉ s.notified)
    (hcovered : t'.aborted = false → Covered table t'.effects)
    (hsent : t'.aborted = false → ∀ q, q ∈ queues ∨ (t.id, q) ∈ s.notified →
      Effect.notify (channel table) q ∈ t'.effects) :
    Inv table { s with
      transactions := t' :: rest
      notified := queues.map (fun q => (t.id, q)) ++ s.notified
      executed := s.executed ++ sent.map fun q => (t.id, q) } := by
  have hmem : t ∈ s.transactions := htop ▸ List.mem_cons_self
  have hrest : ∀ t₁ ∈ rest, t₁ ∈ s.transactions := fun t₁ ht₁ => htop ▸ List.mem_cons_of_mem t ht₁
  have hids := h.ids
  rw [htop, List.map_cons, List.nodup_cons] at hids
  exact {
    ids := by
      rw [List.map_cons, List.nodup_cons, hid]
      exact hids
    fresh := fun t₁ ht₁ => by
      cases ht₁ with
      | head => exact hid ▸ h.fresh t hmem
      | tail _ ht₁ => exact h.fresh t₁ (hrest t₁ ht₁)
    known := fun entry hentry => by
      rw [List.mem_append] at hentry
      obtain hentry | hentry := hentry
      · obtain ⟨q, _, rfl⟩ := List.mem_map.mp hentry
        exact h.fresh t hmem
      · exact h.known entry hentry
    covered := fun t₁ ht₁ haborted => by
      cases ht₁ with
      | head => exact hcovered haborted
      | tail _ ht₁ => exact h.covered t₁ (hrest t₁ ht₁) haborted
    sent := fun t₁ ht₁ haborted q hq => by
      cases ht₁ with
      | head =>
        rw [hid, List.mem_append, List.mem_map] at hq
        refine hsent haborted q (hq.imp_left fun ⟨q', hq', heq⟩ => ?_)
        exact (Prod.mk.inj heq).2 ▸ hq'
      | tail _ ht₁ =>
        -- another object's entry is an old one
        rw [List.mem_append, List.mem_map] at hq
        obtain ⟨q', _, heq⟩ | hq := hq
        · exact absurd (List.mem_map.mpr ⟨t₁, ht₁, ((Prod.mk.inj heq).1).symm⟩) hids.1
        · exact h.sent t₁ (hrest t₁ ht₁) haborted q hq
    executed := by
      rw [List.nodup_append]
      refine ⟨h.executed, hnodup.map fun q q' heq => (Prod.mk.inj heq).2, ?_⟩
      intro entry hentry entry' hentry' heq
      obtain ⟨q, hq, rfl⟩ := List.mem_map.mp hentry'
      exact hnew q hq (heq ▸ h.remembered entry hentry)
    remembered := fun entry hentry => by
      rw [List.mem_append] at hentry ⊢
      obtain hentry | hentry := hentry
      · exact .inr (h.remembered entry hentry)
      · obtain ⟨q, hq, rfl⟩ := List.mem_map.mp hentry
        exact .inl (List.mem_map_of_mem (hsub q hq))
    committed := h.committed }

/-- A transaction is open once a statement runs, and its memo is the one read before. -/
theorem autobegin_top (h : Inv table s) : ∃ t rest, s.autobegin.transactions = t :: rest ∧
    ∀ queue, (s.notifiedQueues.any fun queues => queues.contains queue) =
      decide ((t.id, queue) ∈ s.autobegin.notified) := by
  unfold Session.autobegin notifiedQueues innermost
  cases htop : s.transactions with
  | nil =>
    refine ⟨_, [], rfl, fun queue => ?_⟩
    -- the object is new: nothing is remembered of it
    have hnew : (s.nextTransaction, queue) ∉ s.notified := fun hmem =>
      absurd (h.known _ hmem) (Nat.lt_irrefl _)
    simp [hnew]
  | cons t rest =>
    refine ⟨t, rest, by simp [htop], fun queue => ?_⟩
    rw [Bool.eq_iff_iff]
    simp

/-- A statement in an open object: it is not run, it aborts the object, or it is done. -/
theorem execute_cases {α : Type} {s₁ : Session} {t : Transaction} {rest : List Transaction}
    (htop : s.autobegin.transactions = t :: rest) {result : StatementResult α}
    {effects : α → List Effect} {a : Option α} (hrun : s.execute result effects = (a, s₁)) :
    a = none ∧ s₁ = s.autobegin ∨
    a = none ∧ s₁ = { s.autobegin with transactions := { t with aborted := true } :: rest } ∨
    ∃ b, a = some b ∧ t.aborted = false ∧ s₁ = { s.autobegin with
      transactions := { t with effects := t.effects ++ effects b } :: rest
      executed := s.autobegin.executed ++ (notifies (effects b)).map fun q => (t.id, q) } := by
  unfold Session.execute at hrun
  simp only [htop] at hrun
  split at hrun
  · cases hrun
    exact .inl ⟨rfl, rfl⟩
  · rename_i halive
    cases result with
    | refused =>
      cases hrun
      exact .inl ⟨rfl, rfl⟩
    | failed =>
      cases hrun
      exact .inr (.inl ⟨rfl, rfl⟩)
    | returned b =>
      cases hrun
      exact .inr (.inr ⟨b, rfl, by simpa using halive, rfl⟩)

/-- A statement fails in the innermost object. -/
theorem Inv.abort (h : Inv table s) {t : Transaction} {rest : List Transaction}
    (htop : s.transactions = t :: rest) (effects : List Effect) (queues : List String) :
    Inv table { s with
      transactions := { t with effects := effects, aborted := true } :: rest
      notified := queues.map (fun q => (t.id, q)) ++ s.notified } := by
  have habort := h.top htop { t with effects := effects, aborted := true } queues []
    rfl (by simp) List.nodup_nil (by simp) (by simp) (by simp)
  rwa [List.map_nil, List.append_nil] at habort

/-- A single insert keeps the invariant. -/
theorem Inv.insert (h : Inv table s) (now : Int) (args : InsertArgs)
    (result : StatementResult (Option Nat)) : Inv table (s.insert table now args result).2 := by
  obtain ⟨t, rest, htop, hmemo⟩ := autobegin_top h
  have hbegun := h.autobegin
  have ht : t ∈ s.autobegin.transactions := htop ▸ List.mem_cons_self
  have habort := hbegun.abort htop t.effects []
  unfold Session.insert
  dsimp only
  rw [hmemo args.queue]
  generalize hrun : s.execute result _ = out
  obtain ⟨a, s₁⟩ := out
  -- not run, failed, or run in the innermost object
  obtain ⟨rfl, rfl⟩ | ⟨rfl, rfl⟩ | ⟨rowId, rfl, halive, rfl⟩ := execute_cases htop hrun
  · exact hbegun
  · exact habort
  clear hrun
  generalize s.autobegin = s₀ at hbegun ht htop habort ⊢
  cases rowId with
  | none =>
    -- a skipped conflict: the `RETURNING` ran for no row
    simp only [notifies, Option.getD_some, Option.isSome_none, Bool.false_and,
      Bool.false_eq_true, if_false, List.append_nil, List.filterMap_nil, List.map_nil]
    rw [← htop]
    exact hbegun
  | some rowId =>
    simp only [Option.getD_some, Option.isSome_some, Bool.true_and]
    cases hfuture : isFutureDated args.activateIn args.activateAt now with
    | true =>
      -- a row that need not be announced
      have hrow := hbegun.top htop
        { t with effects := t.effects ++ [.row rowId args.queue true] }
        [] [] rfl (by simp) List.nodup_nil (by simp)
        (fun _ => (hbegun.covered t ht halive).append (by simp [Covered]))
        (fun _ q hq => List.mem_append_left _ (hbegun.sent t ht halive q (by simpa using hq)))
      simpa [notifies] using hrow
    | false =>
      by_cases hin : (t.id, args.queue) ∈ s₀.notified
      · -- the NOTIFY was sent in this object before
        have hnotified := hbegun.sent t ht halive args.queue hin
        have hrow := hbegun.top htop
          { t with effects := t.effects ++ [.row rowId args.queue false] }
          [] [] rfl (by simp) List.nodup_nil (by simp)
          (fun _ rowId' queue hmem => by
            simp only [List.mem_append, List.mem_singleton, Effect.row.injEq] at hmem ⊢
            obtain hmem | ⟨-, rfl, -⟩ := hmem
            · exact .inl (hbegun.covered t ht halive rowId' queue hmem)
            · exact .inl hnotified)
          (fun _ q hq => List.mem_append_left _ (hbegun.sent t ht halive q (by simpa using hq)))
        simpa [notifies, hin] using hrow
      · -- the row brings its own NOTIFY
        have hrow := hbegun.top htop
          { t with effects := t.effects ++
            [.row rowId args.queue false, .notify (channel table) args.queue] }
          [args.queue] [args.queue] rfl (by simp)
          (List.nodup_singleton _) (by simpa using hin)
          (fun _ => (hbegun.covered t ht halive).append (by
            intro rowId' queue hmem
            simp only [List.mem_cons, Effect.row.injEq, reduceCtorEq, List.not_mem_nil, or_false,
              Effect.notify.injEq, true_and, false_or] at hmem ⊢
            exact hmem.2.1))
          (fun _ q hq => by
            simp only [List.mem_singleton] at hq
            obtain rfl | hq := hq
            · simp
            · exact List.mem_append_left _ (hbegun.sent t ht halive q hq))
        simpa [notifies, hin, addNotified, innermost] using hrow

/-- `insert_batch` keeps the invariant. The queue enters the memo before its NOTIFY is run;
    if the NOTIFY fails, the object is aborted. -/
theorem Inv.insertBatch (h : Inv table s) (now : Int) (args : InsertBatchArgs)
    (result : StatementResult (List Nat)) (notified : Bool) :
    Inv table (s.insertBatch table now args result notified).2 := by
  obtain ⟨t, rest, htop, -⟩ := autobegin_top h
  have hbegun := h.autobegin
  have ht : t ∈ s.autobegin.transactions := htop ▸ List.mem_cons_self
  have habort := hbegun.abort htop t.effects []
  unfold Session.insertBatch
  dsimp only
  generalize hrun : s.execute result _ = out
  obtain ⟨a, s₁⟩ := out
  obtain ⟨rfl, rfl⟩ | ⟨rfl, rfl⟩ | ⟨rowIds, rfl, halive, rfl⟩ := execute_cases htop hrun
  · exact hbegun
  · exact habort
  -- the rows themselves announce nothing
  have hquiet : ∀ future, notifies (rowIds.map fun id => Effect.row id args.queue future) = [] := by
    intro future
    refine List.filterMap_eq_nil_iff.mpr fun e he => ?_
    obtain ⟨id, -, rfl⟩ := List.mem_map.mp he
    rfl
  rw [hquiet, List.map_nil, List.append_nil]
  clear hrun
  generalize s.autobegin = s₀ at hbegun ht htop habort ⊢
  cases hfuture : isFutureDated args.activateIn args.activateAt now with
  | true =>
    -- rows that need not be announced
    have hrows := hbegun.top htop
      { t with effects := t.effects ++ rowIds.map fun id => .row id args.queue true }
      [] [] rfl (by simp) List.nodup_nil (by simp)
      (fun _ => (hbegun.covered t ht halive).append (by simp [Covered]))
      (fun _ q hq => List.mem_append_left _ (hbegun.sent t ht halive q (by simpa using hq)))
    simpa using hrows
  | false =>
    simp only [Bool.false_eq_true, if_false, Session.notify, notifiedQueues, innermost,
      List.head?_cons, Option.map_some]
    have hcontains : ((s₀.notified.filter fun entry => entry.1 == t.id).map
        Prod.snd).contains args.queue = decide ((t.id, args.queue) ∈ s₀.notified) := by
      rw [Bool.eq_iff_iff]
      simp
    rw [hcontains]
    by_cases hin : (t.id, args.queue) ∈ s₀.notified
    · -- the NOTIFY was sent in this object before
      have hnotified := hbegun.sent t ht halive args.queue hin
      have hrows := hbegun.top htop
        { t with effects := t.effects ++ rowIds.map fun id => .row id args.queue false }
        [] [] rfl (by simp) List.nodup_nil (by simp)
        (fun _ rowId queue hmem => by
          rw [List.mem_append, List.mem_map] at hmem
          refine List.mem_append_left _ ?_
          obtain hmem | ⟨id, -, heq⟩ := hmem
          · exact hbegun.covered t ht halive rowId queue hmem
          · cases heq
            exact hnotified)
        (fun _ q hq => List.mem_append_left _ (hbegun.sent t ht halive q (by simpa using hq)))
      simpa [hin] using hrows
    · cases notified with
      | false =>
        -- the memo has the queue, but nothing of the object commits
        have hfailed := hbegun.abort htop
          (t.effects ++ rowIds.map fun id => .row id args.queue false) [args.queue]
        simpa [hin, addNotified, innermost, execute, Session.autobegin, halive] using hfailed
      | true =>
        -- the rows bring one NOTIFY
        have hsent := hbegun.top htop
          { t with effects := (t.effects ++ rowIds.map fun id =>
            .row id args.queue false) ++ [.notify (channel table) args.queue] }
          [args.queue] [args.queue] rfl (by simp)
          (List.nodup_singleton _) (by simpa using hin)
          (fun _ rowId queue hmem => by
            simp only [List.mem_append, List.mem_map, List.mem_singleton, reduceCtorEq,
              or_false] at hmem
            obtain hmem | ⟨id, -, heq⟩ := hmem
            · exact List.mem_append_left _ (List.mem_append_left _
                (hbegun.covered t ht halive rowId queue hmem))
            · cases heq
              exact List.mem_append_right _ List.mem_cons_self)
          (fun _ q hq => by
            simp only [List.mem_singleton] at hq
            obtain rfl | hq := hq
            · exact List.mem_append_right _ List.mem_cons_self
            · exact List.mem_append_left _ (List.mem_append_left _
                (hbegun.sent t ht halive q hq)))
        simpa [hin, addNotified, innermost, execute, Session.autobegin, halive, notifies]
          using hsent

/-! ## The claim -/

theorem Inv.step (h : Inv table s) (act : SessionAct) : Inv table (s.step table act) := by
  cases act with
  | begin => exact h.autobegin
  | beginNested => exact h.beginNested
  | release => exact h.release
  | rollbackNested => exact h.rollbackNested
  | commit => exact h.commit
  | rollback => exact h.rollback
  | insert now args result => exact h.insert now args result
  | insertBatch now args result notified => exact h.insertBatch now args result notified

theorem run_inv (table : String) (acts : List SessionAct) : Inv table (run table acts) := by
  have hfold : ∀ (acts : List SessionAct) (s : Session), Inv table s →
      Inv table (acts.foldl (Session.step table) s) := by
    intro acts
    induction acts with
    | nil => exact fun s h => h
    | cons act acts ih => exact fun s h => ih _ (h.step act)
  exact hfold acts {} (Inv.empty table)

end Session

/-- **De-duplication never suppresses a needed wake-up.** Whatever a caller does with its
    session, and however its statements go: a committed transaction that inserted or extended
    a row which is not future-dated has committed a NOTIFY for the row's queue with it; and no
    transaction or savepoint object has executed two for one queue. -/
theorem notify_dedup_sound (table : String) (acts : List SessionAct) :
    (∀ effects ∈ (Session.run table acts).committed, ∀ rowId queue,
      Effect.row rowId queue false ∈ effects → Effect.notify (channel table) queue ∈ effects) ∧
    (Session.run table acts).executed.Nodup :=
  ⟨(Session.run_inv table acts).committed, (Session.run_inv table acts).executed⟩

/-- A savepoint that notified is rolled back; the transaction, which begins with the first
    insert, announces its own row, and a later one is not announced again. -/
example : (Session.run "outbox" [.beginNested,
    .insert 0 { queue := "q", payload := [] } (.returned (some 1)), .rollbackNested,
    .insert 0 { queue := "q", payload := [] } (.returned (some 2)),
    .insert 0 { queue := "q", payload := [] } (.returned (some 3)), .commit]).committed =
      [[.row 2 "q" false, .notify "outbox_outbox" "q", .row 3 "q" false]] := by decide

end Outbox
