import Outbox.Native.SyncDispatch
import Outbox.Spec.DispatchOutcome
import Outbox.Spec.FakeInvariant
import Outbox.Spec.MetricTruth

/-!
# Sync dispatch delivers each row once

In its default mode the test broker claims a row where it lies and runs its handler within
the publish that stored it, and handlers publish in turn. Nothing else claims rows, so the
lease of a message is current when its outcome is written, however deep the dispatches nest.
Every row a publish has stored waits in one loop, or was taken from it once: to be
dispatched, to be passed over, or to be dropped with the loop by the exception that came out
of it. No row is stored but by a publish.

## Key results

- `Inline.dispatchOne_eq`: `dispatch_one` is what runs before the handler and after it
- `Inline.Settles`: the end of a dispatch touches its own row and loses no lease
- `State.Inv`: what holds between any two steps, and `step_inv`
- `State.Draws`: what a step stores it notes, and `run_draws`
- `sync_dispatch_exactly_once`: the rows stored are those dispatched, once each, those that
  wait and those accounted for
-/

namespace Outbox

/-! ## The ids a store draws -/

/-- Only an insert draws ids. -/
def Op.isInsert : Op → Bool
  | .insert _ _ | .insertBatch _ _ => true
  | _ => false

theorem World.step_nextId (w : World) {op : Op} (hop : op.isInsert = false) :
    (w.step .fake op).2.store.nextId = w.store.nextId := by
  cases op with
  | insert | insertBatch => cases hop
  | tick | deleteBatchWithLease | fetchUnprocessed => rfl
  | fetch =>
    simp only [step, apply, FakeOutboxClient.fetch]
    split <;> rfl
  | deleteWithLease =>
    simp only [step, apply, FakeOutboxClient.deleteWithLease]
    repeat' split
    all_goals rfl
  | markPendingWithLease =>
    simp only [step, apply, FakeOutboxClient.markPendingWithLease]
    split <;> rfl
  | cancelTimer =>
    simp only [step, apply, FakeOutboxClient.cancelTimer]
    split <;> rfl

theorem FakeOutboxClient.syncDispatch_nextId (s : Store) (now : Int) (token : UUID)
    (rowId : Nat) : (syncDispatch s now token rowId).2.nextId = s.nextId := by
  unfold syncDispatch
  split <;> rfl

/-! ## One dispatch -/

namespace Inline

section Recorder

variable (recorder : Event → Tags → Except PyException Unit) (cfg : SubscriberConfig)

/-- `dispatch_one` is its beginning, and its end on what the handler left. -/
theorem dispatchOne_eq (b : Backend) (writerConn : Bool) (s : State) (m : OutboxInnerMessage)
    (c : Consume) :
    dispatchOne recorder cfg b writerConn s m c =
      match beginDispatch recorder cfg b writerConn s m with
      | .ended raised s => (raised, s)
      | .consuming s m => endDispatch recorder cfg b writerConn s m c := by
  unfold dispatchOne beginDispatch
  cases hallowed : OutboxInnerMessage.allowDelivery { m with retryStrategy := cfg.retryStrategy }
    cfg.maxDeliveries with
  | mk allowed m' =>
    simp only [hallowed]
    cases allowed <;> rfl

/-- What a dispatch of the row with the given id leaves: a store in which the others are as
    they were, and no `lease_lost`. -/
structure Settles (id : Nat) (s s' : State) : Prop where
  store : FakeStore s.world.store → FakeStore s'.world.store
  others : ∀ id' ≠ id, s'.world.store.row? id' = s.world.store.row? id'
  metrics : ∀ e ∈ s'.metrics, e ∈ s.metrics ∨ e.1 ≠ .leaseLost

variable {s s' : State} {m : OutboxInnerMessage} {id : Nat}

theorem Settles.refl (id : Nat) (s : State) : Settles id s s where
  store h := h
  others _ _ := rfl
  metrics _ h := Or.inl h

theorem Settles.trans {s'' : State} (h : Settles id s s') (h' : Settles id s' s'') :
    Settles id s s'' where
  store hs := h'.store (h.store hs)
  others id' hid := (h'.others id' hid).trans (h.others id' hid)
  metrics e he := by
    cases h'.metrics e he with
    | inl hmem => exact h.metrics e hmem
    | inr hne => exact Or.inr hne

/-- A metric other than `lease_lost`. -/
theorem emitMetric_settles {event : Event} (hevent : event ≠ .leaseLost) (tags : Tags)
    (s : State) (id : Nat) : Settles id s (emitMetric recorder s event tags) := by
  have hmetrics : (emitMetric recorder s event tags).metrics = s.metrics ++ [(event, tags)] := by
    unfold emitMetric
    split <;> rfl
  refine ⟨?_, ?_, ?_⟩
  · simp
  · simp
  · intro e he
    rw [hmetrics, List.mem_append, List.mem_singleton] at he
    cases he with
    | inl hmem => exact Or.inl hmem
    | inr heq => exact Or.inr (heq ▸ hevent)

theorem emitDispatchAbandoned_settles (s : State) (m : OutboxInnerMessage) (id : Nat) :
    Settles id s (emitDispatchAbandoned recorder cfg s m) := by
  unfold emitDispatchAbandoned
  split
  · exact Settles.refl id s
  · exact emitMetric_settles recorder (by simp) _ s id

/-- The outcome of a flush: the metric of one that landed, `dispatch_abandoned` of one that
    raised. -/
theorem safeFlush_settles {flush : Except Raised Bool × State} (h : Settles id s flush.2)
    (writerConn : Bool) (m : OutboxInnerMessage) {event : Event} (hevent : event ≠ .leaseLost)
    (tags : Tags) :
    Settles id s (safeFlush recorder cfg writerConn flush m event tags).2 := by
  obtain ⟨landed, s'⟩ := flush
  cases landed with
  | ok landed =>
    cases landed with
    | true => exact h.trans (emitMetric_settles recorder hevent tags s' id)
    | false => exact h
  | error e => exact h.trans (emitDispatchAbandoned_settles recorder cfg s' m id)

section Held

variable (hs : FakeStore s.world.store) {token : UUID}
  (htoken : m.row.acquiredToken = some token)
  (hheld : s.world.store.Holds m.row.id token)
include hs htoken hheld

omit htoken hheld in
/-- A terminal write moves its row only. -/
theorem write_settles (id : Nat) (op : Op) (hcarries : op.Carries id token)
    (hother : ∀ id' token', op.Carries id' token' → id' = id) :
    Settles id s { s with world := (s.world.step .fake op).2 } where
  store _ := (hs.did (.ran s.world.now op)).1
  others id' hid := World.step_row?_of_not_held hs.wf .fake hcarries
    fun token' hc => absurd (hother id' token' hc) hid
  metrics _ h := Or.inl h

/-- A delete lands, or is not issued. -/
theorem flushTerminal_settles :
    Settles m.row.id s (flushTerminal recorder cfg .fake s m).2 := by
  obtain ⟨stored, hstored, hstoredToken⟩ := hheld
  unfold flushTerminal
  simp only [htoken]
  split
  · exact Settles.refl _ s
  · rename_i payload hpayload
    have hstep := World.step_deleteWithLease hs.wf .fake hstored hstoredToken
      (Worker.dlqPayload_acceptable hpayload)
    have hwrite := write_settles hs m.row.id
      (.deleteWithLease cfg.dlqTable m.row.id token payload) ⟨rfl, rfl⟩
      fun id' _ hc => hc.1.symm
    have hreply : (s.world.step .fake
        (.deleteWithLease cfg.dlqTable m.row.id token payload)).1 = .deleted (.ok true) := by
      rw [hstep]
    simp only [hreply]
    split
    · exact hwrite.trans (emitMetric_settles recorder (by simp) _ _ _)
    · exact hwrite

/-- An update lands. -/
theorem flushRetry_settles : Settles m.row.id s (flushRetry recorder cfg .fake s m).2 := by
  obtain ⟨stored, hstored, hstoredToken⟩ := hheld
  unfold flushRetry
  cases hdelay : m.pendingDelaySeconds with
  | none =>
    simp only [htoken]
    exact Settles.refl _ s
  | some delay =>
    have hwrite := write_settles hs m.row.id
      (.markPendingWithLease m.row.id token
        { delaySeconds := delay
          attemptsCount := m.attemptsCount
          firstAttemptAt := m.firstAttemptAt
          lastAttemptAt := m.lastAttemptAt }) ⟨rfl, rfl⟩
      fun id' _ hc => hc.1.symm
    simp only [htoken, World.step_markPendingWithLease hs.wf .fake hstored hstoredToken] at hwrite ⊢
    exact hwrite

/-- The outcome of a message is written, or the message is abandoned. -/
theorem writeOutcome_settles (writerConn stillRunning : Bool) (r : Reading) :
    Settles m.row.id s (writeOutcome recorder cfg .fake writerConn stillRunning r s m).2 := by
  have hrow : (m.assertStateSet r).row = m.row := (Worker.assertStateSet_frame m r).1
  have htoken' : (m.assertStateSet r).row.acquiredToken = some token := hrow ▸ htoken
  have hheld' : s.world.store.Holds (m.assertStateSet r).row.id token := hrow ▸ hheld
  have hterminal := flushTerminal_settles recorder cfg hs htoken' hheld'
  have hretry := flushRetry_settles recorder cfg hs htoken' hheld'
  rw [hrow] at hterminal hretry
  unfold writeOutcome
  split
  · exact emitDispatchAbandoned_settles recorder cfg s m _
  · simp only
    split
    · exact safeFlush_settles recorder cfg hterminal _ _ (by simp) _
    · exact safeFlush_settles recorder cfg hretry _ _ (by simp) _
    · exact safeFlush_settles recorder cfg hterminal _ _ (by simp) _

/-- The end of a dispatch touches its own row only, and loses no lease. -/
theorem endDispatch_settles (writerConn : Bool) (c : Consume) :
    Settles m.row.id s (endDispatch recorder cfg .fake writerConn s m c).2 := by
  have hrow (acts : List HandlerAct) : (acts.foldl (fun m a => a.run m) m).row = m.row := by
    induction acts using List.reverseRecOn with
    | nil => rfl
    | append_singleton acts a ih =>
      rw [List.foldl_append]
      exact (a.run_frame _).1.trans ih
  have hwrite (m' : OutboxInnerMessage) (hm' : m'.row = m.row) (stillRunning : Bool)
      (r : Reading) :
      Settles m.row.id s
        (writeOutcome recorder cfg .fake writerConn stillRunning r s m').2 := by
    rw [← hm'] at htoken hheld ⊢
    exact writeOutcome_settles recorder cfg hs htoken hheld writerConn stillRunning r
  have hframe : (if c.running then c.acts.foldl (fun m a => a.run m) m else m).row = m.row := by
    split
    · exact hrow c.acts
    · rfl
  unfold endDispatch
  simp only
  split
  · refine hwrite _ ?_ _ _
    exact hframe
  · refine hwrite _ ?_ _ _
    exact hframe
  · refine hwrite _ ?_ _ _
    exact hframe
  · dsimp only
    exact emitDispatchAbandoned_settles recorder cfg s _ m.row.id
  · exact Settles.refl _ s

/-- So does a dispatch that is over before the handler. -/
theorem beginDispatch_settles (writerConn : Bool) :
    match beginDispatch recorder cfg .fake writerConn s m with
    | .ended _ s' => Settles m.row.id s s'
    | .consuming s' m' => Settles m.row.id s s' ∧ s'.world = s.world ∧ m'.row = m.row := by
  unfold beginDispatch
  cases hallowed : OutboxInnerMessage.allowDelivery { m with retryStrategy := cfg.retryStrategy }
    cfg.maxDeliveries with
  | mk allowed m' =>
    have hrow : m'.row = m.row := by
      unfold OutboxInnerMessage.allowDelivery at hallowed
      split at hallowed <;> cases hallowed <;> rfl
    simp only [hallowed]
    cases allowed with
    | false =>
      have hterminal := flushTerminal_settles recorder cfg (m := m') hs
        (hrow ▸ htoken) (hrow ▸ hheld)
      rw [hrow] at hterminal
      exact safeFlush_settles recorder cfg hterminal _ _ (by simp) _
    | true =>
      exact ⟨emitMetric_settles recorder (by simp) _ s _, emitMetric_world recorder _ _, hrow⟩

end Held

/-! A dispatch draws no id. -/

variable (s m)

theorem flushTerminal_nextId :
    (flushTerminal recorder cfg .fake s m).2.world.store.nextId = s.world.store.nextId := by
  unfold flushTerminal
  split
  · rfl
  · split
    · rfl
    · dsimp only
      split
      · exact s.world.step_nextId rfl
      · split
        · simpa using s.world.step_nextId rfl
        · exact s.world.step_nextId rfl
      · simpa using s.world.step_nextId rfl

theorem flushRetry_nextId :
    (flushRetry recorder cfg .fake s m).2.world.store.nextId = s.world.store.nextId := by
  unfold flushRetry
  split
  · dsimp only
    split
    · exact s.world.step_nextId rfl
    · simpa using s.world.step_nextId rfl
  · rfl

variable {s m}

theorem safeFlush_nextId {flush : Except Raised Bool × State}
    (h : flush.2.world.store.nextId = s.world.store.nextId) (writerConn : Bool) (event : Event)
    (tags : Tags) :
    (safeFlush recorder cfg writerConn flush m event tags).2.world.store.nextId =
      s.world.store.nextId := by
  unfold safeFlush
  split <;> simpa using h

variable (s m)

theorem endDispatch_nextId (writerConn : Bool) (c : Consume) :
    (endDispatch recorder cfg .fake writerConn s m c).2.world.store.nextId =
      s.world.store.nextId := by
  have hwrite (m' : OutboxInnerMessage) (stillRunning : Bool) (r : Reading) :
      (writeOutcome recorder cfg .fake writerConn stillRunning r s m').2.world.store.nextId =
        s.world.store.nextId := by
    unfold writeOutcome
    split
    · simp
    · dsimp only
      split
      · exact safeFlush_nextId recorder cfg (flushTerminal_nextId recorder cfg s _) _ _ _
      · exact safeFlush_nextId recorder cfg (flushRetry_nextId recorder cfg s _) _ _ _
      · exact safeFlush_nextId recorder cfg (flushTerminal_nextId recorder cfg s _) _ _ _
  unfold endDispatch
  dsimp only
  split
  · exact hwrite _ _ _
  · exact hwrite _ _ _
  · exact hwrite _ _ _
  · simp
  · rfl

theorem beginDispatch_nextId (writerConn : Bool) :
    match beginDispatch recorder cfg .fake writerConn s m with
    | .ended _ s' | .consuming s' _ => s'.world.store.nextId = s.world.store.nextId := by
  unfold beginDispatch
  cases hallowed : OutboxInnerMessage.allowDelivery { m with retryStrategy := cfg.retryStrategy }
    cfg.maxDeliveries with
  | mk allowed m' =>
    simp only [hallowed]
    cases allowed with
    | false =>
      exact safeFlush_nextId recorder cfg (flushTerminal_nextId recorder cfg s _) _ _ _
    | true => simp

end Recorder

end Inline

/-! ## The rows a publish stores -/

/-- A publish stored the rows: under fresh ids, and all it drew, unleased, and none but the
    first a timer. -/
structure Stores (s s' : Store) (rows : List Row) : Prop where
  nodup : (rows.map Row.id).Nodup
  fresh : ∀ r ∈ rows, s.nextId ≤ r.id
  drawn : ∀ id, s.nextId ≤ id → id < s'.nextId → id ∈ rows.map Row.id
  stored : ∀ r ∈ rows, r ∈ s'.rows
  free : ∀ r ∈ rows, r.acquiredToken = none
  timerless : ∀ r ∈ rows.tail, r.timerId = none

/-- A publish that stores nothing draws no id. -/
theorem Stores.nothing {s s' : Store} (h : s'.nextId = s.nextId) : Stores s s' [] where
  nodup := List.nodup_nil
  fresh := by simp
  drawn id hge hlt := absurd (h ▸ hlt) (Nat.not_lt_of_ge hge)
  stored := by simp
  free := by simp
  timerless := by simp

namespace FakeOutboxClient

/-- An insert that raises leaves the store. -/
theorem insert_raised {s : Store} {now : Int} {args : InsertArgs} {e : Error}
    (h : (insert s now args).1 = .error e) : (insert s now args).2 = s := by
  unfold insert at h ⊢
  cases hvalid : validateLikePostgres args.queue args.timerId args.headers with
  | some e => rfl
  | none =>
    simp only [hvalid] at h
    split at h <;> cases h

theorem insertBatch_raised {s : Store} {now : Int} {args : InsertBatchArgs} {e : Error}
    (h : (insertBatch s now args).1 = .error e) : (insertBatch s now args).2 = s := by
  unfold insertBatch at h ⊢
  cases hvalid : args.rows.findSome? fun row =>
    validateLikePostgres args.queue none row.2 with
  | some e => rfl
  | none =>
    simp only [hvalid] at h
    cases h

theorem insertDispatchable_stores (s : Store) (now : Int) (args : InsertArgs) :
    Stores s (insert s now args).2 (insertDispatchable s now args) := by
  unfold insertDispatchable
  cases hvalid : validateLikePostgres args.queue args.timerId args.headers with
  | some e => exact .nothing (by simp [insert, hvalid])
  | none =>
    simp only
    split
    · rename_i live hfind hextend
      exact .nothing (by simp [insert, hvalid, hfind, hextend])
    · rename_i live conflict hplain
      have hinsert : (insert s now args).2 = (store s now args.queue args.payload args.headers
          (some (args.deadline now)) args.timerId).2 := by
        unfold insert
        rw [hvalid]
        simp only
      rw [hinsert]
      unfold store
      split
      · exact .nothing rfl
      · constructor
        · simp
        · simp [append]
        · simp only [append, Option.toList_some, List.map_cons, List.map_nil,
            List.mem_singleton]
          omega
        · simp [append]
        · simp [append]
        · simp

/-- The loop over `_append`, with the rows it appends to `_dispatchable`. -/
theorem foldl_append_stores (now : Int) (queue : String) (nextAt : Option Int)
    (rows : List (Bytes × Option Headers)) (acc : List Row) (s : Store) :
    ∃ new : List Row,
      rows.foldl (fun (acc : List Row × Store) row =>
          let r := append acc.2 now queue row.1 row.2 nextAt none
          (acc.1 ++ [r.1], r.2)) (acc, s) =
        (acc ++ new, rows.foldl (fun s row => (append s now queue row.1 row.2 nextAt none).2) s) ∧
      (rows.foldl (fun s row => (append s now queue row.1 row.2 nextAt none).2) s).rows =
        s.rows ++ new ∧
      new.map Row.id = List.range' s.nextId rows.length ∧
      (rows.foldl (fun s row => (append s now queue row.1 row.2 nextAt none).2) s).nextId =
        s.nextId + rows.length ∧
      ∀ r ∈ new, r.acquiredToken = none ∧ r.timerId = none := by
  induction rows generalizing acc s with
  | nil => exact ⟨[], by simp⟩
  | cons row rows ih =>
    obtain ⟨new, hfold, hrows, hids, hnext, hnew⟩ :=
      ih (acc ++ [(append s now queue row.1 row.2 nextAt none).1])
        (append s now queue row.1 row.2 nextAt none).2
    refine ⟨(append s now queue row.1 row.2 nextAt none).1 :: new, ?_, ?_, ?_, ?_, ?_⟩
    · rw [List.foldl_cons, hfold, List.foldl_cons]
      simp
    · rw [List.foldl_cons, hrows]
      simp [append]
    · rw [List.map_cons, hids]
      simp [append, List.range'_succ]
    · rw [List.foldl_cons, hnext, List.length_cons]
      simp only [append]
      omega
    · intro r hr
      cases List.mem_cons.mp hr with
      | inl heq => simp [heq, append]
      | inr hr => exact hnew r hr

theorem insertBatchDispatchable_stores (s : Store) (now : Int) (args : InsertBatchArgs) :
    Stores s (insertBatch s now args).2 (insertBatchDispatchable s now args) := by
  unfold insertBatchDispatchable insertBatch
  cases hvalid : args.rows.findSome? fun row =>
    validateLikePostgres args.queue none row.2 with
  | some e => exact .nothing rfl
  | none =>
    obtain ⟨new, hfold, hrows, hids, hnext, hnew⟩ := foldl_append_stores now args.queue
      (resolveNextAttemptClientSide args.activateIn args.activateAt now) args.rows [] s
    simp only [hfold, List.nil_append]
    constructor
    · rw [hids]
      exact List.nodup_range'
    · intro r hr
      have hmem : r.id ∈ new.map Row.id := List.mem_map_of_mem hr
      rw [hids, List.mem_range'_1] at hmem
      exact hmem.1
    · intro id hge hlt
      rw [hnext] at hlt
      rw [hids, List.mem_range'_1]
      exact ⟨hge, hlt⟩
    · intro r hr
      rw [hrows]
      exact List.mem_append_right _ hr
    · exact fun r hr => (hnew r hr).1
    · exact fun r hr => (hnew r (List.mem_of_mem_tail hr)).2

end FakeOutboxClient

theorem World.step_insert (w : World) (now : Int) (args : InsertArgs) :
    w.step .fake (.insert now args) = (.inserted (FakeOutboxClient.insert w.store now args).1,
      { w with store := (FakeOutboxClient.insert w.store now args).2 }) := rfl

theorem World.step_insertBatch (w : World) (now : Int) (args : InsertBatchArgs) :
    w.step .fake (.insertBatch now args) =
      (.insertedBatch (FakeOutboxClient.insertBatch w.store now args).1,
        { w with store := (FakeOutboxClient.insertBatch w.store now args).2 }) := rfl

/-- An operation that is no claim and no write leaves a row that is leased, or no timer. -/
theorem RowStep.stays {id nextId : Nat} {now : Int} {op : Op} {reply : Reply}
    {r : Row} {r' : Option Row} (h : RowStep id nextId now op reply (some r) r')
    (hop : op.isExternal = true) (hr : r.acquiredToken ≠ none ∨ r.timerId = none) :
    r' = some r := by
  cases h with
  | same => rfl
  | extended hmode hfree hqueue htimer hkeyed hnew =>
    cases hr with
    | inl hleased => exact absurd hfree hleased
    | inr htimerless => simp [← htimer, htimerless] at hkeyed
  | claimed => simp [Op.isExternal] at hop
  | rescheduled => simp [Op.isExternal] at hop
  | deleted => simp [Op.isExternal] at hop
  | deletedBatch => simp [Op.isExternal] at hop
  | cancelled hkey hfree =>
    cases hr with
    | inl hleased => exact absurd hfree hleased
    | inr htimerless => simp [Row.holdsTimer, htimerless] at hkey

namespace TestOutboxBroker

/-! ## The accounts -/

def Note.storedId : Note → Option Nat
  | .stored id _ => some id
  | _ => none

def Note.dispatchedId : Note → Option Nat
  | .dispatched id => some id
  | _ => none

/-- A row that was taken from its loop otherwise. -/
def Note.lostId : Note → Option Nat
  | .skipped id _ | .dropped id _ => some id
  | _ => none

/-- The store and the notes agree on the rows that wait and the messages that are handled. -/
structure Accounts (subs : List TestSubscriber) (store : Store) (notes : List Note)
    (waiting : List (Nat × String)) (messages : List (Nat × OutboxInnerMessage)) : Prop where
  kept : FakeStore store
  balance : (notes.filterMap Note.storedId).Perm (notes.filterMap Note.dispatchedId ++
    (waiting.map Prod.fst ++ notes.filterMap Note.lostId))
  nodup : (notes.filterMap Note.storedId).Nodup
  drawn : ∀ id ∈ notes.filterMap Note.storedId, id < store.nextId
  distinct : (messages.map fun m => m.2.row.id).Nodup
  handled : ∀ m ∈ messages, m.2.row.id ∈ notes.filterMap Note.dispatchedId
  held : ∀ m ∈ messages, ∃ token, m.2.row.acquiredToken = some token ∧
    store.Holds m.2.row.id token
  waits : ∀ w ∈ waiting, ∃ r, store.row? w.1 = some r ∧ r.acquiredToken = none ∧ r.queue = w.2
  passed : ∀ id queue, .skipped id queue ∈ notes → findSubscriberForQueue subs queue = none

namespace Accounts

variable {subs : List TestSubscriber} {store store' : Store} {notes : List Note}
  {waiting rest : List (Nat × String)} {messages : List (Nat × OutboxInnerMessage)}

/-- A row that waits is not being handled. -/
theorem waiting_ne (h : Accounts subs store notes waiting messages) {w : Nat × String}
    (hw : w ∈ waiting) {m : Nat × OutboxInnerMessage} (hm : m ∈ messages) :
    w.1 ≠ m.2.row.id := by
  have hnodup := h.balance.nodup_iff.mp h.nodup
  rw [List.nodup_append] at hnodup
  have hmem : w.1 ∈ waiting.map Prod.fst ++ notes.filterMap Note.lostId :=
    List.mem_append_left _ (List.mem_map_of_mem hw)
  exact fun heq => hnodup.2.2 _ (h.handled m hm) _ hmem heq.symm

/-- The store moves on, but not the rows in play. -/
theorem moved (h : Accounts subs store notes waiting messages) (hstore : FakeStore store')
    (hnext : store.nextId ≤ store'.nextId)
    (hwaiting : ∀ w ∈ waiting, store'.row? w.1 = store.row? w.1)
    (hmessages : ∀ m ∈ messages, store'.row? m.2.row.id = store.row? m.2.row.id) :
    Accounts subs store' notes waiting messages where
  kept := hstore
  balance := h.balance
  nodup := h.nodup
  drawn id hid := Nat.lt_of_lt_of_le (h.drawn id hid) hnext
  distinct := h.distinct
  handled := h.handled
  held m hm := by
    obtain ⟨token, htoken, hheld⟩ := h.held m hm
    refine ⟨token, htoken, ?_⟩
    rwa [Store.Holds, hmessages m hm]
  waits w hw := by
    rw [hwaiting w hw]
    exact h.waits w hw
  passed := h.passed

/-- A publish stores rows, which wait before all others. -/
theorem stored (h : Accounts subs store notes waiting messages) {before : Store}
    {rows : List Row} (hrows : Stores before store rows) (hbefore : ∀ id ∈
      notes.filterMap Note.storedId, id < before.nextId) :
    Accounts subs store (notes ++ rows.map fun r => .stored r.id r.queue)
      ((rows.map fun r => (r.id, r.queue)) ++ waiting) messages := by
  have hids : (rows.map fun r => Note.stored r.id r.queue).filterMap Note.storedId =
      rows.map Row.id := by
    rw [List.filterMap_map, ← List.filterMap_eq_map]
    rfl
  have hnone (f : Note → Option Nat) (hf : ∀ id queue, f (.stored id queue) = none) :
      (rows.map fun r => Note.stored r.id r.queue).filterMap f = [] := by
    rw [List.filterMap_map, List.filterMap_eq_nil_iff]
    exact fun r _ => hf r.id r.queue
  have hdispatched := hnone Note.dispatchedId fun _ _ => rfl
  have hlost := hnone Note.lostId fun _ _ => rfl
  constructor
  · exact h.kept
  · rw [List.filterMap_append, List.filterMap_append, List.filterMap_append, hids, hdispatched,
      hlost, List.perm_iff_count]
    intro id
    have hcount := List.perm_iff_count.mp h.balance id
    simp only [List.count_append, List.map_append, List.map_map, List.count_nil] at hcount ⊢
    have hsame : (rows.map (Prod.fst ∘ fun r => (r.id, r.queue))) = rows.map Row.id := rfl
    rw [hsame]
    omega
  · rw [List.filterMap_append, hids, List.nodup_append]
    refine ⟨h.nodup, hrows.nodup, fun id hid id' hid' heq => ?_⟩
    obtain ⟨r, hr, hrid⟩ := List.mem_map.mp hid'
    have hlt := hbefore id hid
    have hge := hrows.fresh r hr
    omega
  · intro id hid
    rw [List.filterMap_append, hids, List.mem_append] at hid
    cases hid with
    | inl hid => exact h.drawn id hid
    | inr hid =>
      obtain ⟨r, hr, rfl⟩ := List.mem_map.mp hid
      exact h.kept.wf.ids_lt r (hrows.stored r hr)
  · exact h.distinct
  · intro m hm
    rw [List.filterMap_append]
    exact List.mem_append_left _ (h.handled m hm)
  · exact h.held
  · intro w hw
    cases List.mem_append.mp hw with
    | inl hw =>
      obtain ⟨r, hr, rfl⟩ := List.mem_map.mp hw
      exact ⟨r, h.kept.wf.row?_mem (hrows.stored r hr), hrows.free r hr, rfl⟩
    | inr hw => exact h.waits w hw
  · intro id queue hmem
    cases List.mem_append.mp hmem with
    | inl hmem => exact h.passed id queue hmem
    | inr hmem => simp at hmem

/-- Rows leave a loop undispatched. -/
theorem lost (rows : List (Nat × String)) {new : List Note}
    (h : Accounts subs store notes (rows ++ rest) messages)
    (hstored : new.filterMap Note.storedId = [])
    (hdispatched : new.filterMap Note.dispatchedId = [])
    (hlost : new.filterMap Note.lostId = rows.map Prod.fst)
    (hpassed : ∀ id queue, .skipped id queue ∈ new → findSubscriberForQueue subs queue = none) :
    Accounts subs store (notes ++ new) rest messages := by
  constructor
  · exact h.kept
  · rw [List.filterMap_append, List.filterMap_append, List.filterMap_append, hlost, hstored,
      hdispatched, List.perm_iff_count]
    intro id
    have hcount := List.perm_iff_count.mp h.balance id
    simp only [List.count_append, List.map_append, List.count_nil] at hcount ⊢
    omega
  · rw [List.filterMap_append, hstored, List.append_nil]
    exact h.nodup
  · rw [List.filterMap_append, hstored, List.append_nil]
    exact h.drawn
  · exact h.distinct
  · rw [List.filterMap_append, hdispatched, List.append_nil]
    exact h.handled
  · exact h.held
  · exact fun w hw => h.waits w (List.mem_append_right _ hw)
  · intro id queue hmem
    cases List.mem_append.mp hmem with
    | inl hmem => exact h.passed id queue hmem
    | inr hmem => exact hpassed id queue hmem

/-- A row is passed over: there is no handler for its queue. -/
theorem skipped {w : Nat × String} (h : Accounts subs store notes (w :: rest) messages)
    (hnone : findSubscriberForQueue subs w.2 = none) :
    Accounts subs store (notes ++ [.skipped w.1 w.2]) rest messages := by
  refine lost [w] h rfl rfl rfl ?_
  intro id queue hmem
  obtain ⟨rfl, rfl⟩ : id = w.1 ∧ queue = w.2 := by simpa using hmem
  exact hnone

/-- A loop is left by the exception out of a dispatch. -/
theorem dropped {rows : List (Nat × String)} (id : Nat)
    (h : Accounts subs store notes (rows ++ rest) messages) :
    Accounts subs store (notes ++ rows.map fun row => .dropped row.1 id) rest messages := by
  refine lost rows h ?_ ?_ ?_ ?_
  · simp [List.filterMap_map, Note.storedId, Function.comp_def]
  · simp [List.filterMap_map, Note.dispatchedId, Function.comp_def]
  · rw [List.filterMap_map, ← List.filterMap_eq_map]
    rfl
  · intro id queue hmem
    simp at hmem

/-- A row is claimed where it lies, and its dispatch begins. -/
theorem dispatched {w : Nat × String} (h : Accounts subs store notes (w :: rest) messages)
    (now : Int) (token : UUID) (index : Nat) :
    ∃ row, FakeOutboxClient.syncDispatch store now token w.1 =
        (some row, (FakeOutboxClient.syncDispatch store now token w.1).2) ∧ row.id = w.1 ∧
      ∀ m : OutboxInnerMessage, m.row = row →
        Accounts subs (FakeOutboxClient.syncDispatch store now token w.1).2
          (notes ++ [.dispatched w.1]) rest ((index, m) :: messages) := by
  obtain ⟨r, hr, hfree, hqueue⟩ := h.waits w List.mem_cons_self
  have hstore := (h.kept.did (.claimed now token w.1))
  have hlookup := h.kept.row?_syncDispatch now token w.1
  have hid : r.id = w.1 := ((Store.row?_eq_some_iff h.kept.wf).mp hr).2
  have hfind : (store.rows.find? fun r => r.id == w.1) = some r := hr
  have hnodup := h.balance.nodup_iff.mp h.nodup
  have hclaimed : (FakeOutboxClient.syncDispatch store now token w.1).2.row? w.1 =
      some (FakeOutboxClient.claimFakeRow r now token) := by
    rw [hlookup, hr]
    simp [hid]
  have hothers (id : Nat) (hne : id ≠ w.1) :
      (FakeOutboxClient.syncDispatch store now token w.1).2.row? id = store.row? id := by
    rw [hlookup]
    cases hrow : store.row? id with
    | none => rfl
    | some r' =>
      have hid' : r'.id = id := ((Store.row?_eq_some_iff h.kept.wf).mp hrow).2
      simp [hid', hne]
  refine ⟨FakeOutboxClient.claimFakeRow r now token, ?_, hid, fun m hm => ?_⟩
  · simp only [FakeOutboxClient.syncDispatch, hfind]
  · have hrow : m.row.id = w.1 := by
      rw [hm]
      exact hid
    have hrest : ∀ w' ∈ rest, w'.1 ≠ w.1 := by
      intro w' hw' heq
      have hmem : w'.1 ∈ rest.map Prod.fst := List.mem_map_of_mem hw'
      have hsingle := (List.nodup_append.mp hnodup).2.1
      rw [List.map_cons, List.cons_append, List.nodup_cons] at hsingle
      exact hsingle.1 (List.mem_append_left _ (heq ▸ hmem))
    have hbusy : ∀ m' ∈ messages, m'.2.row.id ≠ w.1 := fun m' hm' =>
      (h.waiting_ne List.mem_cons_self hm').symm
    have hstored : (notes ++ [Note.dispatched w.1]).filterMap Note.storedId =
        notes.filterMap Note.storedId := by
      rw [List.filterMap_append]
      exact List.append_nil _
    constructor
    · exact hstore.1
    · rw [List.perm_iff_count]
      intro id
      have hcount := List.perm_iff_count.mp h.balance id
      rw [List.filterMap_append, List.filterMap_append, List.filterMap_append]
      simp only [List.filterMap_cons, List.filterMap_nil, Note.storedId, Note.dispatchedId,
        Note.lostId, List.map_cons, List.count_append, List.count_cons, List.count_nil,
        List.append_nil] at hcount ⊢
      omega
    · rw [hstored]
      exact h.nodup
    · intro id hid
      rw [hstored] at hid
      exact Nat.lt_of_lt_of_le (h.drawn id hid) hstore.2.nextId
    · rw [List.map_cons, List.nodup_cons]
      refine ⟨?_, h.distinct⟩
      intro hmem
      obtain ⟨m', hm', hid'⟩ := List.mem_map.mp hmem
      exact hbusy m' hm' (hid'.trans hrow)
    · intro m' hm'
      rw [List.filterMap_append, List.mem_append]
      cases List.mem_cons.mp hm' with
      | inl heq =>
        right
        simp [heq, hrow, Note.dispatchedId]
      | inr hm' => exact Or.inl (h.handled m' hm')
    · intro m' hm'
      cases List.mem_cons.mp hm' with
      | inl heq =>
        subst heq
        refine ⟨token, by rw [hm]; rfl, FakeOutboxClient.claimFakeRow r now token, ?_, rfl⟩
        rw [hrow]
        exact hclaimed
      | inr hm' =>
        obtain ⟨token', htoken', hheld⟩ := h.held m' hm'
        refine ⟨token', htoken', ?_⟩
        rwa [Store.Holds, hothers _ (hbusy m' hm')]
    · intro w' hw'
      rw [hothers _ (hrest w' hw')]
      exact h.waits w' (List.mem_cons_of_mem _ hw')
    · intro id queue hmem
      cases List.mem_append.mp hmem with
      | inl hmem => exact h.passed id queue hmem
      | inr hmem => simp at hmem

/-- A dispatch is over. -/
theorem settled {m : Nat × OutboxInnerMessage} {s s' : Inline.State}
    (h : Accounts subs s.world.store notes waiting (m :: messages))
    (hsettles : Inline.Settles m.2.row.id s s')
    (hnext : s'.world.store.nextId = s.world.store.nextId) :
    Accounts subs s'.world.store notes waiting messages := by
  have hrest : Accounts subs s.world.store notes waiting messages :=
    { kept := h.kept
      balance := h.balance
      nodup := h.nodup
      drawn := h.drawn
      distinct := (List.nodup_cons.mp h.distinct).2
      handled := fun m' hm' => h.handled m' (List.mem_cons_of_mem _ hm')
      held := fun m' hm' => h.held m' (List.mem_cons_of_mem _ hm')
      waits := h.waits
      passed := h.passed }
  refine hrest.moved (hsettles.store h.kept) hnext.ge ?_ ?_
  · exact fun w hw => hsettles.others w.1 (h.waiting_ne hw List.mem_cons_self)
  · intro m' hm'
    refine hsettles.others _ fun heq => ?_
    have hmem : m'.2.row.id ∈ messages.map fun m => m.2.row.id := List.mem_map_of_mem hm'
    rw [heq] at hmem
    exact (List.nodup_cons.mp h.distinct).1 hmem

end Accounts

/-! ## The state -/

/-- The rows a loop has yet to dispatch. -/
def Control.rows : Control → List (Nat × String)
  | .storing rows _ => rows
  | _ => []

/-- The message code runs for. -/
def Control.on : Control → Running
  | .script on _ => on
  | _ => none

def Frame.rows : Frame → List (Nat × String)
  | .storing _ rows _ => rows
  | .publishing _ _ => []

def Frame.on : Frame → Running
  | .publishing on _ => on
  | .storing _ _ _ => none

/-- The stack under code: a handler runs within the loop that awaits its dispatch, within a
    publish of other code. -/
inductive Awaited : Running → List Frame → Prop where
  | test : Awaited none []
  | handler {on : Running} {next : PublishReply → Script} {stack : List Frame}
      {rows : List (Nat × String)} {reply : PublishReply} {m : Nat × OutboxInnerMessage}
      (h : Awaited on stack) :
      Awaited (some m) (.storing m.2.row.id rows reply :: .publishing on next :: stack)

theorem Awaited.test_inv {stack : List Frame} (h : Awaited none stack) : stack = [] := by
  cases h with
  | test => rfl

theorem Awaited.handler_inv {m : Nat × OutboxInnerMessage} {stack : List Frame}
    (h : Awaited (some m) stack) : ∃ rows reply on next rest,
      stack = .storing m.2.row.id rows reply :: .publishing on next :: rest ∧
        Awaited on rest := by
  cases h with
  | handler hawaited => exact ⟨_, _, _, _, _, rfl, hawaited⟩

/-- The stack under what runs. -/
inductive Stacked : Control → List Frame → Prop where
  | script {on : Running} {code : Script} {stack : List Frame} (h : Awaited on stack) :
      Stacked (.script on code) stack
  | storing {on : Running} {next : PublishReply → Script} {stack : List Frame}
      {rows : List (Nat × String)} {reply : PublishReply} (h : Awaited on stack) :
      Stacked (.storing rows reply) (.publishing on next :: stack)
  | raisingLoop {on : Running} {next : PublishReply → Script} {stack : List Frame}
      {id : Nat} {rows : List (Nat × String)} {reply : PublishReply} (h : Awaited on stack) :
      Stacked .raising (.storing id rows reply :: .publishing on next :: stack)
  | raising {on : Running} {next : PublishReply → Script} {stack : List Frame}
      (h : Awaited on stack) : Stacked .raising (.publishing on next :: stack)
  | finished : Stacked .finished []

theorem Stacked.storing_inv {rows : List (Nat × String)} {reply : PublishReply}
    {stack : List Frame} (h : Stacked (.storing rows reply) stack) :
    ∃ on next rest, stack = .publishing on next :: rest ∧ Awaited on rest := by
  cases h with
  | storing hawaited => exact ⟨_, _, _, rfl, hawaited⟩

theorem Stacked.finished_inv {stack : List Frame} (h : Stacked .finished stack) : stack = [] := by
  cases h with
  | finished => rfl

namespace State

/-- The rows that wait, those of the innermost loop first. -/
def waiting (s : State) : List (Nat × String) := s.control.rows ++ s.stack.flatMap Frame.rows

/-- The messages that are handled, the innermost first. -/
def messages (s : State) : List (Nat × OutboxInnerMessage) :=
  s.control.on.toList ++ s.stack.filterMap Frame.on

/-- What holds between any two steps. -/
structure Inv (subs : List TestSubscriber) (s : State) : Prop where
  accounts : Accounts subs s.inline.world.store s.notes s.waiting s.messages
  /-- Behind the first row of a loop, no timer waits. -/
  timerless : ∀ w ∈ s.control.rows.tail ++ s.stack.flatMap Frame.rows,
    ∀ r, s.inline.world.store.row? w.1 = some r → r.timerId = none
  quiet : ∀ e ∈ s.inline.metrics, e.1 ≠ .leaseLost
  stacked : Stacked s.control s.stack
  valid : ∀ m ∈ s.messages, m.1 < subs.length
  /-- The exception that leaves a loop came out of the dispatch the loop awaits. -/
  raising : s.control = .raising → ∀ id rows reply stack,
    s.stack = .storing id rows reply :: stack → .raised id ∈ s.notes
  dropped : ∀ id row, .dropped id row ∈ s.notes → .raised row ∈ s.notes

end State

/-! ## Steps -/

section Steps

variable {subs : List TestSubscriber} {s : State} {on : Running} {code : Script}

namespace State.Inv

/-- Code calls the client, or time passes. -/
theorem external (h : s.Inv subs) (hcontrol : s.control = .script on code) (op : Op)
    (hop : op.isExternal = true) (code' : Script) :
    State.Inv subs { s with
      inline := { s.inline with world := (s.inline.world.step .fake op).2 }
      control := .script on code' } := by
  have hwf := h.accounts.kept.wf
  have hwaiting : s.waiting = s.stack.flatMap Frame.rows := by
    simp [waiting, hcontrol, Control.rows]
  have hmessages : s.messages = on.toList ++ s.stack.filterMap Frame.on := by
    simp [messages, hcontrol, Control.on]
  have hrows : ∀ w ∈ s.waiting, (s.inline.world.step .fake op).2.store.row? w.1 =
      s.inline.world.store.row? w.1 := by
    intro w hw
    obtain ⟨r, hr, _, _⟩ := h.accounts.waits w hw
    have htimerless := h.timerless w (List.mem_append_right _ (hwaiting ▸ hw)) r hr
    have hstep := World.apply_rowStep hwf .fake op w.1
    rw [hr] at hstep ⊢
    exact hstep.stays hop (Or.inr htimerless)
  have hheld : ∀ m ∈ s.messages, (s.inline.world.step .fake op).2.store.row? m.2.row.id =
      s.inline.world.store.row? m.2.row.id := by
    intro m hm
    obtain ⟨token, _, r, hr, hleased⟩ := h.accounts.held m hm
    have hstep := World.apply_rowStep hwf .fake op m.2.row.id
    rw [hr] at hstep ⊢
    exact hstep.stays hop (Or.inl (by simp [hleased]))
  have haccounts := h.accounts.moved (h.accounts.kept.did (.ran s.inline.world.now op)).1
    (World.apply_nextId_le hwf .fake op) hrows hheld
  constructor
  · rw [hwaiting, hmessages] at haccounts
    exact haccounts
  · intro w hw r hr
    have hmem : w ∈ s.waiting := by
      rw [hwaiting]
      simpa [Control.rows] using hw
    rw [hrows w hmem] at hr
    exact h.timerless w (List.mem_append_right _ (hwaiting ▸ hmem)) r hr
  · exact h.quiet
  · have hstacked := h.stacked
    rw [hcontrol] at hstacked
    cases hstacked with
    | script hawaited => exact .script hawaited
  · have hvalid := h.valid
    rw [hmessages] at hvalid
    exact hvalid
  · exact fun hraising => by cases hraising
  · exact h.dropped

/-- A publish has stored rows. -/
theorem dispatchStored (h : s.Inv subs) (hcontrol : s.control = .script on code)
    {before : Store} {rows : List Row} (hrows : Stores before s.inline.world.store rows)
    (hbefore : ∀ id ∈ s.notes.filterMap Note.storedId, id < before.nextId)
    (next : PublishReply → Script) (reply : PublishReply) :
    State.Inv subs (s.dispatchStored on next rows reply) := by
  have hwaiting : s.waiting = s.stack.flatMap Frame.rows := by
    simp [waiting, hcontrol, Control.rows]
  have hmessages : s.messages = on.toList ++ s.stack.filterMap Frame.on := by
    simp [messages, hcontrol, Control.on]
  have haccounts := h.accounts.stored hrows hbefore
  have hwf := h.accounts.kept.wf
  have hstack : (Frame.publishing on next :: s.stack).filterMap Frame.on = s.messages := by
    rw [hmessages]
    cases on <;> rfl
  constructor
  · rw [hwaiting, ← hstack] at haccounts
    exact haccounts
  · intro w hw r hr
    simp only [State.dispatchStored, Control.rows, List.flatMap_cons, Frame.rows,
      List.nil_append, List.mem_append] at hw hr
    cases hw with
    | inl hw =>
      rw [← List.map_tail] at hw
      obtain ⟨r', hr', rfl⟩ := List.mem_map.mp hw
      have hstored := hwf.row?_mem (hrows.stored r' (List.mem_of_mem_tail hr'))
      have heq : r' = r := Option.some.inj (hstored.symm.trans hr)
      exact heq ▸ hrows.timerless r' hr'
    | inr hw => exact h.timerless w (List.mem_append_right _ hw) r hr
  · exact h.quiet
  · have hstacked := h.stacked
    rw [hcontrol] at hstacked
    cases hstacked with
    | script hawaited => exact .storing hawaited
  · have hvalid := h.valid
    rw [← hstack] at hvalid
    exact hvalid
  · exact fun hraising => by cases hraising
  · intro id row hdropped
    have hmem : Note.dropped id row ∈ s.notes := by
      simpa [State.dispatchStored] using hdropped
    exact List.mem_append_left _ (h.dropped id row hmem)

/-- A dispatch is over. -/
theorem afterDispatch {index id : Nat} {m : OutboxInnerMessage} (h : s.Inv subs)
    (hcontrol : s.control = .script (some (index, m)) code) (hid : m.row.id = id)
    {r : Bool × Inline.State} (hsettles : Inline.Settles m.row.id s.inline r.2)
    (hnext : r.2.world.store.nextId = s.inline.world.store.nextId) :
    State.Inv subs (s.afterDispatch id r) := by
  have hawaited : Awaited (some (index, m)) s.stack := by
    have hstacked := h.stacked
    rw [hcontrol] at hstacked
    cases hstacked with
    | script hawaited => exact hawaited
  obtain ⟨rows, reply, outer, next, stack, hstack, houter⟩ := hawaited.handler_inv
  have hwaiting : s.waiting = rows ++ stack.flatMap Frame.rows := by
    simp [waiting, hcontrol, hstack, Control.rows, Frame.rows]
  have hmessages : s.messages = (index, m) :: (s.stack.filterMap Frame.on) := by
    simp [messages, hcontrol, Control.on]
  have haccounts := h.accounts
  rw [hmessages] at haccounts
  have hsettled := haccounts.settled hsettles hnext
  have hquiet : ∀ e ∈ r.2.metrics, e.1 ≠ .leaseLost := by
    intro e he
    cases hsettles.metrics e he with
    | inl hmem => exact h.quiet e hmem
    | inr hne => exact hne
  have htimerless : ∀ w ∈ s.stack.flatMap Frame.rows, ∀ row,
      r.2.world.store.row? w.1 = some row → row.timerId = none := by
    intro w hw row hrow
    have hmem : w ∈ s.waiting := List.mem_append_right _ hw
    rw [hsettles.others w.1 (haccounts.waiting_ne hmem List.mem_cons_self)] at hrow
    exact h.timerless w (List.mem_append_right _ hw) row hrow
  have hvalid : ∀ m ∈ s.stack.filterMap Frame.on, m.1 < subs.length := by
    intro m' hm'
    exact h.valid m' (hmessages ▸ List.mem_cons_of_mem _ hm')
  unfold State.afterDispatch
  cases hraised : r.1 with
  | true =>
    simp only [if_true, State.note]
    constructor
    · have hstill : s.waiting = s.stack.flatMap Frame.rows := by
        simp [waiting, hcontrol, Control.rows]
      rw [hstill] at hsettled
      exact Accounts.lost [] hsettled rfl rfl rfl (by simp)
    · exact htimerless
    · exact hquiet
    · show Stacked .raising s.stack
      rw [hstack]
      exact .raisingLoop houter
    · exact hvalid
    · intro _ id' rows' reply' stack' hstack'
      -- the loop below awaits this very dispatch
      obtain rfl : id = id' := by
        rw [hstack, hid] at hstack'
        cases hstack'
        rfl
      simp
    · intro id row hdropped
      have hmem : Note.dropped id row ∈ s.notes := by simpa using hdropped
      exact List.mem_append_left _ (h.dropped id row hmem)
  | false =>
    simp only [hstack, Bool.false_eq_true, if_false]
    rw [hstack] at hsettled htimerless hvalid
    constructor
    · rw [hwaiting] at hsettled
      exact hsettled
    · intro w hw
      refine htimerless w ?_
      simp only [Control.rows, List.flatMap_cons, Frame.rows, List.nil_append,
        List.mem_append] at hw ⊢
      exact hw.imp_left List.mem_of_mem_tail
    · exact hquiet
    · exact .storing houter
    · exact hvalid
    · exact fun hraising => by cases hraising
    · exact h.dropped

/-- The message that is handled holds its lease. -/
theorem held {index : Nat} {m : OutboxInnerMessage} (h : s.Inv subs)
    (hcontrol : s.control = .script (some (index, m)) code) :
    ∃ token, m.row.acquiredToken = some token ∧ s.inline.world.store.Holds m.row.id token := by
  refine h.accounts.held (index, m) ?_
  simp [messages, hcontrol, Control.on]

/-- What a loop with a row left has under it. -/
theorem storing (h : s.Inv subs) {w : Nat × String} {rows : List (Nat × String)}
    {reply : PublishReply} (hcontrol : s.control = .storing (w :: rows) reply) :
    s.waiting = w :: (rows ++ s.stack.flatMap Frame.rows) ∧
      s.messages = s.stack.filterMap Frame.on ∧
      ∃ on next stack, s.stack = .publishing on next :: stack ∧ Awaited on stack := by
  refine ⟨by simp [waiting, hcontrol, Control.rows], by simp [messages, hcontrol, Control.on], ?_⟩
  have hstacked := h.stacked
  rw [hcontrol] at hstacked
  exact hstacked.storing_inv

/-- A row is passed over. -/
theorem skip (h : s.Inv subs) {w : Nat × String} {rows : List (Nat × String)}
    {reply : PublishReply} (hcontrol : s.control = .storing (w :: rows) reply)
    (hnone : findSubscriberForQueue subs w.2 = none) :
    State.Inv subs
      (State.note { s with control := .storing rows reply } (.skipped w.1 w.2)) := by
  obtain ⟨hwaiting, hmessages, on, next, stack, hstack, hawaited⟩ := h.storing hcontrol
  have haccounts := h.accounts
  rw [hwaiting, hmessages] at haccounts
  constructor
  · exact haccounts.skipped hnone
  · intro w' hw'
    refine h.timerless w' ?_
    simp only [State.note, hcontrol, Control.rows, List.mem_append, List.tail_cons] at hw' ⊢
    exact hw'.imp_left List.mem_of_mem_tail
  · exact h.quiet
  · show Stacked (.storing rows reply) s.stack
    rw [hstack]
    exact .storing hawaited
  · have hvalid := h.valid
    rw [hmessages] at hvalid
    exact hvalid
  · exact fun hraising => by cases hraising
  · intro id row hdropped
    have hmem : Note.dropped id row ∈ s.notes := by simpa [State.note] using hdropped
    exact List.mem_append_left _ (h.dropped id row hmem)

/-- A row is claimed, and its handler may run. -/
theorem begun (h : s.Inv subs) {w : Nat × String} {rows : List (Nat × String)}
    {reply : PublishReply} (hcontrol : s.control = .storing (w :: rows) reply) (token : UUID)
    {index : Nat} (hindex : index < subs.length) :
    ∃ row store, FakeOutboxClient.syncDispatch s.inline.world.store s.inline.world.now token w.1 =
        (some row, store) ∧ row.id = w.1 ∧
      ∀ (inline : Inline.State) (m : OutboxInnerMessage) (code : Script),
        inline.world = { s.inline.world with store := store } →
        (∀ e ∈ inline.metrics, e.1 ≠ .leaseLost) → m.row = row →
        State.Inv subs { s with
          inline := inline
          control := .script (some (index, m)) code
          stack := .storing w.1 rows reply :: s.stack
          notes := s.notes ++ [.dispatched w.1] } := by
  obtain ⟨hwaiting, hmessages, on, next, stack, hstack, hawaited⟩ := h.storing hcontrol
  have haccounts := h.accounts
  rw [hwaiting, hmessages] at haccounts
  obtain ⟨row, hclaim, hid, hdispatched⟩ := haccounts.dispatched s.inline.world.now token index
  refine ⟨row, _, hclaim, hid, fun inline m code hinline hquiet hm => ?_⟩
  have hframe : (Frame.storing w.1 rows reply :: s.stack).filterMap Frame.on =
      s.stack.filterMap Frame.on := rfl
  constructor
  · have hclaimed := hdispatched m hm
    simp only [hinline]
    exact hclaimed
  · intro w' hw' r hr
    simp only [hinline, Control.rows, List.tail_nil, List.nil_append, List.flatMap_cons,
      Frame.rows] at hw' hr
    rw [haccounts.kept.row?_syncDispatch] at hr
    obtain ⟨r', hr', rfl⟩ := Option.map_eq_some_iff.mp hr
    have htimerless := h.timerless w' (by simpa [hcontrol, Control.rows] using hw') r' hr'
    split
    · exact htimerless
    · exact htimerless
  · exact hquiet
  · show Stacked (.script (some (index, m)) code) (.storing w.1 rows reply :: s.stack)
    rw [hstack, ← hid, ← hm]
    exact .script (.handler hawaited)
  · intro m' hm'
    have hvalid := h.valid
    rw [hmessages] at hvalid
    simp only [messages, Control.on, Option.toList_some, hframe] at hm'
    cases List.mem_cons.mp hm' with
    | inl heq => exact heq ▸ hindex
    | inr hm' => exact hvalid m' hm'
  · exact fun hraising => by cases hraising
  · intro id row hdropped
    have hmem : Note.dropped id row ∈ s.notes := by simpa using hdropped
    exact List.mem_append_left _ (h.dropped id row hmem)

/-- A publish returns, or raises, to the code that awaits it. -/
theorem resume (h : s.Inv subs) (hrows : s.control.rows = []) (hon : s.control.on = none)
    {next : PublishReply → Script} {stack : List Frame}
    (hstack : s.stack = .publishing on next :: stack) (hawaited : Awaited on stack)
    (code : Script) :
    State.Inv subs { s with control := .script on code, stack := stack } := by
  have hwaiting : s.waiting = stack.flatMap Frame.rows := by
    simp [waiting, hrows, hstack, Frame.rows]
  have hmessages : s.messages = on.toList ++ stack.filterMap Frame.on := by
    rw [messages, hon, hstack]
    cases on <;> rfl
  have haccounts := h.accounts
  have hvalid := h.valid
  rw [hwaiting, hmessages] at haccounts
  rw [hmessages] at hvalid
  constructor
  · exact haccounts
  · intro w hw
    refine h.timerless w (List.mem_append_right _ ?_)
    simpa [Control.rows, hstack, Frame.rows] using hw
  · exact h.quiet
  · exact .script hawaited
  · exact hvalid
  · exact fun hraising => by cases hraising
  · exact h.dropped

/-- The exception out of a dispatch leaves its loop. -/
theorem leave (h : s.Inv subs) (hcontrol : s.control = .raising) {id : Nat}
    {rows : List (Nat × String)} {reply : PublishReply} {on : Running}
    {next : PublishReply → Script} {stack : List Frame}
    (hstack : s.stack = .storing id rows reply :: .publishing on next :: stack)
    (hawaited : Awaited on stack) :
    State.Inv subs { s with
      control := .raising
      stack := .publishing on next :: stack
      notes := s.notes ++ rows.map fun row => .dropped row.1 id } := by
  have hwaiting : s.waiting = rows ++ (Frame.publishing on next :: stack).flatMap Frame.rows := by
    simp [waiting, hcontrol, hstack, Control.rows, Frame.rows]
  have hmessages : s.messages = (Frame.publishing on next :: stack).filterMap Frame.on := by
    rw [messages, hcontrol, hstack]
    rfl
  have haccounts := h.accounts
  have hvalid := h.valid
  rw [hwaiting, hmessages] at haccounts
  rw [hmessages] at hvalid
  have hdropped := haccounts.dropped id
  have hraised := h.raising hcontrol id rows reply _ hstack
  constructor
  · exact hdropped
  · intro w hw
    refine h.timerless w (List.mem_append_right _ ?_)
    rw [hstack, List.flatMap_cons]
    exact List.mem_append_right _ hw
  · exact h.quiet
  · exact .raising hawaited
  · exact hvalid
  · intro _ id' rows' reply' stack' hstack'
    cases hstack'
  · intro id' row hmem
    refine List.mem_append_left _ ?_
    cases List.mem_append.mp hmem with
    | inl hmem => exact h.dropped id' row hmem
    | inr hmem =>
      -- these the loop drops now, and its dispatch has raised
      obtain ⟨_, _, hrow⟩ := List.mem_map.mp hmem
      cases hrow
      exact hraised

/-- The test is over. -/
theorem ended (h : s.Inv subs) (hcontrol : s.control.rows = []) (hon : s.control.on = none)
    (hstack : s.stack = []) : State.Inv subs { s with control := .finished } := by
  have haccounts := h.accounts
  simp only [waiting, messages, hcontrol, hon, hstack] at haccounts
  constructor
  · simpa [waiting, messages, hstack, Control.rows, Control.on] using haccounts
  · simp [hstack, Control.rows]
  · exact h.quiet
  · show Stacked .finished s.stack
    rw [hstack]
    exact .finished
  · simp [messages, hstack, Control.on]
  · exact fun hraising => by cases hraising
  · exact h.dropped

end State.Inv

theorem findSubscriberForQueue_lt {queue : String} {index : Nat}
    (h : findSubscriberForQueue subs queue = some index) : index < subs.length := by
  unfold findSubscriberForQueue at h
  exact (List.findIdx?_eq_some_iff_getElem.mp h).1

variable (recorder : Event → Tags → Except PyException Unit)

/-- The code of a message ends. -/
theorem finish_inv (h : s.Inv subs) {index : Nat} {m : OutboxInnerMessage}
    (hcontrol : s.control = .script (some (index, m)) code) (how : ConsumeEnd)
    (acts : List HandlerAct) (entered left : Reading) :
    State.Inv subs (finish recorder subs s index m how acts entered left) := by
  have hmem : (index, m) ∈ s.messages := by
    simp [State.messages, hcontrol, Control.on]
  obtain ⟨sub, hsub⟩ : ∃ sub, subs[index]? = some sub :=
    ⟨_, List.getElem?_eq_getElem (h.valid _ hmem)⟩
  obtain ⟨token, htoken, hheld⟩ := h.held hcontrol
  unfold finish
  simp only [hsub]
  -- a stop on the way is no part of the invariant
  have hstop (stopped : List Nat) : State.Inv subs { s with stopped := stopped } :=
    { accounts := h.accounts
      timerless := h.timerless
      quiet := h.quiet
      stacked := h.stacked
      valid := h.valid
      raising := h.raising
      dropped := h.dropped }
  split
  · exact (hstop (index :: s.stopped)).afterDispatch hcontrol rfl
      (Inline.endDispatch_settles recorder sub.cfg h.accounts.kept htoken hheld false _)
      (Inline.endDispatch_nextId recorder sub.cfg _ m false _)
  · exact h.afterDispatch hcontrol rfl
      (Inline.endDispatch_settles recorder sub.cfg h.accounts.kept htoken hheld false _)
      (Inline.endDispatch_nextId recorder sub.cfg _ m false _)

/-- A row is taken from its loop. -/
theorem syncDispatch_inv (h : s.Inv subs) {id : Nat} {queue : String}
    {rows : List (Nat × String)} {reply : PublishReply}
    (hcontrol : s.control = .storing ((id, queue) :: rows) reply) (token : UUID)
    (reading : Reading) :
    State.Inv subs (syncDispatch recorder subs s token reading id queue rows reply) := by
  unfold syncDispatch
  cases hfind : findSubscriberForQueue subs queue with
  | none => exact h.skip hcontrol hfind
  | some index =>
    have hindex := findSubscriberForQueue_lt hfind
    obtain ⟨sub, hsub⟩ : ∃ sub, subs[index]? = some sub := ⟨_, List.getElem?_eq_getElem hindex⟩
    obtain ⟨row, store, hclaim, rfl, hbegun⟩ := h.begun hcontrol token hindex
    simp only [hsub, hclaim]
    -- the dispatch begins with the message of the claimed row
    have hclaimed := hbegun { s.inline with world := { s.inline.world with store := store } }
      (.ofRow row reading.monotonic) (sub.handler (.ofRow row reading.monotonic)) rfl h.quiet rfl
    obtain ⟨token', htoken, hheld⟩ := hclaimed.held rfl
    have hsettles := Inline.beginDispatch_settles recorder sub.cfg hclaimed.accounts.kept htoken
      hheld false
    have hnext := Inline.beginDispatch_nextId recorder sub.cfg
      { s.inline with world := { s.inline.world with store := store } }
      (.ofRow row reading.monotonic) false
    simp only [State.note]
    cases hbegin : Inline.beginDispatch recorder sub.cfg .fake false
        { s.inline with world := { s.inline.world with store := store } }
        (.ofRow row reading.monotonic) with
    | ended raised inline =>
      rw [hbegin] at hsettles hnext
      exact hclaimed.afterDispatch rfl rfl hsettles hnext
    | consuming inline m =>
      rw [hbegin] at hsettles
      obtain ⟨hsettles, hworld, hrow⟩ := hsettles
      have hquiet : ∀ e ∈ inline.metrics, e.1 ≠ .leaseLost := by
        intro e he
        cases hsettles.metrics e he with
        | inl hmem => exact h.quiet e hmem
        | inr hne => exact hne
      have hrunning := hbegun inline m (sub.handler m) hworld hquiet hrow
      refine iteInduction (fun _ => ?_) (fun _ => hrunning)
      obtain ⟨token', htoken, hheld⟩ := hrunning.held rfl
      exact hrunning.afterDispatch rfl (congrArg Row.id hrow)
        (Inline.endDispatch_settles recorder sub.cfg hrunning.accounts.kept htoken hheld false _)
        (Inline.endDispatch_nextId recorder sub.cfg inline m false _)

/-- A publish of one row: it returns at once if the client raised. -/
theorem publish_inv (h : s.Inv subs) {args : InsertArgs} {next : PublishReply → Script}
    (hcontrol : s.control = .script on (.publish args next)) (token : UUID) (reading : Reading) :
    State.Inv subs (step recorder subs s token reading) := by
  have hexternal := h.external hcontrol (.insert s.inline.world.now args) rfl
  have hdrawn := h.accounts.drawn
  unfold step
  simp only [hcontrol]
  rw [World.step_insert] at hexternal ⊢
  cases hreply : (FakeOutboxClient.insert s.inline.world.store s.inline.world.now args).1 with
  | error e => exact hexternal (next (.raised e))
  | ok rowId =>
    exact (hexternal (next .escaped)).dispatchStored rfl
      (FakeOutboxClient.insertDispatchable_stores _ _ args) hdrawn next _

theorem publishBatch_inv (h : s.Inv subs) {args : InsertBatchArgs} {next : PublishReply → Script}
    (hcontrol : s.control = .script on (.publishBatch args next)) (token : UUID)
    (reading : Reading) : State.Inv subs (step recorder subs s token reading) := by
  have hexternal := h.external hcontrol (.insertBatch s.inline.world.now args) rfl
  have hdrawn := h.accounts.drawn
  unfold step
  simp only [hcontrol]
  rw [World.step_insertBatch] at hexternal ⊢
  cases hreply : (FakeOutboxClient.insertBatch s.inline.world.store
      s.inline.world.now args).1 with
  | error e => exact hexternal (next (.raised e))
  | ok result =>
    exact (hexternal (next .escaped)).dispatchStored rfl
      (FakeOutboxClient.insertBatchDispatchable_stores _ _ args) hdrawn next _

/-- What holds between any two steps. -/
theorem step_inv (h : s.Inv subs) (token : UUID) (reading : Reading) :
    State.Inv subs (step recorder subs s token reading) := by
  have hstacked := h.stacked
  cases hcontrol : s.control with
  | script on code =>
    rw [hcontrol] at hstacked
    have hawaited : Awaited on s.stack := by
      cases hstacked with
      | script hawaited => exact hawaited
    cases code with
    | ends how acts entered left =>
      unfold step
      cases on with
      | none =>
        simp only [hcontrol]
        exact h.ended (by simp [hcontrol, Control.rows]) (by simp [hcontrol, Control.on])
          hawaited.test_inv
      | some m =>
        simp only [hcontrol]
        exact finish_inv recorder h hcontrol how acts entered left
    | tick elapsed next =>
      unfold step
      simp only [hcontrol]
      exact h.external hcontrol (.tick elapsed) rfl next
    | cancelTimer queue timerId next =>
      unfold step
      simp only [hcontrol]
      exact h.external hcontrol (.cancelTimer queue timerId) rfl _
    | publish args next => exact publish_inv recorder h hcontrol token reading
    | publishBatch args next => exact publishBatch_inv recorder h hcontrol token reading
  | storing rows reply =>
    rw [hcontrol] at hstacked
    obtain ⟨on, next, stack, hstack, hawaited⟩ := hstacked.storing_inv
    cases rows with
    | nil =>
      unfold step
      simp only [hcontrol, hstack]
      exact h.resume (by simp [hcontrol, Control.rows]) (by simp [hcontrol, Control.on]) hstack
        hawaited _
    | cons w rows =>
      unfold step
      simp only [hcontrol]
      exact syncDispatch_inv recorder h hcontrol token reading
  | raising =>
    rw [hcontrol] at hstacked
    unfold step
    generalize hstack : s.stack = stack at hstacked
    cases hstacked with
    | raisingLoop hawaited =>
      simp only [hcontrol]
      exact h.leave hcontrol hstack hawaited
    | raising hawaited =>
      simp only [hcontrol]
      exact h.resume (by simp [hcontrol, Control.rows]) (by simp [hcontrol, Control.on]) hstack
        hawaited _
  | finished =>
    rw [hcontrol] at hstacked
    have hstack : s.stack = [] := hstacked.finished_inv
    unfold step
    simp only [hcontrol]
    exact h.ended (by simp [hcontrol, Control.rows]) (by simp [hcontrol, Control.on]) hstack

end Steps

/-! ## What a step stores -/

/-- The ids drawn between two states are those of rows that are noted as stored. -/
structure State.Draws (s s' : State) : Prop where
  notes : s.notes ⊆ s'.notes
  stored : ∀ id, s.inline.world.store.nextId ≤ id → id < s'.inline.world.store.nextId →
    id ∈ s'.notes.filterMap Note.storedId

namespace State.Draws

variable {s s' s'' : State}

/-- Where no id is drawn, no note is missing. -/
theorem still (hnotes : s.notes ⊆ s'.notes)
    (hnext : s'.inline.world.store.nextId = s.inline.world.store.nextId) : s.Draws s' where
  notes := hnotes
  stored _ hge hlt := absurd (hnext ▸ hlt) (Nat.not_lt_of_ge hge)

theorem trans (h : s.Draws s') (h' : s'.Draws s'') : s.Draws s'' where
  notes := List.Subset.trans h.notes h'.notes
  stored id hge hlt := by
    by_cases hmid : id < s'.inline.world.store.nextId
    · -- drawn on the first stretch, it was noted there
      exact List.filterMap_subset _ h'.notes (h.stored id hge hmid)
    · exact h'.stored id (by omega) hlt

/-- A publish notes the rows it stored. -/
theorem dispatchStored {on : Running} {next : PublishReply → Script} {rows : List Row}
    {reply : PublishReply} (hnotes : s'.notes = s.notes)
    (hrows : Stores s.inline.world.store s'.inline.world.store rows) :
    s.Draws (s'.dispatchStored on next rows reply) where
  notes := by
    rw [← hnotes]
    exact List.subset_append_left _ _
  stored id hge hlt := by
    obtain ⟨r, hr, rfl⟩ := List.mem_map.mp (hrows.drawn id hge hlt)
    refine List.mem_filterMap.mpr ⟨.stored r.id r.queue, ?_, rfl⟩
    exact List.mem_append_right _ (List.mem_map_of_mem hr)

theorem afterDispatch (h : s.Draws s') (id : Nat) {r : Bool × Inline.State}
    (hnext : r.2.world.store.nextId = s'.inline.world.store.nextId) :
    s.Draws (s'.afterDispatch id r) := by
  refine h.trans ?_
  unfold State.afterDispatch
  dsimp only
  split
  · exact still (List.subset_append_left _ _) hnext
  · split <;> exact still (List.Subset.refl _) hnext

end State.Draws

section Draws

variable {s : State} (recorder : Event → Tags → Except PyException Unit)
  (subs : List TestSubscriber)

theorem finish_draws (index : Nat) (m : OutboxInnerMessage) (how : ConsumeEnd)
    (acts : List HandlerAct) (entered left : Reading) :
    s.Draws (finish recorder subs s index m how acts entered left) := by
  unfold finish
  split
  · exact .still (List.Subset.refl _) rfl
  · dsimp only
    refine .afterDispatch (.still ?_ ?_) _ (Inline.endDispatch_nextId recorder _ _ _ _ _)
    · split <;> exact List.Subset.refl _
    · split <;> rfl

theorem syncDispatch_draws (token : UUID) (reading : Reading) (id : Nat) (queue : String)
    (rows : List (Nat × String)) (reply : PublishReply) :
    s.Draws (syncDispatch recorder subs s token reading id queue rows reply) := by
  have hskipped : s.Draws (State.note { s with control := .storing rows reply }
      (.skipped id queue)) := .still (List.subset_append_left _ _) rfl
  unfold syncDispatch
  split
  · exact hskipped
  · dsimp only
    split
    · rename_i sub row store hsub hclaim
      have hnext := FakeOutboxClient.syncDispatch_nextId s.inline.world.store s.inline.world.now
        token id
      rw [hclaim] at hnext
      -- the row is claimed, and then its dispatch begins
      have hclaimed : s.Draws (State.note { s with
          inline := { s.inline with world := { s.inline.world with store := store } }
          stack := .storing id rows reply :: s.stack } (.dispatched id)) :=
        .still (List.subset_append_left _ _) hnext
      have hbegun := Inline.beginDispatch_nextId recorder sub.cfg
        { s.inline with world := { s.inline.world with store := store } }
        (.ofRow row reading.monotonic) false
      dsimp only [State.note] at hbegun ⊢
      split
      · rename_i raised inline hbegin
        rw [hbegin] at hbegun
        exact hclaimed.afterDispatch id hbegun
      · rename_i inline m hbegin
        rw [hbegin] at hbegun
        have hconsuming (control : Control) : s.Draws { s with
            inline := inline
            control := control
            stack := .storing id rows reply :: s.stack
            notes := s.notes ++ [.dispatched id] } :=
          hclaimed.trans (.still (List.Subset.refl _) hbegun)
        refine iteInduction (fun _ => ?_) (fun _ => hconsuming _)
        exact (hconsuming s.control).afterDispatch id
          (Inline.endDispatch_nextId recorder sub.cfg inline m false _)
    · exact hskipped

/-- The rows a step stores it notes. -/
theorem step_draws (token : UUID) (reading : Reading) :
    s.Draws (step recorder subs s token reading) := by
  have hsame {s' : State} (hnotes : s'.notes = s.notes)
      (hnext : s'.inline.world.store.nextId = s.inline.world.store.nextId) : s.Draws s' :=
    .still (hnotes ▸ List.Subset.refl _) hnext
  unfold step
  dsimp only
  split
  · exact hsame rfl rfl
  · exact finish_draws recorder subs _ _ _ _ _ _
  · exact hsame rfl (s.inline.world.step_nextId rfl)
  · exact hsame rfl (s.inline.world.step_nextId rfl)
  · rename_i on args next hcontrol
    rw [World.step_insert]
    have hstores := FakeOutboxClient.insertDispatchable_stores s.inline.world.store
      s.inline.world.now args
    -- what raised stored nothing, and what did not has its rows noted
    cases hreply : (FakeOutboxClient.insert s.inline.world.store s.inline.world.now args).1 with
    | error e => exact hsame rfl (congrArg Store.nextId (FakeOutboxClient.insert_raised hreply))
    | ok rowId => exact .dispatchStored rfl hstores
  · rename_i on args next hcontrol
    rw [World.step_insertBatch]
    have hstores := FakeOutboxClient.insertBatchDispatchable_stores s.inline.world.store
      s.inline.world.now args
    cases hreply : (FakeOutboxClient.insertBatch s.inline.world.store
        s.inline.world.now args).1 with
    | error e =>
      exact hsame rfl (congrArg Store.nextId (FakeOutboxClient.insertBatch_raised hreply))
    | ok result => exact .dispatchStored rfl hstores
  · exact hsame rfl rfl
  · exact syncDispatch_draws recorder subs _ _ _ _ _ _
  · exact .still (List.subset_append_left _ _) rfl
  · exact hsame rfl rfl
  · exact hsame rfl rfl

end Draws

/-! ## Runs -/

section Runs

variable (recorder : Event → Tags → Except PyException Unit) (subs : List TestSubscriber)
  (start : Int) (test : Script) (draws : List (UUID × Reading))

/-- What holds in a run. -/
theorem run_inv : State.Inv subs (run recorder subs start test draws) := by
  unfold run
  induction draws using List.reverseRecOn with
  | nil =>
    constructor
    · constructor <;> simp [State.waiting, State.messages, Control.rows, Control.on, World.init,
        FakeStore.empty]
    · simp [Control.rows]
    · simp
    · exact .script .test
    · simp [State.messages, Control.on]
    · simp
    · simp
  | append_singleton draws draw ih =>
    rw [List.foldl_append]
    exact step_inv recorder ih draw.1 draw.2

/-- The rows of a run are noted, from the first one on. -/
theorem run_draws :
    State.Draws { inline := { world := World.init start }, control := .script none test }
      (run recorder subs start test draws) := by
  unfold run
  induction draws using List.reverseRecOn with
  | nil => exact .still (List.Subset.refl _) rfl
  | append_singleton draws draw ih =>
    rw [List.foldl_append]
    exact ih.trans (step_draws recorder subs draw.1 draw.2)

end Runs

/-- However the test and its handlers publish, in each other's dispatches or not, the rows
    stored are, once each, those dispatched, those that wait in a loop and those that left
    one undispatched: for want of a handler, or with a loop that the exception out of one of
    its dispatches left. They are all the rows whose ids were drawn. None waits when the test
    is over. A message holds its lease while it is handled, and no write finds it lost. -/
theorem sync_dispatch_exactly_once (recorder : Event → Tags → Except PyException Unit)
    (subs : List TestSubscriber) (start : Int) (test : Script) (draws : List (UUID × Reading)) :
    let s := run recorder subs start test draws
    (s.notes.filterMap Note.storedId).Nodup ∧
      (s.notes.filterMap Note.storedId).Perm (s.notes.filterMap Note.dispatchedId ++
        (s.waiting.map Prod.fst ++ s.notes.filterMap Note.lostId)) ∧
      (∀ id, 1 ≤ id → id < s.inline.world.store.nextId →
        id ∈ s.notes.filterMap Note.storedId) ∧
      (∀ id queue, .skipped id queue ∈ s.notes → findSubscriberForQueue subs queue = none) ∧
      (∀ id row, .dropped id row ∈ s.notes → .raised row ∈ s.notes) ∧
      (s.control = .finished → s.waiting = []) ∧
      (∀ m ∈ s.messages, ∃ token, m.2.row.acquiredToken = some token ∧
        s.inline.world.store.Holds m.2.row.id token) ∧
      ∀ e ∈ s.inline.metrics, e.1 ≠ .leaseLost := by
  intro s
  have h : State.Inv subs s := run_inv recorder subs start test draws
  have hdraws : State.Draws _ s := run_draws recorder subs start test draws
  have hfinished : s.control = .finished → s.waiting = [] := by
    intro hcontrol
    have hstacked := h.stacked
    rw [hcontrol] at hstacked
    simp [State.waiting, hcontrol, hstacked.finished_inv, Control.rows]
  exact ⟨h.accounts.nodup, h.accounts.balance, hdraws.stored, h.accounts.passed, h.dropped,
    hfinished, h.accounts.held, h.quiet⟩

end TestOutboxBroker

end Outbox
