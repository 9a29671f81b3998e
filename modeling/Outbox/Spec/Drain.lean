import Outbox.Spec.SystemInv

/-!
# The drain of `stop()`

`stop()` sets `_stopping`, passes the claim lock once, and waits in `_inflight.join()` until
nothing is unfinished. A call that has passed the lock knows that no fetch is under way and
that none will be issued; when its `join()` returns, the queue, the hands and the buffers of
the workers are empty. A drain that times out gives none of this, and the rows it finds in
the queue at the end are dropped.

## Key results

- `Subscriber.Draining`: what every call of `stop()` knows at its await
- `drain_barrier`: the drain is a barrier, but for rows an earlier timed-out drain dropped
- `drain_not_barrier`: a drain does not wait for those
-/

namespace Outbox

open List

/-! ## The unfinished count -/

namespace Subscriber

/-- The rows on the in-flight queue. -/
def queued (s : Subscriber) : Nat := s.shared.inflight.length

/-- The rows being dispatched. -/
def dispatching (s : Subscriber) : Nat :=
  s.workers.countP fun w => match w.pc with
    | .consuming _ _ | .writing _ _ _ _ => true
    | _ => false

/-- The rows in the buffers of the workers. -/
def buffered (s : Subscriber) : Nat := (s.workers.map fun w => w.buffer.length).sum

/-- The fetches issued so far. -/
def fetches (s : Subscriber) : Nat :=
  s.log.countP fun n => match n with
    | .fetchIssued => true
    | _ => false

/-- The shares of the workers are what they dispatch and what they buffer. -/
theorem size_eq (s : Subscriber) :
    (s.ledger s.workers).size = s.dispatching + s.buffered := by
  show (s.workers.map fun w => w.pc.hold.size + w.buffer.length).sum = _
  unfold dispatching buffered
  induction s.workers with
  | nil => rfl
  | cons w workers ih =>
    rw [map_cons, sum_cons, ih, countP_cons, map_cons, sum_cons]
    cases w.pc <;> simp [WorkerPc.hold] <;> omega

variable {known : Row → Prop} {s : Subscriber}

/-- The queue counts as unfinished what is queued, dispatched or buffered. -/
theorem Inv.unfinished_eq (h : s.Inv known) :
    s.shared.unfinished = s.queued + s.dispatching + s.buffered := by
  have hcount : s.shared.unfinished =
      s.shared.inflight.length + 0 + 0 + (s.ledger s.workers).size := h.books.unfinished
  rw [size_eq] at hcount
  unfold queued
  omega

end Subscriber

/-! ## What a call of `stop()` knows -/

/-- The unfinished count only goes down, and the wake-ups of `join()` are real. -/
structure Shared.Settles (sh sh' : Shared) : Prop where
  unfinished : sh'.unfinished ≤ sh.unfinished
  finishedSets : sh.finishedSets ≤ sh'.finishedSets
  finished : sh.finishedSets < sh'.finishedSets → sh'.unfinished = 0

theorem Shared.Advances.settles {sh sh' : Shared} (h : sh.Advances sh') : sh.Settles sh' :=
  ⟨h.unfinished, h.finishedSets, h.finished⟩

/-- The counters of the queue are as they were. -/
theorem Shared.settles_of_eq {sh sh' : Shared} (hunfinished : sh'.unfinished = sh.unfinished)
    (hfinished : sh'.finishedSets = sh.finishedSets) : sh.Settles sh' where
  unfinished := Nat.le_of_eq hunfinished
  finishedSets := Nat.le_of_eq hfinished.symm
  finished hlt := by omega

namespace Subscriber

/-- A drain timeout was reported. -/
def TimedOut (s : Subscriber) : Prop := ∃ tags, Note.metric none .drainTimeout tags ∈ s.log

/-- What a call of `stop()` knows at its await. -/
def Knows (s : Subscriber) : StopPc → Prop
  | .starting | .returned _ _ | .aborted => True
  | .locking => s.shared.stopping = true
  | .joining seen => s.shared.stopping = true ∧ FetchTask.fetching s.fetch.pc = false ∧
      seen ≤ s.shared.finishedSets ∧
      (seen < s.shared.finishedSets → s.shared.unfinished = 0)
  | .gathering passedLock timedOut => s.shared.stopping = true ∧
      (timedOut = true → s.TimedOut) ∧
      (timedOut = false → passedLock = true ∧ FetchTask.fetching s.fetch.pc = false ∧
        s.shared.unfinished = 0)

/-- The invariant of `stop()`: every call knows what its await says, and only a drain that
    timed out drops claims. -/
structure Draining (s : Subscriber) : Prop where
  calls : ∀ pc ∈ s.stops, s.Knows pc
  dropped : ∀ c, 0 < marks .discarded c s.log → s.TimedOut

variable {known : Row → Prop} {s s' : Subscriber}

theorem TimedOut.grow {notes : List Note} (h : s.TimedOut) (hlog : s'.log = s.log ++ notes) :
    s'.TimedOut := by
  obtain ⟨tags, hmem⟩ := h
  exact ⟨tags, hlog ▸ mem_append.mpr (.inl hmem)⟩

/-- A call keeps what it knows while the flag stays up, no fetch is issued and claims are
    only finished. -/
theorem Knows.step {pc : StopPc} (h : s.Knows pc)
    (hstopping : s.shared.stopping = true → s'.shared.stopping = true)
    (htimedOut : s.TimedOut → s'.TimedOut)
    (hquiet : s.shared.stopping = true → FetchTask.fetching s.fetch.pc = false →
      FetchTask.fetching s'.fetch.pc = false ∧ s.shared.Settles s'.shared) : s'.Knows pc := by
  cases pc with
  | starting => trivial
  | returned _ _ => trivial
  | aborted => trivial
  | locking => exact hstopping h
  | joining seen =>
    obtain ⟨hflag, hidle, hseen, hzero⟩ := h
    obtain ⟨hidle', hsettles⟩ := hquiet hflag hidle
    refine ⟨hstopping hflag, hidle', Nat.le_trans hseen hsettles.finishedSets, fun hlt => ?_⟩
    -- the wake-up was there before, or it came with the step
    by_cases hbefore : seen < s.shared.finishedSets
    · have hle := hsettles.unfinished
      have hnone := hzero hbefore
      omega
    · exact hsettles.finished (by omega)
  | gathering passedLock timedOut =>
    obtain ⟨hflag, hout, hclean⟩ := h
    refine ⟨hstopping hflag, fun ht => htimedOut (hout ht), fun ht => ?_⟩
    obtain ⟨hpassed, hidle, hzero⟩ := hclean ht
    obtain ⟨hidle', hsettles⟩ := hquiet hflag hidle
    have hle := hsettles.unfinished
    exact ⟨hpassed, hidle', by omega⟩

/-- The calls after one of them moved on. -/
theorem knows_set {stops : List StopPc} {call : Nat} {pc' : StopPc}
    (hothers : ∀ pc ∈ stops, s'.Knows pc) (hpc' : s'.Knows pc') :
    ∀ pc ∈ stops.set call pc', s'.Knows pc := by
  intro pc hpc
  cases mem_or_eq_of_mem_set hpc with
  | inl hold => exact hothers pc hold
  | inr hnew => exact hnew ▸ hpc'

/-- A log that drops nothing keeps the account of the dropped. -/
theorem Draining.dropped_grow (h : s.Draining) {notes : List Note}
    (hlog : s'.log = s.log ++ notes) (hnone : ∀ c, marks .discarded c notes = 0) (c : ClaimKey)
    (hc : 0 < marks .discarded c s'.log) : s'.TimedOut := by
  rw [hlog, marks_append, hnone, Nat.add_zero] at hc
  exact (h.dropped c hc).grow hlog

/-! ## Steps -/

theorem init_draining (cfg : SubscriberConfig) : Draining { cfg := cfg } where
  calls pc hpc := by cases hpc
  dropped c hc := absurd hc (Nat.lt_irrefl 0)

/-- A worker puts nothing on the queue, and the fetch loop is where it was. -/
theorem afterWorker_draining (hinv : s.Inv known) (h : s.Draining) {i : Nat} {w : Worker}
    (hw : s.workers[i]? = some w) {act : WorkerAct} {out : Worker.StepOut}
    (hstep : w.step s.cfg s.shared act = some out) : (s.afterWorker i out).Draining := by
  obtain ⟨_, hadvances, _, hown⟩ := afterWorker_inv hinv hw hstep
  have hknows : ∀ pc ∈ s.stops, (s.afterWorker i out).Knows pc := fun pc hpc =>
    (h.calls pc hpc).step (fun hflag => hadvances.stopping.trans hflag)
      (fun ht => ht.grow rfl) fun _ hidle => ⟨hidle, hadvances.settles⟩
  refine ⟨fun pc hpc => ?_, h.dropped_grow rfl fun c => Note.marks_own hown (.inr rfl) c⟩
  have hpc : pc ∈ if out.spawnsStop then s.stops ++ [.starting] else s.stops := hpc
  split at hpc
  · rw [mem_append, mem_singleton] at hpc
    cases hpc with
    | inl hold => exact hknows pc hold
    | inr hnew =>
      rw [hnew]
      trivial
  · exact hknows pc hpc

/-- Once a call of `stop()` has passed the lock, the fetch loop neither issues a fetch nor
    queues what one returned. -/
theorem afterFetch_draining (h : s.Draining) {act : FetchAct} {out : FetchTask.StepOut}
    (hstep : s.fetch.step s.cfg s.shared act = some out) : (s.afterFetch out).Draining := by
  cases FetchTask.step_stepped hstep with
  | claimed hidle hstopping =>
    refine ⟨fun pc hpc => (h.calls pc hpc).step id (fun ht => ht.grow rfl) fun hflag _ => ?_,
      h.dropped_grow rfl fun c => rfl⟩
    rw [hflag] at hstopping
    cases hstopping
  | queued hpc hnext =>
    refine ⟨fun pc hmem => (h.calls pc hmem).step (fun hflag => ?_) (fun ht => ht.grow rfl)
      fun _ hidle => ?_, h.dropped_grow rfl fun c => ?_⟩
    · exact (FetchTask.enqueue_stopping s.cfg s.shared _).trans hflag
    · rw [hpc] at hidle
      cases hidle
    · simp only [marks, tally_append, tally_map, tally_cons, tally_nil, Note.mark_metric_none,
        hit_none, Nat.add_zero]
      exact tally_eq_zero fun row _ => by simp [Note.mark]
  | other hshared hlocked hnext hnotes hdrawn horphan =>
    refine ⟨fun pc hpc => (h.calls pc hpc).step (fun hflag => hshared.stopping.trans hflag)
      (fun ht => ht.grow rfl) fun _ _ => ⟨hnext,
        Shared.settles_of_eq hshared.unfinished hshared.finishedSets⟩,
      h.dropped_grow rfl fun c => ?_⟩
    rw [hnotes]
    rfl

/-- The end of a drain cancels the tasks, and moves neither them nor the queue. -/
theorem afterDrain_fetch (call : Nat) (passedLock timedOut : Bool) :
    (s.afterDrain call passedLock timedOut).fetch.pc = s.fetch.pc := by
  obtain ⟨_, _, _, _, hfetch, hcancel⟩ := s.cancelTasks_eq
  simp only [afterDrain, hcancel, hfetch]

theorem afterDrain_timedOut (call : Nat) (passedLock : Bool) :
    (s.afterDrain call passedLock true).TimedOut :=
  ⟨_, mem_append.mpr (.inr mem_cons_self)⟩

theorem afterDrain_draining (h : s.Draining) {call : Nat} {passedLock timedOut : Bool}
    (hstopping : s.shared.stopping = true)
    (hclean : timedOut = false → passedLock = true ∧ FetchTask.fetching s.fetch.pc = false ∧
      s.shared.unfinished = 0) :
    (s.afterDrain call passedLock timedOut).Draining where
  calls := by
    refine knows_set (fun pc hpc => (h.calls pc hpc).step id (fun ht => ht.grow rfl)
      fun _ hidle => ⟨?_, Shared.settles_of_eq rfl rfl⟩) ⟨hstopping, fun ht => ?_, fun ht => ?_⟩
    · rw [afterDrain_fetch]
      exact hidle
    · subst ht
      exact afterDrain_timedOut call passedLock
    · rw [afterDrain_fetch]
      exact hclean ht
  dropped := h.dropped_grow rfl fun c => by
    cases timedOut <;> simp

theorem StopMoved.draining (hinv : s.Inv known) (h : s.Draining) {call : Nat}
    (hmoved : s.StopMoved call s') : s'.Draining := by
  have hmem : ∀ {pc}, s.stops[call]? = some pc → s.Knows pc := fun hpc =>
    h.calls _ (mem_of_getElem? hpc)
  have hidle : s.shared.claimLocked = false → FetchTask.fetching s.fetch.pc = false := by
    intro hlock
    cases hpc : s.fetch.pc with
    | fetching token free reply =>
      rw [hinv.locked.mpr ⟨token, free, reply, hpc⟩] at hlock
      cases hlock
    | _ => rfl
  cases hmoved with
  | begun hpc =>
    exact ⟨knows_set (fun pc hpc => (h.calls pc hpc).step (fun _ => rfl) id
      fun _ hidle => ⟨hidle, Shared.settles_of_eq rfl rfl⟩) rfl, h.dropped⟩
  | empty hpc hlock hzero =>
    exact afterDrain_draining h (hmem hpc) fun _ => ⟨rfl, hidle hlock, hzero⟩
  | waits hpc hlock _ =>
    exact ⟨knows_set h.calls ⟨hmem hpc, hidle hlock, Nat.le_refl _,
      fun hlt => absurd hlt (Nat.lt_irrefl _)⟩, h.dropped⟩
  | woken hpc hwoken =>
    obtain ⟨hflag, hquiet, _, hzero⟩ := hmem hpc
    exact afterDrain_draining h hflag fun _ => ⟨rfl, hquiet, hzero hwoken⟩
  | @returned passedLock timedOut hpc _ =>
    obtain ⟨_, hout, hclean⟩ := hmem hpc
    refine ⟨knows_set (fun pc hpc => (h.calls pc hpc).step id (fun ht => ht.grow rfl)
      fun _ hidle => ⟨hidle, ?_⟩) trivial, fun c hc => ?_⟩
    · exact ⟨Nat.zero_le _, Nat.le_refl _, fun _ => rfl⟩
    · -- what is dropped was left by a drain that timed out
      cases timedOut with
      | true => exact (hout rfl).grow rfl
      | false =>
        have hzero := (hclean rfl).2.2
        rw [hinv.unfinished_eq] at hzero
        have hempty : s.shared.inflight = [] := eq_nil_of_length_eq_zero (by
          unfold queued at hzero
          omega)
        have hlog : s.log ++ s.shared.inflight.map (fun m => Note.discarded m.key) = s.log := by
          rw [hempty, map_nil, append_nil]
        exact (h.dropped c (hlog ▸ hc)).grow rfl

/-- **Every step of a subscriber keeps what its calls of `stop()` know.** -/
theorem step_draining (hinv : s.Inv known) (h : s.Draining) {act : SubscriberAct}
    {orphan : Option Stmt} (hstep : s.step act = some (s', orphan)) : s'.Draining := by
  cases step_stepped hstep with
  | started _ hover =>
    refine ⟨fun pc hpc => ?_, h.dropped⟩
    -- every call of `stop()` is over
    have hover := hover pc hpc
    cases pc <;> trivial
  | stopCalled =>
    refine ⟨fun pc hpc => ?_, h.dropped⟩
    have hpc : pc ∈ s.stops ++ [.locking] := hpc
    rw [mem_append, mem_singleton] at hpc
    cases hpc with
    | inl hold =>
      exact (h.calls pc hold).step (fun _ => rfl) id fun _ hidle =>
        ⟨hidle, Shared.settles_of_eq rfl rfl⟩
    | inr hnew =>
      rw [hnew]
      exact rfl
  | stopRan hmoved => exact hmoved.draining hinv h
  | lockTimedOut hpc =>
    have hflag : s.shared.stopping = true := h.calls _ (mem_of_getElem? hpc)
    exact afterDrain_draining h hflag fun ht => by cases ht
  | @joinTimedOut call seen hpc =>
    have hknows : s.Knows (.joining seen) := h.calls _ (mem_of_getElem? hpc)
    exact afterDrain_draining h hknows.1 fun ht => by cases ht
  | drainAborted _ => exact ⟨knows_set h.calls trivial, h.dropped⟩
  | gatherAborted _ =>
    obtain ⟨_, _, _, _, hfetch, hcancel⟩ := s.cancelTasks_eq
    rw [hcancel]
    refine ⟨knows_set (fun pc hpc => (h.calls pc hpc).step id id fun _ hidle =>
      ⟨?_, Shared.settles_of_eq rfl rfl⟩) trivial, h.dropped⟩
    show FetchTask.fetching _ = false
    rw [hfetch]
    exact hidle
  | notified =>
    exact ⟨fun pc hpc => (h.calls pc hpc).step id (fun ht => ht.grow rfl) fun _ hidle =>
      ⟨hidle, Shared.settles_of_eq rfl rfl⟩, h.dropped_grow rfl fun c => by simp [Note.mark]⟩
  | ignored => exact h
  | client _ =>
    exact ⟨fun pc hpc => (h.calls pc hpc).step id id fun _ hidle =>
      ⟨hidle, Shared.settles_of_eq rfl rfl⟩, h.dropped⟩
  | worker hw hout => exact afterWorker_draining hinv h hw hout
  | fetch hout => exact afterFetch_draining h hout

/-! ## The promises of a drain -/

/-- The drain of the call ends without a timeout: its `join()` returns. -/
def Drained (s : Subscriber) (call : Nat) (s' : Subscriber) : Prop :=
  s.stopRun call = some s' ∧ ∃ passedLock, s'.stops[call]? = some (.gathering passedLock false)

/-- What holds of the drains at one point of a run. -/
structure DrainBarrier (s : Subscriber) : Prop where
  unfinished : s.shared.unfinished = s.queued + s.dispatching + s.buffered
  /-- `task_done` was never called too often, and `put_nowait` always found room. -/
  fault : s.shared.fault = false
  /-- `join()` returns only when nothing is queued, dispatched or buffered. -/
  join : ∀ call s', s.Drained call s' → s.queued = 0 ∧ s.dispatching = 0 ∧ s.buffered = 0
  /-- Every claim has then finished `dispatch_one`, and its batched delete is issued if it was
      buffered, unless an earlier drain that timed out had left it to be dropped. -/
  finished : ∀ call s', s.Drained call s' → ∀ c, 0 < marks .returned c s.log →
    marks .ended c s.log = 1 ∨
    marks .buffered c s.log = 1 ∧ marks .batchIssued c s.log = 1 ∨
    marks .discarded c s.log = 1 ∧ s.TimedOut
  /-- A call whose drain did not time out drops nothing. -/
  drops : ∀ (call : Nat) passedLock, s.stops[call]? = some (.gathering passedLock false) →
    s.queued = 0
  /-- `stop()` returns when all tasks are done, and leaves an empty queue. -/
  returned : ∀ call s' passedLock timedOut, s.stopRun call = some s' →
    s'.stops[call]? = some (.returned passedLock timedOut) →
      s.tasksDone = true ∧ s'.tasksDone = true ∧ s'.queued = 0 ∧ s'.shared.unfinished = 0

/-- Where a call of `stop()` can run on to. -/
inductive StopRan (s : Subscriber) (call : Nat) (s' : Subscriber) : Prop where
  | begun (hpc : s.stops[call]? = some .starting) (hnext : s'.stops[call]? = some .locking)
  | waits {seen : Nat} (hpc : s.stops[call]? = some .locking)
      (hnext : s'.stops[call]? = some (.joining seen))
  /-- The lock is free, and there is nothing to join. -/
  | empty (hpc : s.stops[call]? = some .locking) (hzero : s.shared.unfinished = 0)
      (hnext : s'.stops[call]? = some (.gathering true false))
  /-- The join was woken. -/
  | woken {seen : Nat} (hpc : s.stops[call]? = some (.joining seen))
      (hwoken : seen < s.shared.finishedSets)
      (hnext : s'.stops[call]? = some (.gathering true false))
  | returned {passedLock timedOut : Bool}
      (hpc : s.stops[call]? = some (.gathering passedLock timedOut)) (hdone : s.tasksDone = true)
      (hdone' : s'.tasksDone = true) (hqueued : s'.queued = 0)
      (hzero : s'.shared.unfinished = 0)
      (hnext : s'.stops[call]? = some (.returned passedLock timedOut))

theorem stopRun_ran {call : Nat} (hrun : s.stopRun call = some s') : StopRan s call s' := by
  have hset : ∀ {pc} pc', s.stops[call]? = some pc → (s.stops.set call pc')[call]? = some pc' := by
    intro pc pc' hpc
    have hlt : call < s.stops.length := (List.getElem?_eq_some_iff.mp hpc).1
    exact getElem?_set_self hlt
  cases stopRun_moved hrun with
  | begun hpc => exact .begun hpc (hset _ hpc)
  | empty hpc _ hzero => exact .empty hpc hzero (hset _ hpc)
  | waits hpc _ _ => exact .waits hpc (hset _ hpc)
  | woken hpc hwoken => exact .woken hpc hwoken (hset _ hpc)
  | returned hpc hdone =>
    -- no worker is left, and the fetch loop has ended
    have hparts := hdone
    unfold tasksDone at hparts
    exact .returned hpc hdone ((Bool.and_eq_true _ _).mp hparts).2 rfl rfl (hset _ hpc)

/-- When a `join()` returns, nothing is unfinished. -/
theorem Drained.unfinished (h : s.Draining) {call : Nat} (hdrained : s.Drained call s') :
    s.shared.unfinished = 0 := by
  obtain ⟨hrun, passedLock, hnext⟩ := hdrained
  cases stopRun_ran hrun with
  | begun _ hnext' => rw [hnext'] at hnext; cases hnext
  | waits _ hnext' => rw [hnext'] at hnext; cases hnext
  | empty _ hzero _ => exact hzero
  | woken hpc hwoken _ =>
    obtain ⟨_, _, _, hzero⟩ : s.Knows (.joining _) := h.calls _ (mem_of_getElem? hpc)
    exact hzero hwoken
  | returned _ _ _ _ _ hnext' => rw [hnext'] at hnext; cases hnext

/-- With nothing unfinished, every claim is finished, issued or dropped. -/
theorem Inv.finished_of_zero (hinv : s.Inv known) (h : s.Draining)
    (hzero : s.shared.unfinished = 0) {c : ClaimKey} (hc : 0 < marks .returned c s.log) :
    marks .ended c s.log = 1 ∨
    marks .buffered c s.log = 1 ∧ marks .batchIssued c s.log = 1 ∨
    marks .discarded c s.log = 1 ∧ s.TimedOut := by
  have honce := hinv.once c
  have hbalance := hinv.books.balance c
  have hcount := hinv.books.unfinished
  have hreturned := hbalance.returned
  have hbuffered := hbalance.buffered
  simp only [Ledger.frame, Hold.size, length_nil] at hcount
  have hcount : s.shared.unfinished = s.shared.inflight.length + 0 + 0 +
      (s.workers.map fun w => w.pc.hold.size + w.buffer.length).sum := hcount
  -- no worker holds or buffers a claim
  have hshares : ∀ w ∈ s.workers, w.pc.hold.size + w.buffer.length = 0 := fun w hw => by
    obtain ⟨i, hi⟩ := mem_iff_getElem?.mp hw
    have hle := le_sum_map (fun w : Worker => w.pc.hold.size + w.buffer.length) hi
    omega
  have hheld : (s.ledger s.workers).held c = 0 := sum_map_eq_zero _ fun w hw => by
    have hsize := hshares w hw
    cases hhold : w.pc.hold <;> simp [hhold] at hsize ⊢
  have hunissued : (s.ledger s.workers).unissued c = 0 := sum_map_eq_zero _ fun w hw => by
    have hsize := hshares w hw
    have hnil : w.buffer = [] := eq_nil_of_length_eq_zero (by omega)
    rw [hnil]
    cases w.pc.hold <;> rfl
  have hinflight : s.shared.inflight = [] := eq_nil_of_length_eq_zero (by omega)
  rw [hheld] at hreturned
  rw [hunissued] at hbuffered
  simp [ledger, Ledger.frame, hinflight] at hreturned hbuffered
  by_cases hdropped : 0 < marks .discarded c s.log
  · exact .inr (.inr ⟨by omega, h.dropped c hdropped⟩)
  · by_cases hended : 0 < marks .ended c s.log
    · exact .inl (by omega)
    · exact .inr (.inl ⟨by omega, by omega⟩)

/-- What the calls know makes the drains barriers. -/
theorem Inv.drainBarrier (hinv : s.Inv known) (h : s.Draining) : s.DrainBarrier where
  unfinished := hinv.unfinished_eq
  fault := hinv.books.fault
  join call s' hdrained := by
    have hzero := hdrained.unfinished h
    rw [hinv.unfinished_eq] at hzero
    omega
  finished call s' hdrained c hc := hinv.finished_of_zero h (hdrained.unfinished h) hc
  drops call passedLock hpc := by
    obtain ⟨_, _, hclean⟩ : s.Knows (.gathering passedLock false) :=
      h.calls _ (mem_of_getElem? hpc)
    have hzero := (hclean rfl).2.2
    rw [hinv.unfinished_eq] at hzero
    omega
  returned call s' passedLock timedOut hrun hnext := by
    cases stopRun_ran hrun with
    | begun _ hnext' => rw [hnext'] at hnext; cases hnext
    | waits _ hnext' => rw [hnext'] at hnext; cases hnext
    | empty _ _ hnext' => rw [hnext'] at hnext; cases hnext
    | woken _ _ hnext' => rw [hnext'] at hnext; cases hnext
    | returned _ hdone hdone' hqueued hzero _ => exact ⟨hdone, hdone', hqueued, hzero⟩

/-! ## No fetch after the lock -/

/-- While the flag is up, a step other than `start` keeps it up and issues no fetch. -/
theorem step_no_fetch (hinv : s.Inv known) (hflag : s.shared.stopping = true)
    {act : SubscriberAct} {orphan : Option Stmt} (hstep : s.step act = some (s', orphan))
    (hact : act ≠ .start) : s'.shared.stopping = true ∧ s'.fetches = s.fetches := by
  have hquiet : ∀ (t : Subscriber) (notes : List Note), t.log = s.log ++ notes →
      (∀ n ∈ notes, n ≠ .fetchIssued) → t.fetches = s.fetches := by
    intro t notes hlog hnotes
    unfold fetches
    rw [hlog, countP_append]
    have hzero : notes.countP (fun n => match n with | .fetchIssued => true | _ => false) = 0 :=
      countP_eq_zero.mpr fun n hn => by
        cases n <;> first | (exact absurd rfl (hnotes _ hn)) | simp
    omega
  -- a step that writes no note, and the end of a drain, which writes no fetch
  have hsame : ∀ {t : Subscriber}, t.log = s.log → t.fetches = s.fetches := fun hlog =>
    hquiet _ [] (by rw [hlog, append_nil]) fun n hn => by cases hn
  have hdrain : ∀ call passedLock timedOut,
      (s.afterDrain call passedLock timedOut).fetches = s.fetches := fun call passedLock timedOut =>
    hquiet _ _ rfl fun n hn => by
      split at hn
      · rw [mem_singleton.mp hn]
        simp
      · cases hn
  cases step_stepped hstep with
  | started _ _ => exact absurd rfl hact
  | stopCalled => exact ⟨rfl, rfl⟩
  | stopRan hmoved =>
    cases hmoved with
    | begun _ => exact ⟨rfl, rfl⟩
    | empty _ _ _ => exact ⟨hflag, hdrain _ _ _⟩
    | waits _ _ _ => exact ⟨hflag, rfl⟩
    | woken _ _ => exact ⟨hflag, hdrain _ _ _⟩
    | returned _ _ =>
      refine ⟨hflag, hquiet _ _ rfl fun n hn => ?_⟩
      obtain ⟨m, _, rfl⟩ := mem_map.mp hn
      simp
  | lockTimedOut _ => exact ⟨hflag, hdrain _ _ _⟩
  | joinTimedOut _ => exact ⟨hflag, hdrain _ _ _⟩
  | notified =>
    refine ⟨hflag, hquiet _ _ rfl fun n hn => ?_⟩
    rw [mem_singleton.mp hn]
    simp
  | worker hw hout =>
    -- the notes of a worker are its own, and a fetch is not among them
    obtain ⟨_, hadvances, _, hown⟩ := afterWorker_inv hinv hw hout
    refine ⟨hadvances.stopping.trans hflag, hquiet _ _ rfl fun n hn heq => ?_⟩
    rw [heq] at hn
    cases hown _ hn
  | @fetch _ out hout =>
    cases FetchTask.step_stepped hout with
    -- the only step that issues a fetch reads `_stopping` first, under the lock
    | claimed _ hstopping =>
      rw [hflag] at hstopping
      cases hstopping
    | queued _ _ =>
      refine ⟨(FetchTask.enqueue_stopping _ _ _).trans hflag, hquiet _ _ rfl fun n hn heq => ?_⟩
      rw [heq, mem_append, mem_singleton] at hn
      cases hn with
      | inl hn =>
        obtain ⟨m, _, hm⟩ := mem_map.mp hn
        cases hm
      | inr hn => cases hn
    | other hshared _ _ hnotes _ _ =>
      refine ⟨hshared.stopping.trans hflag, hsame ?_⟩
      show s.log ++ out.notes = s.log
      rw [hnotes, append_nil]
  | _ => exact ⟨hflag, rfl⟩

end Subscriber

/-! ## The claim -/

/-- The call has passed the claim lock, and its tasks are not gathered yet. -/
def StopPc.passedLock : StopPc → Bool
  | .joining _ => true
  | .gathering passedLock _ => passedLock
  | _ => false

namespace System

variable {b : Backend} {s s' : System}

/-- In every run, the calls of `stop()` know what their awaits say. -/
theorem run_draining (b : Backend) (start : Int) (cfgs : List SubscriberConfig) (acts : List Act)
    (index : Nat) (sub : Subscriber)
    (hsub : ((init start cfgs).run b acts).subscribers[index]? = some sub) : sub.Draining := by
  refine run_subscribers (P := Subscriber.Draining) (fun cfg _ => Subscriber.init_draining cfg) acts
    ?_ ?_ ?_ index sub hsub
  · intro s s' known _ act orphan _ hinv hdraining hstep
    exact Subscriber.step_draining hinv hdraining hstep
  · intro s i w reply hdraining hw
    exact ⟨hdraining.calls, hdraining.dropped⟩
  · intro s reply hdraining
    refine ⟨fun pc hpc => (hdraining.calls pc hpc).step id id fun _ hidle =>
      ⟨?_, Shared.settles_of_eq rfl rfl⟩, hdraining.dropped⟩
    exact FetchTask.deliver_idle hidle reply

theorem run_append (b : Backend) (s : System) (pre post : List Act) :
    s.run b (pre ++ post) = (s.run b pre).run b post := foldl_append

/-- From a point where the flag is up, a run without a `start` issues no fetch. -/
theorem run_no_fetch (hinv : s.Inv b) {index : Nat} {sub sub' : Subscriber}
    (hsub : s.subscribers[index]? = some sub) (hflag : sub.shared.stopping = true)
    (acts : List Act) (hacts : ∀ act ∈ acts, act ≠ .subscriber index .start)
    (hsub' : (s.run b acts).subscribers[index]? = some sub') : sub'.fetches = sub.fetches := by
  have hrun := run_induction (P := fun t => t.Inv b ∧ ∀ t' : Subscriber,
    t.subscribers[index]? = some t' → t'.shared.stopping = true ∧ t'.fetches = sub.fetches)
    (b := b) (s := s) ⟨hinv, fun t' ht' => ?_⟩ acts ?_
  · exact (hrun.2 sub' hsub').2
  · rw [hsub] at ht'
    cases ht'
    exact ⟨hflag, rfl⟩
  · intro t act hact t₁ ⟨htinv, ht⟩ hstep
    refine ⟨step_inv htinv hstep, fun sub₁ hsub₁ => ?_⟩
    obtain ⟨sub₀, hsub₀, hmoved⟩ := step_moved hstep hsub₁
    obtain ⟨hflag₀, hfetches₀⟩ := ht sub₀ hsub₀
    cases hmoved with
    | idle => exact ⟨hflag₀, hfetches₀⟩
    | stepped hsubstep =>
      obtain ⟨hflag₁, hfetches₁⟩ := Subscriber.step_no_fetch (htinv.subscribers index sub₀ hsub₀)
        hflag₀ hsubstep fun heq => hacts _ hact (heq ▸ rfl)
      exact ⟨hflag₁, hfetches₁.trans hfetches₀⟩
    | worker hw reply => exact ⟨hflag₀, hfetches₀⟩
    | fetch reply => exact ⟨hflag₀, hfetches₀⟩

end System

/-- **The drain is a barrier**, at every point of every run: the unfinished count is exact,
    a drain that does not time out leaves nothing unfinished and drops nothing, `stop()`
    returns with all tasks done and an empty queue; and once a call of `stop()` has passed the
    claim lock, no fetch is issued before the next `start`. -/
theorem drain_barrier (b : Backend) (start : Int) (cfgs : List SubscriberConfig)
    (acts : List Act) (index : Nat) (sub : Subscriber)
    (hsub : ((System.init start cfgs).run b acts).subscribers[index]? = some sub) :
    sub.DrainBarrier ∧
    ((∃ call ∈ sub.stops, call.passedLock = true) →
      ∀ post : List Act, (∀ act ∈ post, act ≠ .subscriber index .start) →
        ∀ sub' : Subscriber,
          ((System.init start cfgs).run b (acts ++ post)).subscribers[index]? = some sub' →
            sub'.fetches = sub.fetches) := by
  have hinv := System.run_inv b start cfgs acts
  have hdraining := System.run_draining b start cfgs acts index sub hsub
  refine ⟨(hinv.subscribers index sub hsub).drainBarrier hdraining, ?_⟩
  intro ⟨call, hcall, hpassed⟩ post hpost sub' hsub'
  -- a call that has passed the lock knows that the flag is up
  have hflag : sub.shared.stopping = true := by
    have hknows := hdraining.calls call hcall
    cases call with
    | joining seen => exact hknows.1
    | gathering passedLock timedOut => exact hknows.1
    | _ => cases hpassed
  rw [System.run_append] at hsub'
  exact System.run_no_fetch hinv hsub hflag post hpost hsub'

/-- The handler runs, `stop()` drains, and the worker finishes its row. -/
def drainActs : List Act :=
  consumingActs ++ [.subscriber 0 .stop, .subscriber 0 (.stopRun 0)]

/-- ... until the join returns. -/
def finishActs : List Act :=
  [.subscriber 0 (.worker 0 (.consumed .returned [.ack {}] false {})),
    .applyWorker 0 0,
    .subscriber 0 (.worker 0 (.replied {})),
    .subscriber 0 (.fetch (.claim 8)),
    .subscriber 0 (.stopRun 0)]

theorem drain_barrier_finishedRun : ∃ sub sub' : Subscriber,
    ((System.init 0 [plainConfig]).run .postgres drainActs).subscribers[0]? = some sub ∧
    ((System.init 0 [plainConfig]).run .postgres (drainActs ++ finishActs)).subscribers[0]? =
      some sub' ∧
    sub.stops = [.joining 0] ∧ sub'.stops = [.gathering true false] ∧
    sub.DrainBarrier ∧ sub'.fetches = sub.fetches := by
  have hstops : ((System.init 0 [plainConfig]).run .postgres drainActs).subscribers.map
      Subscriber.stops = [[.joining 0]] := by decide
  have hstops' : ((System.init 0 [plainConfig]).run .postgres
      (drainActs ++ finishActs)).subscribers.map Subscriber.stops = [[.gathering true false]] := by
    decide
  obtain ⟨sub, rest, hsubs, hsub, _⟩ := map_eq_cons_iff.mp hstops
  obtain ⟨sub', rest', hsubs', hsub', _⟩ := map_eq_cons_iff.mp hstops'
  have hget : ((System.init 0 [plainConfig]).run .postgres drainActs).subscribers[0]? =
      some sub := by rw [hsubs]; rfl
  have hget' : ((System.init 0 [plainConfig]).run .postgres
      (drainActs ++ finishActs)).subscribers[0]? = some sub' := by rw [hsubs']; rfl
  obtain ⟨hbarrier, hfetches⟩ := drain_barrier .postgres 0 [plainConfig] drainActs 0 sub hget
  exact ⟨sub, sub', hget, hget', hsub, hsub', hbarrier,
    hfetches ⟨.joining 0, hsub ▸ mem_cons_self, rfl⟩ finishActs (by decide) sub' hget'⟩

/-- A first `stop()` finds its worker still connecting: its drain times out, and the row it
    had claimed is dropped. A second `stop()` has nothing to wait for. -/
def droppedActs : List Act :=
  [.external (.insert 0 { queue := "orders", payload := [1] }),
    .subscriber 0 .start,
    .subscriber 0 (.fetch .run),
    .subscriber 0 (.fetch .opened)] ++ fetchActs 7 ++
  [.subscriber 0 (.worker 0 .run),
    .subscriber 0 .stop,
    .subscriber 0 (.stopRun 0),
    .subscriber 0 (.stopTimeout 0),
    .subscriber 0 (.worker 0 .cancel),
    .subscriber 0 (.fetch .cancel),
    .subscriber 0 (.fetch .finished),
    .subscriber 0 (.stopRun 0),
    .subscriber 0 .stop]

/-- **A drain that does not time out may find a claim that was never dispatched.** -/
theorem drain_not_barrier :
    ¬ ∀ (b : Backend) (start : Int) (cfgs : List SubscriberConfig) (acts : List Act),
      ∀ sub ∈ ((System.init start cfgs).run b acts).subscribers, ∀ call sub',
        sub.Drained call sub' → ∀ c, 0 < marks .returned c sub.log →
          marks .ended c sub.log = 1 ∨
          marks .buffered c sub.log = 1 ∧ marks .batchIssued c sub.log = 1 := by
  intro hclaim
  have hrun : ((System.init 0 [plainConfig]).run .postgres droppedActs).subscribers.map
      (fun sub => (marks .returned (1, some 7) sub.log, marks .ended (1, some 7) sub.log,
        marks .buffered (1, some 7) sub.log, (sub.stopRun 1).map Subscriber.stops)) =
      [(1, 0, 0, some [.returned true true, .gathering true false])] := by decide
  obtain ⟨sub, rest, hsubs, hsub, _⟩ := map_eq_cons_iff.mp hrun
  obtain ⟨hreturned, hrest⟩ := Prod.mk.inj hsub
  obtain ⟨hended, hrest⟩ := Prod.mk.inj hrest
  obtain ⟨hbuffered, hstops⟩ := Prod.mk.inj hrest
  obtain ⟨sub', hdrain, hnext⟩ := Option.map_eq_some_iff.mp hstops
  have hfinished := hclaim .postgres 0 [plainConfig] droppedActs sub (hsubs ▸ mem_cons_self) 1 sub'
    ⟨hdrain, true, by rw [hnext]; rfl⟩ (1, some 7) (by omega)
  omega

end Outbox
