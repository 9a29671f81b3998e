import Outbox.Spec.SystemInv

/-!
# Tasks keep running

What leads a task to its end is `CancelledError`, and nothing but `stop()` requests a
cancellation. A worker or a fetch loop therefore ends in one way only while the subscriber
runs: at the head of its reconnect loop, where it finds that it should. An exception of a
client call, of opening or closing a connection, or out of a handler leads back there.

`CancelledError` can also come out of a handler whose worker nobody has cancelled, and then
nothing catches it.

## Key results

- `Worker.step_going`, `FetchTask.step_going`: what a step needs to end a task
- `tasks_keep_running`: no step of a run without stray cancellations ends a task early
- `task_ends_early`: one stray cancellation does
-/

namespace Outbox

open List

/-! ## The way out -/

/-- A worker that has ended, or is about to end by `CancelledError`. -/
def WorkerPc.ending : WorkerPc → Bool
  | .done | .closing .cancelled | .flushing (.exit .cancelled) _ => true
  | _ => false

/-- A worker that has ended. -/
def WorkerPc.ended : WorkerPc → Bool
  | .done => true
  | _ => false

/-- A fetch loop that has ended, or is about to end by `CancelledError`. -/
def FetchPc.ending : FetchPc → Bool
  | .done | .closing .cancelled => true
  | _ => false

/-- A fetch loop that has ended. -/
def FetchPc.ended : FetchPc → Bool
  | .done => true
  | _ => false

/-! ## Workers -/

namespace Worker

variable {cfg : SubscriberConfig} {f : Frame}

theorem afterClose_going {why : Exit} (hwhy : why ≠ .cancelled) :
    (afterClose why).ending = false := by
  cases why <;> first | rfl | exact absurd rfl hwhy

theorem leave_going {why : Exit} (hwhy : why ≠ .cancelled) :
    (leave cfg f why).2.ending = false := by
  unfold leave
  dsimp only
  split
  · cases why <;> first | rfl | exact absurd rfl hwhy
  · exact afterClose_going hwhy

theorem flushBuffer_going {next : AfterFlush} (hnext : next ≠ .exit .cancelled) :
    (flushBuffer cfg f next).2.ending = false := by
  unfold flushBuffer
  split
  · cases next with
    | exit why => exact leave_going fun hwhy => hnext (hwhy ▸ rfl)
    | _ => rfl
  · cases next with
    | exit why => cases why <;> first | rfl | exact absurd rfl hnext
    | _ => rfl

theorem unwind_going {why : Exit} (hwhy : why ≠ .cancelled) :
    (unwind cfg f why).2.ending = false :=
  flushBuffer_going fun heq => hwhy (AfterFlush.exit.inj heq)

theorem flushed_going {deleted : Finset (Nat × UUID)} {next : AfterFlush}
    (hnext : next ≠ .exit .cancelled) : (flushed cfg f deleted next).2.ending = false := by
  unfold flushed
  cases next with
  | exit why => exact leave_going fun hwhy => hnext (hwhy ▸ rfl)
  | _ => rfl

theorem flushRaised_going {next : AfterFlush} (hnext : next ≠ .exit .cancelled) :
    (flushRaised cfg f next .error).2.ending = false := by
  unfold flushRaised
  dsimp only
  split
  · exact leave_going fun hwhy => hnext (hwhy ▸ rfl)
  · exact unwind_going (by simp)

theorem afterDispatch_going (r : Reading) (m : OutboxInnerMessage) (buffered : Bool) :
    (afterDispatch cfg r f m buffered).2.ending = false := by
  have hdue : ∀ (g : Frame) (due : Bool),
      (if due then flushBuffer cfg g .loop else (g, .loop)).2.ending = false := by
    intro g due
    split
    · exact flushBuffer_going (by simp)
    · rfl
  unfold afterDispatch
  exact hdue _ _

theorem dispatchRaised_going (m : OutboxInnerMessage) {why : Exit} (hwhy : why ≠ .cancelled) :
    (dispatchRaised cfg f m why).2.ending = false := unwind_going hwhy

theorem writeRaised_going (r : Reading) (m : OutboxInnerMessage) :
    (writeRaised cfg r f m).2.ending = false := by
  unfold writeRaised
  dsimp only
  split
  · exact dispatchRaised_going m (by simp)
  · exact afterDispatch_going r m false

theorem flushOrBuffer_going (r : Reading) (m : OutboxInnerMessage) (event : Event) (tags : Tags)
    (useBuffer : Bool) : (flushOrBuffer cfg r f m event tags useBuffer).2.ending = false := by
  unfold flushOrBuffer
  split
  · exact afterDispatch_going r m true
  · split
    · exact afterDispatch_going r m false
    · split
      · exact writeRaised_going r m
      · rfl

theorem writeOutcome_going (r : Reading) (m : OutboxInnerMessage) (useBuffer : Bool) :
    (writeOutcome cfg r f m useBuffer).2.ending = false := by
  unfold writeOutcome
  split
  · exact afterDispatch_going r m false
  · dsimp only
    split
    · exact flushOrBuffer_going r _ _ _ useBuffer
    · split
      · exact afterDispatch_going r _ false
      · rfl
    · exact flushOrBuffer_going r _ _ _ useBuffer

theorem dispatchOne_going (r : Reading) (m : OutboxInnerMessage) :
    (dispatchOne cfg r f m).2.ending = false := by
  unfold dispatchOne
  dsimp only
  split
  · exact flushOrBuffer_going r _ _ _ true
  · split
    · rfl
    · exact writeOutcome_going r _ true

theorem handle_going (r : Reading) (generation : Nat) (m : OutboxInnerMessage) :
    (handle cfg r generation f m).2.ending = false := by
  unfold handle
  split
  · exact flushBuffer_going (by simp)
  · exact dispatchOne_going r m

/-- Every result of a handler but `CancelledError` leads on. -/
theorem consumeEnded_going {how : ConsumeEnd} (hhow : how ≠ .cancelledError)
    (acts : List HandlerAct) (r : Reading) (m : OutboxInnerMessage) (startPerf : Int) :
    (consumeEnded cfg how acts r f m startPerf).2.ending = false := by
  unfold consumeEnded
  dsimp only
  split
  · exact writeOutcome_going r _ true
  · exact writeOutcome_going r _ true
  · exact writeOutcome_going r _ false
  · exact afterDispatch_going r _ false
  · exact absurd rfl hhow

theorem writeReplied_going {r : Reading} {m : OutboxInnerMessage} {kind : WriteKind}
    {reply : Reply} {out : Frame × WorkerPc} (h : writeReplied cfg r f m kind reply = some out) :
    out.2.ending = false := by
  unfold writeReplied at h
  split at h
  · obtain rfl := Option.some_inj.mp h
    exact afterDispatch_going r m false
  · obtain rfl := Option.some_inj.mp h
    exact afterDispatch_going r m false
  · obtain rfl := Option.some_inj.mp h
    exact writeRaised_going r m
  · obtain rfl := Option.some_inj.mp h
    exact afterDispatch_going r m false
  · obtain rfl := Option.some_inj.mp h
    exact afterDispatch_going r m false
  · cases h

/-- The act raises a `CancelledError` out of a handler whose worker nobody has cancelled. -/
def strays (w : Worker) (act : WorkerAct) : Bool :=
  match act, w.pc with
  | .consumed .cancelledError _ _ _, .consuming _ _ => !w.cancelled
  | _, _ => false

/-- **What a step needs to end a worker**: it finds at the head of its reconnect loop that it
    should not run, or it was cancelled, or a cancellation strays. -/
theorem step_going {sh : Shared} {w : Worker} {act : WorkerAct} {out : StepOut}
    (h : step cfg sh w act = some out) (hpc : w.pc.ending = false)
    (hcancelled : w.cancelled = false)
    (hstray : w.strays act = false) :
    out.cancelled = false ∧ (out.pc.ending = false ∨
      out.pc = .done ∧ (sh.running = false ∨ sh.clientGone = true)) := by
  cases step_stepped h with
  | ends _ hover => exact ⟨hcancelled, .inr ⟨rfl, hover⟩⟩
  | stops _ _ => exact ⟨hcancelled, .inl (unwind_going (by simp))⟩
  | idles _ _ => exact ⟨hcancelled, .inl (flushBuffer_going (by simp))⟩
  | took _ _ | awaited _ _ => exact ⟨hcancelled, .inl (handle_going _ _ _)⟩
  | @consumed how _ _ _ _ _ hconsuming =>
    have hhow : how ≠ .cancelledError := by
      rintro rfl
      simp [strays, hconsuming, hcancelled] at hstray
    exact ⟨by simp [hcancelled], .inl (consumeEnded_going hhow _ _ _ _)⟩
  | wrote _ hnext => exact ⟨hcancelled, .inl (writeReplied_going hnext)⟩
  | writeFailed _ => exact ⟨hcancelled, .inl (writeRaised_going _ _)⟩
  | deleted hflushing =>
    refine ⟨hcancelled, .inl (flushed_going ?_)⟩
    rintro rfl
    rw [hflushing] at hpc
    cases hpc
  | flushFailed hflushing =>
    refine ⟨hcancelled, .inl (flushRaised_going ?_)⟩
    rintro rfl
    rw [hflushing] at hpc
    cases hpc
  | invalidated _ | invalidateFailed _ => exact ⟨hcancelled, .inl (unwind_going (by simp))⟩
  | closed hclosing =>
    refine ⟨hcancelled, .inl (afterClose_going ?_)⟩
    rintro rfl
    rw [hclosing] at hpc
    cases hpc
  | cancelled _ _ hrequested =>
    -- no cancellation was requested
    rw [hcancelled] at hrequested
    cases hrequested
  | _ => exact ⟨hcancelled, .inl rfl⟩

/-- A reply does not end a worker. -/
theorem deliver_pc (w : Worker) (reply : Reply) :
    (w.deliver reply).pc.ending = w.pc.ending ∧ (w.deliver reply).pc.ended = w.pc.ended ∧
    (w.deliver reply).cancelled = w.cancelled := by
  unfold deliver
  split
  · rename_i hpc
    rw [hpc]
    exact ⟨rfl, rfl, rfl⟩
  · rename_i next reply' hpc
    rw [hpc]
    refine ⟨?_, rfl, rfl⟩
    cases next with
    | exit why => cases why <;> rfl
    | _ => rfl
  · exact ⟨rfl, rfl, rfl⟩

end Worker

/-! ## The fetch loop -/

namespace FetchTask

variable {cfg : SubscriberConfig} {sh : Shared}

theorem afterClose_going {why : Exit} (hwhy : why ≠ .cancelled) :
    (afterClose sh why).2.ending = false := by
  cases why <;> first | rfl | exact absurd rfl hwhy

theorem leave_going {why : Exit} (hwhy : why ≠ .cancelled) :
    (leave cfg sh why).2.ending = false := by
  unfold leave
  split
  · cases why <;> first | rfl | exact absurd rfl hwhy
  · exact afterClose_going hwhy

/-- **What a step needs to end the fetch loop**: it finds at the head of its reconnect loop
    that it should not run, or it was cancelled. -/
theorem step_going {t : FetchTask} {act : FetchAct} {out : StepOut}
    (h : step cfg sh t act = some out) (hpc : t.pc.ending = false)
    (hcancelled : t.cancelled = false) :
    out.cancelled = false ∧ (out.pc.ending = false ∨
      out.pc = .done ∧ (sh.running = false ∨ sh.stopping = true ∨ sh.clientGone = true)) := by
  cases step_moved h with
  | enters _ =>
    refine ⟨hcancelled, .inl ?_⟩
    show FetchPc.ending (if cfg.engine then .opening else .inner) = false
    split <;> rfl
  | ends _ hover => exact ⟨hcancelled, .inr ⟨rfl, hover⟩⟩
  | openFailed _ | closeFailed _ => exact ⟨hcancelled, .inl (afterClose_going (by simp))⟩
  | stops _ | drains _ | probeFailed _ | fetchFailed _ =>
    exact ⟨hcancelled, .inl (leave_going (by simp))⟩
  | replied _ =>
    refine ⟨hcancelled, .inl ?_⟩
    dsimp only
    split <;> rfl
  | closed hclosing =>
    -- a close for a cancellation does not come up while the loop goes on
    refine ⟨hcancelled, .inl (afterClose_going fun hwhy => ?_)⟩
    rw [hclosing, hwhy] at hpc
    cases hpc
  | cancelledInside _ hrequested | cancelledFetch _ hrequested | cancelledOutside _ hrequested =>
    rw [hcancelled] at hrequested
    cases hrequested
  | opened _ | waits _ _ | probes _ | claims _ _ | woke _ | retries _ =>
    exact ⟨hcancelled, .inl rfl⟩

/-- A reply does not end the fetch loop. -/
theorem deliver_pc (t : FetchTask) (reply : Reply) :
    (t.deliver reply).pc.ending = t.pc.ending ∧ (t.deliver reply).pc.ended = t.pc.ended ∧
    (t.deliver reply).cancelled = t.cancelled := by
  unfold deliver
  split
  · rename_i hpc
    rw [hpc]
    exact ⟨rfl, rfl, rfl⟩
  · exact ⟨rfl, rfl, rfl⟩

end FetchTask

/-! ## One subscriber -/

namespace Subscriber

/-- While the subscriber runs, no task is cancelled or on its way out, and no call of
    `stop()` waits for its tasks. -/
structure Going (s : Subscriber) : Prop where
  workers : s.shared.running = true → ∀ w ∈ s.workers,
    w.cancelled = false ∧ (w.pc.ended = true ∨ w.pc.ending = false)
  fetch : s.shared.running = true →
    s.fetch.cancelled = false ∧ (s.fetch.pc.ended = true ∨ s.fetch.pc.ending = false)
  stops : s.shared.running = true → ∀ passedLock timedOut,
    .gathering passedLock timedOut ∉ s.stops

/-- From the one state to the other, no worker and no fetch loop has ended for another reason
    than that `running` is `False`, the drain has begun or the client is gone. -/
structure Keeps (s s' : Subscriber) : Prop where
  workers : ∀ (i : Nat) (w : Worker), s.workers[i]? = some w → w.pc.ended = false →
    (∃ w', s'.workers[i]? = some w' ∧ w'.pc.ended = false) ∨
      s.shared.running = false ∨ s.shared.clientGone = true
  fetch : s.fetch.pc.ended = false → s'.fetch.pc.ended = false ∨
    s.shared.running = false ∨ s.shared.stopping = true ∨ s.shared.clientGone = true

/-- The act raises a `CancelledError` out of a handler whose worker nobody has cancelled. -/
def strays (s : Subscriber) : SubscriberAct → Bool
  | .worker i act => s.workers[i]?.any fun w => w.strays act
  | _ => false

variable {known : Row → Prop} {s s' : Subscriber}

/-- A subscriber that does not run has no task to keep. -/
theorem going_of_stopped (h : s.shared.running = false) : s.Going := by
  constructor <;> intro hrunning <;> rw [h] at hrunning <;> cases hrunning

/-- The tasks are as they were. -/
theorem keeps_of_tasks (hworkers : s'.workers = s.workers) (hfetch : s'.fetch.pc = s.fetch.pc) :
    s.Keeps s' where
  workers _ w hw hpc := .inl ⟨w, hworkers ▸ hw, hpc⟩
  fetch hpc := .inl (hfetch ▸ hpc)

/-- ... or were only cancelled. -/
theorem keeps_of_map {g : Worker → Worker} (hg : ∀ w, (g w).pc = w.pc)
    (hworkers : s'.workers = s.workers.map g) (hfetch : s'.fetch.pc = s.fetch.pc) :
    s.Keeps s' where
  workers _ w hw hpc := by
    refine .inl ⟨g w, ?_, hg w ▸ hpc⟩
    rw [hworkers, getElem?_map, hw]
    rfl
  fetch hpc := .inl (hfetch ▸ hpc)

/-- All tasks had ended before. -/
theorem keeps_of_done (hdone : s.tasksDone = true) : s.Keeps s' := by
  unfold tasksDone workersDone at hdone
  rw [Bool.and_eq_true, all_eq_true] at hdone
  obtain ⟨hworkers, hfetch⟩ := hdone
  refine ⟨fun i w hw hpc => ?_, fun hpc => ?_⟩
  · have hover := hworkers w (mem_of_getElem? hw)
    cases hcase : w.pc <;> rw [hcase] at hover hpc <;> first | (cases hover; done) | cases hpc
  · cases hcase : s.fetch.pc <;> rw [hcase] at hfetch hpc <;>
      first | (cases hfetch; done) | cases hpc

theorem afterDrain_keeps (s : Subscriber) (call : Nat) (passedLock timedOut : Bool) :
    (s.afterDrain call passedLock timedOut).Going ∧
    s.Keeps (s.afterDrain call passedLock timedOut) := by
  obtain ⟨g, fetch, hpc, _, hfetch, hcancel⟩ := s.cancelTasks_eq
  refine ⟨going_of_stopped rfl, keeps_of_map hpc ?_ ?_⟩
  · simp only [afterDrain, hcancel]
  · simp only [afterDrain, hcancel, hfetch]

/-- A call of `stop()` has moved on, other than to wait for the tasks. -/
theorem Going.restop (h : s.Going) (sh : Shared) {call : Nat} {pc : StopPc}
    (hrunning : sh.running = s.shared.running)
    (hpc : ∀ passedLock timedOut, pc ≠ .gathering passedLock timedOut) :
    Going { s with shared := sh, stops := s.stops.set call pc } where
  workers hrun := h.workers (hrunning ▸ hrun)
  fetch hrun := h.fetch (hrunning ▸ hrun)
  stops hrun passedLock timedOut hmem := by
    cases mem_or_eq_of_mem_set hmem with
    | inl hold => exact h.stops (hrunning ▸ hrun) passedLock timedOut hold
    | inr hnew => exact hpc _ _ hnew.symm

/-- A call that waits for the tasks has stopped the subscriber. -/
theorem Going.gathering (h : s.Going) {call : Nat} {passedLock timedOut : Bool}
    (hpc : s.stops[call]? = some (.gathering passedLock timedOut)) : s.shared.running = false := by
  cases hrunning : s.shared.running with
  | false => rfl
  | true => exact absurd (mem_of_getElem? hpc) (h.stops hrunning _ _)

theorem StopMoved.going (h : s.Going) {call : Nat} (hmoved : s.StopMoved call s') :
    s'.Going ∧ s.Keeps s' := by
  cases hmoved with
  | begun _ => exact ⟨h.restop _ rfl (by simp), keeps_of_tasks rfl rfl⟩
  | empty _ _ _ => exact s.afterDrain_keeps call true false
  | waits _ _ _ => exact ⟨h.restop s.shared rfl (by simp), keeps_of_tasks rfl rfl⟩
  | woken _ _ => exact s.afterDrain_keeps call true false
  | returned hpc hdone => exact ⟨going_of_stopped (h.gathering hpc), keeps_of_done hdone⟩

theorem afterWorker_going (hinv : s.Inv known) (h : s.Going) {i : Nat} {w : Worker}
    (hw : s.workers[i]? = some w) {act : WorkerAct} {out : Worker.StepOut}
    (hstep : w.step s.cfg s.shared act = some out) (hstray : w.strays act = false) :
    (s.afterWorker i out).Going ∧ s.Keeps (s.afterWorker i out) := by
  have hrunning : out.frame.shared.running = s.shared.running :=
    (afterWorker_inv hinv hw hstep).2.1.running
  have hlt : i < s.workers.length := (List.getElem?_eq_some_iff.mp hw).1
  have hspawn : ∀ passedLock timedOut, .gathering passedLock timedOut ∈
      (if out.spawnsStop then s.stops ++ [.starting] else s.stops) →
        .gathering passedLock timedOut ∈ s.stops := by
    intro passedLock timedOut hmem
    split at hmem
    · exact (mem_append.mp hmem).elim id fun hnew => by cases mem_singleton.mp hnew
    · exact hmem
  refine ⟨⟨fun hrun w' hw' => ?_, fun hrun => h.fetch (hrunning ▸ hrun),
    fun hrun p t hmem => h.stops (hrunning ▸ hrun) p t (hspawn p t hmem)⟩,
    fun j w' hw' hpc => ?_, fun hpc => .inl hpc⟩
  · -- the worker that moved, and the others
    have hrun : s.shared.running = true := hrunning.symm.trans hrun
    obtain ⟨hcancelled, hpc⟩ := h.workers hrun w (mem_of_getElem? hw)
    cases mem_or_eq_of_mem_set hw' with
    | inl hold => exact h.workers hrun w' hold
    | inr hnew =>
      subst hnew
      cases hpc with
      | inl hended =>
        -- a worker that has ended takes no step
        exfalso
        have hdone : w.pc = .done := by
          cases hcase : w.pc <;> rw [hcase] at hended <;> first | rfl | cases hended
        exact Worker.not_step_of_done hdone hstep
      | inr hgoing =>
        obtain ⟨hquiet, hend⟩ := Worker.step_going hstep hgoing hcancelled hstray
        refine ⟨hquiet, ?_⟩
        cases hend with
        | inl hgoing => exact .inr hgoing
        | inr hdone => exact .inl (by rw [hdone.1]; rfl)
  · by_cases hi : i = j
    · subst hi
      cases hrun : s.shared.running with
      | false => exact .inr (.inl rfl)
      | true =>
        rw [hw] at hw'
        cases hw'
        obtain ⟨hcancelled, hpc'⟩ := h.workers hrun w (mem_of_getElem? hw)
        have hgoing : w.pc.ending = false := hpc'.resolve_left (by rw [hpc]; simp)
        obtain ⟨_, hend⟩ := Worker.step_going hstep hgoing hcancelled hstray
        cases hend with
        | inl hgoing' =>
          refine .inl ⟨_, getElem?_set_self hlt, ?_⟩
          show out.pc.ended = false
          cases hcase : out.pc <;> rw [hcase] at hgoing' <;> first | rfl | cases hgoing'
        | inr hdone =>
          rw [hrun] at hdone
          exact .inr (.inr (hdone.2.resolve_left (by simp)))
    · exact .inl ⟨w', (getElem?_set_ne hi).trans hw', hpc⟩

theorem afterFetch_going (h : s.Going) {act : FetchAct} {out : FetchTask.StepOut}
    (hstep : s.fetch.step s.cfg s.shared act = some out) :
    (s.afterFetch out).Going ∧ s.Keeps (s.afterFetch out) := by
  have hrunning : out.shared.running = s.shared.running := by
    cases FetchTask.step_stepped hstep with
    | claimed _ _ => rfl
    | queued _ _ => exact FetchTask.enqueue_running _ _ _
    | other hshared _ _ _ _ _ => exact hshared.running
  have hgoing : s.shared.running = true → s.fetch.pc.ended = false →
      out.cancelled = false ∧ (out.pc.ending = false ∨
        out.pc = .done ∧ (s.shared.running = false ∨ s.shared.stopping = true ∨
          s.shared.clientGone = true)) := by
    intro hrun hpc
    obtain ⟨hcancelled, hpc'⟩ := h.fetch hrun
    exact FetchTask.step_going hstep (hpc'.resolve_left (by rw [hpc]; simp)) hcancelled
  refine ⟨⟨fun hrun => h.workers (hrunning ▸ hrun), fun hrun => ?_,
    fun hrun => h.stops (hrunning ▸ hrun)⟩, fun i w hw hpc => .inl ⟨w, hw, hpc⟩, fun hpc => ?_⟩
  · have hrun : s.shared.running = true := hrunning.symm.trans hrun
    cases hpc : s.fetch.pc.ended with
    | true =>
      -- a fetch loop that has ended takes no step
      exfalso
      have hdone : s.fetch.pc = .done := by
        cases hcase : s.fetch.pc <;> rw [hcase] at hpc <;> first | rfl | cases hpc
      exact FetchTask.not_step_of_done hdone hstep
    | false =>
      obtain ⟨hquiet, hend⟩ := hgoing hrun hpc
      refine ⟨hquiet, ?_⟩
      cases hend with
      | inl hgoing => exact .inr hgoing
      | inr hdone => exact .inl (by show out.pc.ended = true; rw [hdone.1]; rfl)
  · cases hrun : s.shared.running with
    | false => exact .inr (.inl rfl)
    | true =>
      obtain ⟨_, hend⟩ := hgoing hrun hpc
      cases hend with
      | inl hgoing' =>
        refine .inl ?_
        show out.pc.ended = false
        cases hcase : out.pc <;> rw [hcase] at hgoing' <;> first | rfl | cases hgoing'
      | inr hdone =>
        rw [hrun] at hdone
        exact .inr (.inr (hdone.2.resolve_left (by simp)))

/-- **A step without a stray cancellation ends no task early.** -/
theorem step_going (hinv : s.Inv known) (h : s.Going) {act : SubscriberAct}
    {orphan : Option Stmt} (hstep : s.step act = some (s', orphan))
    (hstray : s.strays act = false) :
    s'.Going ∧ s.Keeps s' := by
  cases step_stepped hstep with
  | started hdone hover =>
    refine ⟨⟨fun _ w hw => ?_, fun _ => ⟨rfl, .inr rfl⟩, fun _ p t hmem => ?_⟩,
      keeps_of_done hdone⟩
    · rw [eq_of_mem_replicate hw]
      exact ⟨rfl, .inr rfl⟩
    · exact absurd (hover _ hmem) (by simp [StopPc.over])
  | stopCalled =>
    refine ⟨⟨h.workers, h.fetch, fun hrun p t hmem => ?_⟩, keeps_of_tasks rfl rfl⟩
    cases mem_append.mp hmem with
    | inl hold => exact h.stops hrun p t hold
    | inr hnew => cases mem_singleton.mp hnew
  | stopRan hmoved => exact hmoved.going h
  | lockTimedOut _ => exact s.afterDrain_keeps _ _ _
  | joinTimedOut _ => exact s.afterDrain_keeps _ _ _
  | drainAborted _ => exact ⟨h.restop s.shared rfl (by simp), keeps_of_tasks rfl rfl⟩
  | gatherAborted hpc =>
    obtain ⟨g, fetch, hg, _, hfetch, hcancel⟩ := s.cancelTasks_eq
    rw [hcancel]
    exact ⟨going_of_stopped (h.gathering hpc), keeps_of_map hg rfl hfetch⟩
  | worker hw hout =>
    have hquiet := hstray
    simp only [strays, hw, Option.any_some] at hquiet
    exact afterWorker_going hinv h hw hout hquiet
  | fetch hout => exact afterFetch_going h hout
  | _ => exact ⟨⟨h.workers, h.fetch, h.stops⟩, keeps_of_tasks rfl rfl⟩

end Subscriber

/-! ## Runs -/

namespace System

/-- The act raises a `CancelledError` out of a handler whose worker nobody has cancelled. -/
def strays (s : System) : Act → Bool
  | .subscriber index act => s.subscribers[index]?.any fun sub => sub.strays act
  | _ => false

/-- No step of the run does. -/
def noStrays (b : Backend) (s : System) : List Act → Bool
  | [] => true
  | act :: acts => !s.strays act && noStrays b ((s.step b act).getD s) acts

variable {b : Backend} {s s' : System}

theorem noStrays_append (acts acts' : List Act) :
    s.noStrays b (acts ++ acts') = (s.noStrays b acts && (s.run b acts).noStrays b acts') := by
  induction acts generalizing s with
  | nil => rfl
  | cons act acts ih =>
    simp only [cons_append, noStrays, ih, Bool.and_assoc]
    rfl

/-- A step of the system without a stray cancellation ends no task early. -/
theorem step_going (hinv : s.Inv b) (h : ∀ sub ∈ s.subscribers, sub.Going) {act : Act}
    (hstep : s.step b act = some s') (hstray : s.strays act = false) {index : Nat}
    {sub' : Subscriber} (hsub' : s'.subscribers[index]? = some sub') :
    ∃ sub, s.subscribers[index]? = some sub ∧ sub'.Going ∧ sub.Keeps sub' := by
  obtain ⟨sub, hsub, hmoved⟩ := step_moved hstep hsub'
  have hgoing := h sub (mem_of_getElem? hsub)
  refine ⟨sub, hsub, ?_⟩
  cases hmoved with
  | idle _ => exact ⟨hgoing, Subscriber.keeps_of_tasks rfl rfl⟩
  | stepped hsubstep =>
    have hquiet := hstray
    simp only [strays, hsub, Option.any_some] at hquiet
    exact Subscriber.step_going (hinv.subscribers index sub hsub) hgoing hsubstep hquiet
  | @worker i w hw reply =>
    obtain ⟨hending, hended, hcancelled⟩ := w.deliver_pc reply
    refine ⟨⟨fun hrun w' hw' => ?_, hgoing.fetch, hgoing.stops⟩, fun j w' hw' hpc => ?_,
      fun hpc => .inl hpc⟩
    · cases mem_or_eq_of_mem_set hw' with
      | inl hold => exact hgoing.workers hrun w' hold
      | inr hnew =>
        rw [hnew, hending, hended, hcancelled]
        exact hgoing.workers hrun w (mem_of_getElem? hw)
    · by_cases hi : i = j
      · subst hi
        rw [hw] at hw'
        cases hw'
        have hlt : i < sub.workers.length := (List.getElem?_eq_some_iff.mp hw).1
        exact .inl ⟨_, getElem?_set_self hlt, hended.trans hpc⟩
      · exact .inl ⟨w', (getElem?_set_ne hi).trans hw', hpc⟩
  | fetch reply =>
    obtain ⟨hending, hended, hcancelled⟩ := sub.fetch.deliver_pc reply
    refine ⟨⟨hgoing.workers, fun hrun => ?_, hgoing.stops⟩, fun i w hw hpc => .inl ⟨w, hw, hpc⟩,
      fun hpc => .inl (hended.trans hpc)⟩
    show (sub.fetch.deliver reply).cancelled = false ∧
      ((sub.fetch.deliver reply).pc.ended = true ∨ (sub.fetch.deliver reply).pc.ending = false)
    rw [hending, hended, hcancelled]
    exact hgoing.fetch hrun

/-- A run without stray cancellations: its tasks are on no way out. -/
theorem run_going (hinv : s.Inv b) (h : ∀ sub ∈ s.subscribers, sub.Going) (acts : List Act)
    (hstrays : s.noStrays b acts = true) :
    (s.run b acts).Inv b ∧ ∀ sub ∈ (s.run b acts).subscribers, sub.Going := by
  induction acts generalizing s with
  | nil => exact ⟨hinv, h⟩
  | cons act acts ih =>
    simp only [noStrays, Bool.and_eq_true, Bool.not_eq_true'] at hstrays
    obtain ⟨hstray, hrest⟩ := hstrays
    show (((s.step b act).getD s).run b acts).Inv b ∧
      ∀ sub ∈ (((s.step b act).getD s).run b acts).subscribers, sub.Going
    cases hstep : s.step b act with
    | none =>
      rw [hstep] at hrest
      exact ih hinv h hrest
    | some s' =>
      rw [hstep] at hrest
      refine ih (step_inv hinv hstep) (fun sub' hmem => ?_) hrest
      obtain ⟨index, hsub'⟩ := mem_iff_getElem?.mp hmem
      obtain ⟨_, _, hgoing, _⟩ := step_going hinv h hstep hstray hsub'
      exact hgoing

end System

/-! ## The claim -/

/-- **A task ends for no other reason** than that `running` is `False`, the drain has halted
    the fetch loop or the client is gone, at every step of every run in which no
    `CancelledError` comes out of a handler whose worker nobody has cancelled. -/
theorem tasks_keep_running (b : Backend) (start : Int) (cfgs : List SubscriberConfig)
    (acts : List Act) (act : Act)
    (hstrays : (System.init start cfgs).noStrays b (acts ++ [act]) = true) :
    ∀ s', ((System.init start cfgs).run b acts).step b act = some s' →
      ∀ (index : Nat) (sub sub' : Subscriber),
        ((System.init start cfgs).run b acts).subscribers[index]? = some sub →
        s'.subscribers[index]? = some sub' → sub.Keeps sub' := by
  intro s' hstep index sub sub' hsub hsub'
  simp only [System.noStrays_append, System.noStrays, Bool.and_eq_true,
    Bool.not_eq_true'] at hstrays
  obtain ⟨hbefore, hstray, _⟩ := hstrays
  have hinit : ∀ sub ∈ (System.init start cfgs).subscribers, sub.Going := by
    intro sub hmem
    obtain ⟨cfg, _, rfl⟩ := mem_map.mp hmem
    exact Subscriber.going_of_stopped rfl
  obtain ⟨hinv, hgoing⟩ := System.run_going (System.init_inv b start cfgs) hinit acts hbefore
  obtain ⟨sub₀, hsub₀, _, hkeeps⟩ := System.step_going hinv hgoing hstep hstray hsub'
  rw [hsub] at hsub₀
  cases hsub₀
  exact hkeeps

/-- An exception escapes `consume()`. -/
def escapingAct : Act := .subscriber 0 (.worker 0 (.consumed .exception [] false {}))

theorem tasks_keep_running_escapingRun : ∃ s' sub sub',
    ((System.init 0 [plainConfig]).run .postgres consumingActs).step .postgres escapingAct =
      some s' ∧
    ((System.init 0 [plainConfig]).run .postgres consumingActs).subscribers[0]? = some sub ∧
    s'.subscribers[0]? = some sub' ∧ sub.Keeps sub' := by
  have hnext : (((System.init 0 [plainConfig]).run .postgres consumingActs).step .postgres
      escapingAct).map (fun s' => s'.subscribers.length) = some 1 := by decide
  have hrun :
      ((System.init 0 [plainConfig]).run .postgres consumingActs).subscribers.length = 1 := by
    decide
  obtain ⟨s', hstep, hlength⟩ := Option.map_eq_some_iff.mp hnext
  obtain ⟨sub, hsub⟩ := length_eq_one_iff.mp hrun
  obtain ⟨sub', hsub'⟩ := length_eq_one_iff.mp hlength
  have hget : ((System.init 0 [plainConfig]).run .postgres consumingActs).subscribers[0]? =
      some sub := by rw [hsub]; rfl
  have hget' : s'.subscribers[0]? = some sub' := by rw [hsub']; rfl
  exact ⟨s', sub, sub', hstep, hget, hget', tasks_keep_running .postgres 0 [plainConfig]
    consumingActs escapingAct (by decide) s' hstep 0 sub sub' hget hget'⟩

/-- Something the handler awaits raises `CancelledError`. -/
def strayActs : List Act :=
  consumingActs ++ [.subscriber 0 (.worker 0 (.consumed .cancelledError [] false {}))]

/-- **A `CancelledError` out of a handler ends the worker**, though nobody has cancelled it. -/
theorem task_ends_early :
    ¬ ∀ (b : Backend) (start : Int) (cfgs : List SubscriberConfig) (acts : List Act) (act : Act),
      ∀ s', ((System.init start cfgs).run b acts).step b act = some s' →
        ∀ (index : Nat) (sub sub' : Subscriber),
          ((System.init start cfgs).run b acts).subscribers[index]? = some sub →
          s'.subscribers[index]? = some sub' → sub.Keeps sub' := by
  intro hclaim
  have hrun : ((System.init 0 [plainConfig]).run .postgres strayActs).subscribers.map
      (fun sub => (sub.shared.running, sub.shared.clientGone,
        sub.workers.map fun w => w.pc.ended)) = [(true, false, [false])] := by decide
  have hnext : (((System.init 0 [plainConfig]).run .postgres strayActs).step .postgres
      (.subscriber 0 (.worker 0 .finished))).map (fun s' => s'.subscribers.map
        fun sub => sub.workers.map fun w => w.pc.ended) = some [[true]] := by decide
  obtain ⟨sub, _, hsubs, hsub, _⟩ := map_eq_cons_iff.mp hrun
  obtain ⟨s', hstep, hsubs'⟩ := Option.map_eq_some_iff.mp hnext
  obtain ⟨sub', _, hsubs', hsub', _⟩ := map_eq_cons_iff.mp hsubs'
  obtain ⟨hrunning, hsub⟩ := Prod.mk.inj hsub
  obtain ⟨hgone, hworkers⟩ := Prod.mk.inj hsub
  obtain ⟨w, _, hw, hpc, _⟩ := map_eq_cons_iff.mp hworkers
  obtain ⟨w', rest', hw', hpc', hrest'⟩ := map_eq_cons_iff.mp hsub'
  have hkeeps := hclaim .postgres 0 [plainConfig] strayActs (.subscriber 0 (.worker 0 .finished)) s'
    hstep 0 sub sub' (by rw [hsubs]; rfl) (by rw [hsubs']; rfl)
  obtain ⟨w₁, hw₁, hpc₁⟩ | hstopped | hgone' := hkeeps.workers 0 w (by rw [hw]; rfl) hpc
  · rw [hw'] at hw₁
    cases hw₁
    rw [hpc'] at hpc₁
    cases hpc₁
  · rw [hrunning] at hstopped
    cases hstopped
  · rw [hgone] at hgone'
    cases hgone'

end Outbox
