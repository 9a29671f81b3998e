import Outbox.Spec.SubscriberSteps

/-!
# What a worker does to the shared state

Between two awaits a worker finishes claims (`task_done`), and at most takes one row off
the in-flight queue, which it may put back. Nothing else of the shared state is its own to
change.

## Key results

- `Worker.Worked`: the three kinds of stretches, as the shared state sees them
- `Worker.step_worked`: every step of a worker is of one of these kinds
-/

namespace Outbox

/-! ## Finishing claims -/

/-- A stretch that does no more to the shared state than finish claims. -/
structure Shared.Finishes (sh sh' : Shared) : Prop where
  inflight : sh'.inflight = sh.inflight
  notifyEvent : sh'.notifyEvent = sh.notifyEvent
  clientGone : sh'.clientGone = sh.clientGone

namespace Shared

theorem Finishes.refl (sh : Shared) : sh.Finishes sh := ⟨rfl, rfl, rfl⟩

theorem Finishes.trans {sh sh' sh'' : Shared} (h : sh.Finishes sh') (h' : sh'.Finishes sh'') :
    sh.Finishes sh'' where
  inflight := h'.inflight.trans h.inflight
  notifyEvent := h'.notifyEvent.trans h.notifyEvent
  clientGone := h'.clientGone.trans h.clientGone

theorem finishes_taskDone (sh : Shared) : sh.Finishes sh.taskDone := ⟨rfl, rfl, rfl⟩

end Shared

namespace Worker

/-- The writer connection of the worker predates an error of the fetch loop. -/
def stale (cfg : SubscriberConfig) (sh : Shared) (w : Worker) : Bool :=
  cfg.engine && sh.fetchGeneration != w.generation

/-- What a step of a worker does to the shared state. -/
inductive Worked (cfg : SubscriberConfig) (sh : Shared) (w : Worker) :
    WorkerAct → Shared → Prop where
  | finished {act : WorkerAct} {sh' : Shared} (h : sh.Finishes sh') : Worked cfg sh w act sh'
  /-- A row was taken for dispatch. -/
  | took {r : Reading} {sh' : Shared} {m : OutboxInnerMessage} {queued : List OutboxInnerMessage}
      (hqueue : sh.inflight = m :: queued) (hstale : w.stale cfg sh = false)
      (h : (Shared.signalRefill cfg { sh with inflight := queued }).Finishes sh') :
      Worked cfg sh w (.got r) sh'
  /-- A worker with a stale writer took a row and put it back. -/
  | putBack {r : Reading} {sh' : Shared} {m : OutboxInnerMessage}
      {queued : List OutboxInnerMessage} (hqueue : sh.inflight = m :: queued)
      (hstale : w.stale cfg sh = true)
      (h : (Shared.putNowait cfg { sh with inflight := queued } m).taskDone.Finishes sh') :
      Worked cfg sh w (.got r) sh'

variable {cfg : SubscriberConfig} {sh : Shared} {f : Frame}

/-! ## The functions of a worker

Each of them goes on from a frame whose shared state has only seen claims finished. -/

theorem resume_fst (next : AfterFlush) : (resume cfg f next).1 = f := by
  cases next <;> rfl

@[simp] theorem emitDispatchAbandoned_shared (m : OutboxInnerMessage) :
    (f.emitDispatchAbandoned cfg m).shared = f.shared := by
  unfold Frame.emitDispatchAbandoned
  split <;> rfl

@[simp] theorem emitDispatchAbandoned_buffer (m : OutboxInnerMessage) :
    (f.emitDispatchAbandoned cfg m).buffer = f.buffer := by
  unfold Frame.emitDispatchAbandoned
  split <;> rfl

/-- One row of a flush is finished. -/
theorem closePending_shared (deleted : Finset (Nat × UUID)) (p : PendingFlush) :
    (closePending cfg deleted f p).shared = f.shared.taskDone := by
  unfold closePending
  dsimp only
  split <;> rfl

section Finishes

variable (h : sh.Finishes f.shared)
include h

theorem taskDone_finishes : sh.Finishes f.taskDone.shared :=
  h.trans (Shared.finishes_taskDone f.shared)

theorem abandoned_finishes (m : OutboxInnerMessage) :
    sh.Finishes (f.emitDispatchAbandoned cfg m).shared := by
  rw [emitDispatchAbandoned_shared]
  exact h

theorem flushBuffer_finishes (next : AfterFlush) :
    sh.Finishes (flushBuffer cfg f next).1.shared := by
  unfold flushBuffer
  split
  · rw [resume_fst]
    exact h
  · exact h

theorem unwind_finishes (why : Exit) : sh.Finishes (unwind cfg f why).1.shared :=
  flushBuffer_finishes h (.exit why)

/-- A flush that ends, one way or the other, finishes its rows one by one. -/
theorem foldl_finishes {g : Frame → PendingFlush → Frame}
    (hg : ∀ f p, (g f p).shared = f.shared.taskDone) (pending : List PendingFlush) :
    sh.Finishes (pending.foldl g f).shared := by
  induction pending generalizing f with
  | nil => exact h
  | cons p pending ih =>
    have hstep : sh.Finishes (g f p).shared := by
      rw [hg]
      exact taskDone_finishes h
    exact ih hstep

theorem flushed_finishes (deleted : Finset (Nat × UUID)) (next : AfterFlush) :
    sh.Finishes (flushed cfg f deleted next).1.shared := by
  unfold flushed
  rw [resume_fst]
  exact foldl_finishes h (fun _ p => closePending_shared deleted p) f.buffer

theorem flushRaised_finishes (next : AfterFlush) (why : Exit) :
    sh.Finishes (flushRaised cfg f next why).1.shared := by
  have habandoned := foldl_finishes (g := fun f p => (f.emitDispatchAbandoned cfg p.row).taskDone)
    h (fun f p => by simp [Frame.taskDone]) f.buffer
  unfold flushRaised
  dsimp only
  split
  · exact habandoned
  · refine unwind_finishes ?_ why
    exact habandoned

theorem flushIfDue_finishes (due : Bool) :
    sh.Finishes (if due then flushBuffer cfg f .loop else (f, .loop)).1.shared := by
  split
  · exact flushBuffer_finishes h .loop
  · exact h

theorem afterDispatch_finishes (r : Reading) (m : OutboxInnerMessage) (buffered : Bool) :
    sh.Finishes (afterDispatch cfg r f m buffered).1.shared := by
  unfold afterDispatch
  refine flushIfDue_finishes ?_ _
  split
  · exact h
  · exact taskDone_finishes h

theorem dispatchRaised_finishes (m : OutboxInnerMessage) (why : Exit) :
    sh.Finishes (dispatchRaised cfg f m why).1.shared :=
  unwind_finishes (f := (f.note (.ended m.key)).taskDone) (taskDone_finishes h) why

theorem writeRaised_finishes (r : Reading) (m : OutboxInnerMessage) :
    sh.Finishes (writeRaised cfg r f m).1.shared := by
  unfold writeRaised
  dsimp only
  split
  · exact dispatchRaised_finishes (abandoned_finishes h m) m .error
  · exact afterDispatch_finishes (abandoned_finishes h m) r m false

theorem flushOrBuffer_finishes (r : Reading) (m : OutboxInnerMessage) (event : Event)
    (tags : Tags) (useBuffer : Bool) :
    sh.Finishes (flushOrBuffer cfg r f m event tags useBuffer).1.shared := by
  unfold flushOrBuffer
  split
  · exact afterDispatch_finishes (f := { f with buffer := f.buffer ++ [_] }) h r m true
  · split
    · exact afterDispatch_finishes h r m false
    · split
      · exact writeRaised_finishes h r m
      · exact h

theorem writeOutcome_finishes (r : Reading) (m : OutboxInnerMessage) (useBuffer : Bool) :
    sh.Finishes (writeOutcome cfg r f m useBuffer).1.shared := by
  unfold writeOutcome
  split
  · exact afterDispatch_finishes (abandoned_finishes (f := f.note _) h m) r m false
  · dsimp only
    split
    · exact flushOrBuffer_finishes h r _ _ _ useBuffer
    · split
      · exact afterDispatch_finishes h r _ false
      · exact h
    · exact flushOrBuffer_finishes h r _ _ _ useBuffer

theorem dispatchOne_finishes (r : Reading) (m : OutboxInnerMessage) :
    sh.Finishes (dispatchOne cfg r f m).1.shared := by
  unfold dispatchOne
  dsimp only
  split
  · exact flushOrBuffer_finishes (f := f.note _) h r _ _ _ true
  · split
    · exact h
    · exact writeOutcome_finishes (f := f.emitMetric _ _ _) h r _ true

theorem consumeEnded_finishes (how : ConsumeEnd) (acts : List HandlerAct) (r : Reading)
    (m : OutboxInnerMessage) (startPerf : Int) :
    sh.Finishes (consumeEnded cfg how acts r f m startPerf).1.shared := by
  unfold consumeEnded
  dsimp only
  split
  · exact writeOutcome_finishes h r _ true
  · exact writeOutcome_finishes h r _ true
  · exact writeOutcome_finishes h r _ false
  · exact afterDispatch_finishes (abandoned_finishes (f := f.note _) h _) r _ false
  · exact dispatchRaised_finishes (f := f.note _) h _ .cancelled

theorem writeReplied_finishes {r : Reading} {m : OutboxInnerMessage} {kind : WriteKind}
    {reply : Reply} {out : Frame × WorkerPc}
    (hout : writeReplied cfg r f m kind reply = some out) : sh.Finishes out.1.shared := by
  unfold writeReplied at hout
  split at hout
  · obtain rfl := Option.some_inj.mp hout
    refine afterDispatch_finishes ?_ r m false
    -- the metrics leave the shared state alone
    split <;> exact h
  · obtain rfl := Option.some_inj.mp hout
    exact afterDispatch_finishes (f := f.emitLeaseLost cfg m .terminal) h r m false
  · obtain rfl := Option.some_inj.mp hout
    exact writeRaised_finishes h r m
  · obtain rfl := Option.some_inj.mp hout
    exact afterDispatch_finishes (f := f.emitMetric m _ _) h r m false
  · obtain rfl := Option.some_inj.mp hout
    exact afterDispatch_finishes (f := f.emitLeaseLost cfg m .retry) h r m false
  · cases hout

theorem cancelAt_finishes (pc : WorkerPc) : sh.Finishes (cancelAt cfg f pc).1.shared := by
  unfold cancelAt
  split
  · exact unwind_finishes h .cancelled
  · exact unwind_finishes h .cancelled
  · exact unwind_finishes h .cancelled
  · rename_i m _ _ _
    exact dispatchRaised_finishes (abandoned_finishes h m) m .cancelled
  · exact flushRaised_finishes h _ .cancelled
  · exact h

end Finishes

/-- A row off the queue is dispatched, or put back. -/
theorem handle_worked {w : Worker} {m : OutboxInnerMessage} {queued : List OutboxInnerMessage}
    (hqueue : sh.inflight = m :: queued) (hshared : f.shared = { sh with inflight := queued })
    (r : Reading) : Worked cfg sh w (.got r) (handle cfg r w.generation f m).1.shared := by
  unfold handle
  rw [hshared]
  split
  · rename_i hstale
    exact .putBack hqueue hstale
      (flushBuffer_finishes (f := { f with shared := _ }) (.refl _) .stale)
  · rename_i hstale
    exact .took hqueue (by simpa [stale] using hstale)
      (dispatchOne_finishes (f := { f with shared := _ }) (.refl _) r m)

/-! ## Steps -/

theorem step_worked {w : Worker} {act : WorkerAct} {out : StepOut}
    (h : step cfg sh w act = some out) : Worked cfg sh w act out.frame.shared := by
  cases step_stepped h with
  | stops _ _ => exact .finished (flushBuffer_finishes (.refl sh) _)
  | idles _ _ => exact .finished (flushBuffer_finishes (.refl sh) _)
  | took _ hqueue => exact handle_worked hqueue rfl _
  | awaited _ hqueue => exact handle_worked hqueue rfl _
  | consumed _ => exact .finished (consumeEnded_finishes (.refl sh) _ _ _ _ _)
  | wrote _ hnext => exact .finished (writeReplied_finishes (.refl sh) hnext)
  | writeFailed _ => exact .finished (writeRaised_finishes (.refl sh) _ _)
  | deleted _ => exact .finished (flushed_finishes (.refl sh) _ _)
  | flushFailed _ => exact .finished (flushRaised_finishes (.refl sh) _ _)
  | invalidated _ => exact .finished (flushBuffer_finishes (.refl sh) _)
  | invalidateFailed _ => exact .finished (flushBuffer_finishes (.refl sh) _)
  | cancelled _ _ _ => exact .finished (cancelAt_finishes (.refl sh) _)
  | _ => exact .finished (.refl sh)

end Worker

end Outbox
