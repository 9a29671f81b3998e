import Outbox.Native.System

/-!
# The steps of a subscriber and of the system

What one step of a worker, of a subscriber and of the system can be, said once: the step
functions and the three functions of `stop()` are taken apart here, and every invariant is a
case analysis over `Worker.Stepped`, `Subscriber.Stepped` or `System.Stepped`.

Only a worker's own step moves it on. The other steps (the fetch loop's, the calls of
`start()` and `stop()`, a NOTIFY) leave every worker at its await, up to a cancellation they
request, or replace all of them.

## Key results

- `Worker.step_stepped`: the kinds of steps of a worker, with what each of them found
- `Subscriber.step_stepped`: those of a subscriber
- `Subscriber.step_stands`: a step is a worker's, or the fetch loop's, or moves no worker on
- `Subscriber.afterWorker_cases`: the workers after one of them has moved
- `System.step_stepped`: the kinds of steps of the system
-/

namespace Outbox

open List

/-! ## The kinds of steps of a worker -/

namespace Worker

/-- What a worker goes on from when it is resumed. -/
def frame (w : Worker) (sh : Shared) : Frame := { shared := sh, buffer := w.buffer }

/-- The worker goes on to its next await, on the same connection. -/
def resumed (w : Worker) (next : Frame × WorkerPc) : StepOut :=
  { frame := next.1, pc := next.2, generation := w.generation, cancelled := w.cancelled }

/-- A step, by the await it resumes the worker at and what it finds there. -/
inductive Stepped (cfg : SubscriberConfig) (sh : Shared) (w : Worker) :
    WorkerAct → StepOut → Prop where
  | connects (hpc : w.pc = .top) (hengine : cfg.engine = true) :
      Stepped cfg sh w .run (w.resumed (w.frame sh, .opening))
  /-- Without an engine the loop is entered at once. -/
  | enters (hpc : w.pc = .top) (hengine : cfg.engine = false) :
      Stepped cfg sh w .run
        { w.resumed (w.frame sh, .loop) with generation := sh.fetchGeneration }
  | ends (hpc : w.pc = .top) (hover : sh.running = false ∨ sh.clientGone = true) :
      Stepped cfg sh w .run (w.resumed (w.frame sh, .done))
  | opened (hpc : w.pc = .opening) :
      Stepped cfg sh w .opened
        { w.resumed (w.frame sh, .loop) with generation := sh.fetchGeneration }
  | openFailed {r : Reading} (hpc : w.pc = .opening) :
      Stepped cfg sh w (.failed r) (w.resumed (w.frame sh, .backoff))
  | stops (hpc : w.pc = .loop) (hrunning : sh.running = false) :
      Stepped cfg sh w .run (w.resumed (unwind cfg (w.frame sh) .normal))
  /-- There is nothing to get without waiting. -/
  | idles (hpc : w.pc = .loop) (hqueue : sh.inflight = []) :
      Stepped cfg sh w .run (w.resumed (flushBuffer cfg (w.frame sh) .get))
  /-- A row was there. -/
  | took {r : Reading} {m : OutboxInnerMessage} {queued : List OutboxInnerMessage}
      (hpc : w.pc = .loop) (hqueue : sh.inflight = m :: queued) :
      Stepped cfg sh w (.got r)
        (w.resumed (handle cfg r w.generation (w.frame { sh with inflight := queued }) m))
  /-- A row has come. -/
  | awaited {r : Reading} {m : OutboxInnerMessage} {queued : List OutboxInnerMessage}
      (hpc : w.pc = .getting) (hqueue : sh.inflight = m :: queued) :
      Stepped cfg sh w (.got r)
        (w.resumed (handle cfg r w.generation (w.frame { sh with inflight := queued }) m))
  | consumed {how : ConsumeEnd} {acts : List HandlerAct} {swallowed : Bool} {r : Reading}
      {m : OutboxInnerMessage} {startPerf : Int} (hpc : w.pc = .consuming m startPerf) :
      Stepped cfg sh w (.consumed how acts swallowed r)
        { w.resumed (consumeEnded cfg how acts r (w.frame sh) m startPerf) with
          cancelled := w.cancelled && !(swallowed || how == .cancelledError)
          spawnsStop := how == .stopConsume }
  | wrote {r : Reading} {m : OutboxInnerMessage} {token : UUID} {kind : WriteKind}
      {reply : Reply} {next : Frame × WorkerPc} (hpc : w.pc = .writing m token kind (some reply))
      (hnext : writeReplied cfg r (w.frame sh) m kind reply = some next) :
      Stepped cfg sh w (.replied r) (w.resumed next)
  | writeFailed {r : Reading} {m : OutboxInnerMessage} {token : UUID} {kind : WriteKind}
      {reply : Option Reply} (hpc : w.pc = .writing m token kind reply) :
      Stepped cfg sh w (.failed r)
        { w.resumed (writeRaised cfg r (w.frame sh) m) with orphan := w.pending cfg }
  | deleted {r : Reading} {next : AfterFlush} {pairs : Finset (Nat × UUID)}
      (hpc : w.pc = .flushing next (some (.deletedBatch pairs))) :
      Stepped cfg sh w (.replied r) (w.resumed (flushed cfg (w.frame sh) pairs next))
  | flushFailed {r : Reading} {next : AfterFlush} {reply : Option Reply}
      (hpc : w.pc = .flushing next reply) :
      Stepped cfg sh w (.failed r)
        { w.resumed (flushRaised cfg (w.frame sh) next .error) with orphan := w.pending cfg }
  | invalidated (hpc : w.pc = .invalidating) :
      Stepped cfg sh w .finished (w.resumed (unwind cfg (w.frame sh) .stale))
  | invalidateFailed {r : Reading} (hpc : w.pc = .invalidating) :
      Stepped cfg sh w (.failed r) (w.resumed (unwind cfg (w.frame sh) .error))
  | closed {why : Exit} (hpc : w.pc = .closing why) :
      Stepped cfg sh w .finished (w.resumed (w.frame sh, afterClose why))
  | closeFailed {r : Reading} {why : Exit} (hpc : w.pc = .closing why) :
      Stepped cfg sh w (.failed r) (w.resumed (w.frame sh, .backoff))
  | retries (hpc : w.pc = .backoff) :
      Stepped cfg sh w .finished (w.resumed (w.frame sh, .top))
  /-- A requested cancellation is delivered. -/
  | cancelled (hpc : ∀ m startPerf, w.pc ≠ .consuming m startPerf) (hdone : w.pc ≠ .done)
      (hrequested : w.cancelled = true) :
      Stepped cfg sh w .cancel
        { w.resumed (cancelAt cfg (w.frame sh) w.pc) with
          cancelled := false
          orphan := w.pending cfg }

/-- A worker that has ended takes no step. -/
theorem not_step_of_done {cfg : SubscriberConfig} {sh : Shared} {w : Worker} {act : WorkerAct}
    {out : StepOut} (hdone : w.pc = .done) : step cfg sh w act ≠ some out := by
  unfold step
  rw [hdone]
  cases act <;> simp

/-- **What a step of a worker can be.** -/
theorem step_stepped {cfg : SubscriberConfig} {sh : Shared} {w : Worker} {act : WorkerAct}
    {out : StepOut} (h : step cfg sh w act = some out) : Stepped cfg sh w act out := by
  unfold step at h
  dsimp only at h
  split at h
  · -- top, run
    rename_i hpc
    split at h
    · split at h <;> cases h
      · exact .connects hpc ‹_›
      · exact .enters hpc (Bool.eq_false_iff.mpr ‹_›)
    · rename_i hhead
      cases h
      refine .ends hpc ?_
      cases hrunning : sh.running with
      | false => exact .inl rfl
      | true => exact .inr (by simpa [hrunning] using hhead)
  · cases h
    exact .opened ‹_›
  · cases h
    exact .openFailed ‹_›
  · -- loop, run
    rename_i hpc
    split at h
    · rename_i hrunning
      cases h
      exact .stops hpc (by simpa using hrunning)
    · split at h <;> cases h
      exact .idles hpc (isEmpty_iff.mp ‹_›)
  · -- loop, got
    rename_i hpc
    split at h <;> cases h
    exact .took hpc ‹_›
  · -- getting, got
    rename_i hpc
    split at h <;> cases h
    exact .awaited hpc ‹_›
  · cases h
    exact .consumed ‹_›
  · -- writing, replied
    rename_i hpc
    obtain ⟨next, hnext, rfl⟩ := Option.map_eq_some_iff.mp h
    exact .wrote hpc hnext
  · cases h
    exact .writeFailed ‹_›
  · cases h
    exact .deleted ‹_›
  · cases h
    exact .flushFailed ‹_›
  · cases h
    exact .invalidated ‹_›
  · cases h
    exact .invalidateFailed ‹_›
  · cases h
    exact .closed ‹_›
  · cases h
    exact .closeFailed ‹_›
  · cases h
    exact .retries ‹_›
  · cases h
  · cases h
  · -- a requested cancellation is delivered
    rename_i hdone hconsuming
    split at h <;> cases h
    exact .cancelled hconsuming hdone ‹_›
  · cases h

end Worker

/-! ## The kinds of steps of a subscriber -/

namespace Subscriber

/-- A call of `stop()` runs on. -/
inductive StopMoved (s : Subscriber) (call : Nat) : Subscriber → Prop where
  /-- The task a handler spawned begins. -/
  | begun (hpc : s.stops[call]? = some .starting) :
      StopMoved s call { s with
        shared := { s.shared with stopping := true, notifyEvent := true }
        stops := s.stops.set call .locking }
  /-- Nothing is unfinished once the claim lock is free. -/
  | empty (hpc : s.stops[call]? = some .locking) (hlock : s.shared.claimLocked = false)
      (hzero : s.shared.unfinished = 0) : StopMoved s call (s.afterDrain call true false)
  | waits (hpc : s.stops[call]? = some .locking) (hlock : s.shared.claimLocked = false)
      (hunfinished : s.shared.unfinished ≠ 0) :
      StopMoved s call { s with stops := s.stops.set call (.joining s.shared.finishedSets) }
  /-- `join()` returns. -/
  | woken {seen : Nat} (hpc : s.stops[call]? = some (.joining seen))
      (hwoken : seen < s.shared.finishedSets) : StopMoved s call (s.afterDrain call true false)
  /-- Every task has ended. -/
  | returned {passedLock timedOut : Bool}
      (hpc : s.stops[call]? = some (.gathering passedLock timedOut)) (hdone : s.tasksDone = true) :
      StopMoved s call { s with
        shared := s.shared.resetInflight
        workers := []
        stops := s.stops.set call (.returned passedLock timedOut)
        log := s.log ++ s.shared.inflight.map fun m => .discarded m.key }

/-- A step, and the statement it leaves behind. -/
inductive Stepped (s : Subscriber) : SubscriberAct → Option Stmt → Subscriber → Prop where
  | started (hdone : s.tasksDone = true) (hover : ∀ pc ∈ s.stops, pc.over = true) :
      Stepped s .start none { s with
        shared := { s.shared with running := true, stopping := false }
        workers := replicate s.cfg.maxWorkers {}
        fetch := { pc := .top } }
  | stopCalled : Stepped s .stop none { s with
        shared := { s.shared with stopping := true, notifyEvent := true }
        stops := s.stops ++ [.locking] }
  | stopRan {call : Nat} {s' : Subscriber} (h : s.StopMoved call s') :
      Stepped s (.stopRun call) none s'
  /-- The drain times out at the claim lock. -/
  | lockTimedOut {call : Nat} (hpc : s.stops[call]? = some .locking) :
      Stepped s (.stopTimeout call) none (s.afterDrain call false true)
  /-- The drain times out in `join()`. -/
  | joinTimedOut {call seen : Nat} (hpc : s.stops[call]? = some (.joining seen)) :
      Stepped s (.stopTimeout call) none (s.afterDrain call true true)
  /-- A call is cancelled in its drain. -/
  | drainAborted {call : Nat} {pc : StopPc} (hpc : s.stops[call]? = some pc) :
      Stepped s (.stopAbort call) none { s with stops := s.stops.set call .aborted }
  /-- A call is cancelled while it waits for the tasks. -/
  | gatherAborted {call : Nat} {passedLock timedOut : Bool}
      (hpc : s.stops[call]? = some (.gathering passedLock timedOut)) :
      Stepped s (.stopAbort call) none { s.cancelTasks with stops := s.stops.set call .aborted }
  /-- A NOTIFY that wakes the fetch loop. -/
  | notified {payload : Option String} :
      Stepped s (.notify payload) none { s with
        shared := { s.shared with notifyEvent := true }
        log := s.log ++ [.notified] }
  /-- A NOTIFY of a queue that is not served. -/
  | ignored {payload : Option String} : Stepped s (.notify payload) none s
  | client (gone : Bool) :
      Stepped s (.client gone) none { s with shared := { s.shared with clientGone := gone } }
  | worker {j : Nat} {w : Worker} {act : WorkerAct} {out : Worker.StepOut}
      (hw : s.workers[j]? = some w) (hout : w.step s.cfg s.shared act = some out) :
      Stepped s (.worker j act) out.orphan (s.afterWorker j out)
  | fetch {act : FetchAct} {out : FetchTask.StepOut}
      (hout : s.fetch.step s.cfg s.shared act = some out) :
      Stepped s (.fetch act) out.orphan (s.afterFetch out)

variable {s s' : Subscriber}

theorem stopRun_moved {call : Nat} (hrun : s.stopRun call = some s') : s.StopMoved call s' := by
  unfold stopRun at hrun
  split at hrun
  · -- starting
    rename_i hpc
    cases hrun
    exact .begun hpc
  · -- locking
    rename_i hpc
    split at hrun
    · cases hrun
    · rename_i hlock
      have hlock := Bool.eq_false_iff.mpr hlock
      split at hrun <;> cases hrun
      · exact .empty hpc hlock ‹_›
      · exact .waits hpc hlock ‹_›
  · -- joining
    rename_i hpc
    split at hrun <;> cases hrun
    exact .woken hpc ‹_›
  · -- gathering
    rename_i hpc
    split at hrun <;> cases hrun
    exact .returned hpc ‹_›
  · cases hrun

/-- **What a step can be.** -/
theorem step_stepped {act : SubscriberAct} {orphan : Option Stmt}
    (hstep : s.step act = some (s', orphan)) : Stepped s act orphan s' := by
  unfold step at hstep
  split at hstep
  · -- start
    obtain ⟨_, hstart, heq⟩ := Option.map_eq_some_iff.mp hstep
    cases heq
    unfold start at hstart
    split at hstart
    · rename_i hready
      cases hstart
      rw [Bool.and_eq_true, all_eq_true] at hready
      exact .started hready.1 hready.2
    · cases hstart
  · cases hstep
    exact .stopCalled
  · -- stop, one await further
    obtain ⟨_, hrun, heq⟩ := Option.map_eq_some_iff.mp hstep
    cases heq
    exact .stopRan (stopRun_moved hrun)
  · obtain ⟨_, htimeout, heq⟩ := Option.map_eq_some_iff.mp hstep
    cases heq
    unfold stopTimeout at htimeout
    split at htimeout <;> cases htimeout
    · exact .lockTimedOut ‹_›
    · exact .joinTimedOut ‹_›
  · obtain ⟨_, habort, heq⟩ := Option.map_eq_some_iff.mp hstep
    cases heq
    unfold stopAbort at habort
    split at habort <;> cases habort
    · exact .drainAborted ‹_›
    · exact .drainAborted ‹_›
    · exact .gatherAborted ‹_›
  · -- a NOTIFY
    cases hstep
    unfold onNotify
    split
    · exact .notified
    · exact .ignored
  · cases hstep
    exact .client _
  · obtain ⟨w, hw, hrest⟩ := Option.bind_eq_some_iff.mp hstep
    obtain ⟨out, hout, heq⟩ := Option.map_eq_some_iff.mp hrest
    cases heq
    exact .worker hw hout
  · obtain ⟨out, hout, heq⟩ := Option.map_eq_some_iff.mp hstep
    cases heq
    exact .fetch hout

/-! ## The workers -/

/-- A step that moves no worker on: those there are wait where they waited, with the buffers
    and the connections they had, or have just been created. Nothing comes to the queue, and
    no error of the fetch loop is recorded. -/
structure Stands (s s' : Subscriber) : Prop where
  cfg : s'.cfg = s.cfg
  queue : s'.shared.inflight.Sublist s.shared.inflight
  fetchGeneration : s'.shared.fetchGeneration = s.shared.fetchGeneration
  length : s.workers.length ≤ s.cfg.maxWorkers → s'.workers.length ≤ s.cfg.maxWorkers
  workers : ∀ (j : Nat) (w' : Worker), s'.workers[j]? = some w' →
    w' = {} ∨ ∃ w, s.workers[j]? = some w ∧ w' = { w with cancelled := w'.cancelled }

theorem stands_of_workers (hcfg : s'.cfg = s.cfg) (hqueue : s'.shared.inflight = s.shared.inflight)
    (hgeneration : s'.shared.fetchGeneration = s.shared.fetchGeneration)
    (hworkers : s'.workers = s.workers) : s.Stands s' where
  cfg := hcfg
  queue := by rw [hqueue]
  fetchGeneration := hgeneration
  length hle := hworkers ▸ hle
  workers _ w' hw' := .inr ⟨w', hworkers ▸ hw', rfl⟩

/-- Cancelling the tasks moves no worker. -/
theorem cancelTasks_stands (s : Subscriber) : s.Stands s.cancelTasks where
  cfg := rfl
  queue := .refl _
  fetchGeneration := rfl
  length hle := by
    show (s.workers.map _).length ≤ s.cfg.maxWorkers
    rw [length_map]
    exact hle
  workers j w' hw' := by
    have hmap : (s.workers.map _)[j]? = some w' := hw'
    rw [getElem?_map] at hmap
    obtain ⟨w, hw, rfl⟩ := Option.map_eq_some_iff.mp hmap
    refine .inr ⟨w, hw, ?_⟩
    split <;> rfl

theorem afterDrain_stands (s : Subscriber) (call : Nat) (passedLock timedOut : Bool) :
    s.Stands (s.afterDrain call passedLock timedOut) :=
  let h := s.cancelTasks_stands
  { cfg := h.cfg
    queue := h.queue
    fetchGeneration := h.fetchGeneration
    length := h.length
    workers := h.workers }

theorem StopMoved.stands {call : Nat} (h : s.StopMoved call s') : s.Stands s' := by
  cases h with
  | begun _ => exact stands_of_workers rfl rfl rfl rfl
  | empty _ _ _ => exact afterDrain_stands s _ _ _
  | waits _ _ _ => exact stands_of_workers rfl rfl rfl rfl
  | woken _ _ => exact afterDrain_stands s _ _ _
  | returned _ _ =>
    exact {
      cfg := rfl
      queue := nil_sublist _
      fetchGeneration := rfl
      length := fun _ => Nat.zero_le _
      workers := fun j w' hw' => nomatch hw' }

/-- **A step is a worker's or the fetch loop's, or it moves no worker on.** -/
theorem step_stands {act : SubscriberAct} {orphan : Option Stmt}
    (hstep : s.step act = some (s', orphan)) :
    (∃ j w wact out, act = .worker j wact ∧ s.workers[j]? = some w ∧
      w.step s.cfg s.shared wact = some out ∧ s' = s.afterWorker j out) ∨
    (∃ fact out, act = .fetch fact ∧ s.fetch.step s.cfg s.shared fact = some out ∧
      s' = s.afterFetch out) ∨
    (∀ j wact, act ≠ .worker j wact) ∧ (∀ fact, act ≠ .fetch fact) ∧ s.Stands s' := by
  cases step_stepped hstep with
  | worker hw hout => exact .inl ⟨_, _, _, _, rfl, hw, hout, rfl⟩
  | fetch hout => exact .inr (.inl ⟨_, _, rfl, hout, rfl⟩)
  | started _ _ =>
    exact .inr (.inr ⟨nofun, nofun, {
      cfg := rfl
      queue := .refl _
      fetchGeneration := rfl
      length := fun _ => Nat.le_of_eq length_replicate
      workers := fun j w' hw' => .inl (eq_of_mem_replicate (mem_of_getElem? hw')) }⟩)
  | stopRan h => exact .inr (.inr ⟨nofun, nofun, h.stands⟩)
  | lockTimedOut _ => exact .inr (.inr ⟨nofun, nofun, afterDrain_stands s _ _ _⟩)
  | joinTimedOut _ => exact .inr (.inr ⟨nofun, nofun, afterDrain_stands s _ _ _⟩)
  | gatherAborted _ =>
    have h := s.cancelTasks_stands
    exact .inr (.inr ⟨nofun, nofun, {
      cfg := h.cfg
      queue := h.queue
      fetchGeneration := h.fetchGeneration
      length := h.length
      workers := h.workers }⟩)
  | _ => exact .inr (.inr ⟨nofun, nofun, stands_of_workers rfl rfl rfl rfl⟩)

/-- The workers after one of them has moved. -/
theorem afterWorker_cases {i j : Nat} {w w' : Worker} {out : Worker.StepOut}
    (hw : s.workers[i]? = some w) (hw' : (s.afterWorker i out).workers[j]? = some w') :
    j = i ∧ w'.pc = out.pc ∧ w'.buffer = out.frame.buffer ∧ w'.generation = out.generation ∨
      j ≠ i ∧ s.workers[j]? = some w' := by
  have hset : (s.workers.set i _)[j]? = some w' := hw'
  by_cases hij : i = j
  · subst hij
    rw [getElem?_set_self (List.getElem?_eq_some_iff.mp hw).1] at hset
    cases hset
    exact .inl ⟨rfl, rfl, rfl, rfl⟩
  · rw [getElem?_set_ne hij] at hset
    exact .inr ⟨Ne.symm hij, hset⟩

end Subscriber

/-! ## The kinds of steps of the system -/

namespace System

/-- A step, by whose operation the database runs in it, if it runs one. -/
inductive Stepped (b : Backend) (s : System) : Act → System → Prop where
  | external {op : Op} (hop : op.isExternal = true) :
      Stepped b s (.external op) (s.execute b .external op).2
  /-- A subscriber steps, and the database runs nothing. -/
  | subscriber {index : Nat} {act : SubscriberAct} {sub sub' : Subscriber}
      {orphan : Option Stmt} (hsub : s.subscribers[index]? = some sub)
      (hfresh : s.fresh act = true) (hstep : sub.step act = some (sub', orphan)) :
      Stepped b s (.subscriber index act)
        { s with
          subscribers := s.subscribers.set index sub'
          orphans := s.orphans ++ orphan.toList.map fun stmt => (index, stmt) }
  | appliedWorker {index worker : Nat} {sub : Subscriber} {w : Worker} {stmt : Stmt}
      (hsub : s.subscribers[index]? = some sub) (hw : sub.workers[worker]? = some w)
      (hstmt : w.pending sub.cfg = some stmt) :
      Stepped b s (.applyWorker index worker)
        { (s.execute b (.subscriber index stmt) (stmt.op [])).2 with
          subscribers := s.subscribers.set index
            { sub with
              workers := sub.workers.set worker
                (w.deliver (s.execute b (.subscriber index stmt) (stmt.op [])).1) } }
  | appliedFetch {index : Nat} {locked : List Nat} {sub : Subscriber} {stmt : Stmt}
      (hsub : s.subscribers[index]? = some sub) (hstmt : sub.fetch.pending sub.cfg = some stmt) :
      Stepped b s (.applyFetch index locked)
        { (s.execute b (.subscriber index stmt) (stmt.op locked)).2 with
          subscribers := s.subscribers.set index
            { sub with
              fetch := sub.fetch.deliver
                (s.execute b (.subscriber index stmt) (stmt.op locked)).1 } }
  | appliedOrphan {i index : Nat} {locked : List Nat} {stmt : Stmt}
      (horphan : s.orphans[i]? = some (index, stmt)) :
      Stepped b s (.applyOrphan i locked)
        { (s.execute b (.subscriber index stmt) (stmt.op locked)).2 with
          orphans := s.orphans.eraseIdx i }

/-- **What a step of the system can be.** -/
theorem step_stepped {b : Backend} {s s' : System} {act : Act} (h : s.step b act = some s') :
    Stepped b s act s' := by
  unfold step at h
  split at h
  · split at h <;> cases h
    exact .external ‹_›
  · obtain ⟨sub, hsub, hrest⟩ := Option.bind_eq_some_iff.mp h
    split at hrest
    · rename_i hfresh
      obtain ⟨⟨sub', orphan⟩, hstep, heq⟩ := Option.map_eq_some_iff.mp hrest
      cases heq
      exact .subscriber hsub hfresh hstep
    · cases hrest
  · -- the statement of a worker
    obtain ⟨sub, hsub, hrest⟩ := Option.bind_eq_some_iff.mp h
    obtain ⟨w, hw, hrest⟩ := Option.bind_eq_some_iff.mp hrest
    obtain ⟨stmt, hstmt, heq⟩ := Option.map_eq_some_iff.mp hrest
    cases heq
    exact .appliedWorker hsub hw hstmt
  · obtain ⟨sub, hsub, hrest⟩ := Option.bind_eq_some_iff.mp h
    obtain ⟨stmt, hstmt, heq⟩ := Option.map_eq_some_iff.mp hrest
    cases heq
    exact .appliedFetch hsub hstmt
  · obtain ⟨⟨index, stmt⟩, horphan, heq⟩ := Option.map_eq_some_iff.mp h
    cases heq
    exact .appliedOrphan horphan

end System

end Outbox
