import Outbox.Spec.BufferAge
import Outbox.Spec.KeepsRunning
import Outbox.Spec.StopFinishes

/-!
# A running subscriber comes to its next fetch

While it runs, a subscriber gets stuck nowhere. Whatever its tasks wait for may fail, and each
of them then finds its way back to its loop: the fetch loop to the point of its next fetch, a
worker to the next row of the queue, over a new connection if its own predates an error of the
fetch loop. One worker is enough to empty the queue, and an empty queue makes room for a fetch
of a whole batch.

## Key results

- `Worker.drive_step`: some step brings a worker nearer to an empty queue
- `FetchTask.drive_step`: some step brings the fetch loop nearer to its next fetch
- `fetches_again`: the way to the next fetch
-/

namespace Outbox

open List

/-! ## The way back of a worker -/

/-- The steps a worker that may run is from the head of its loop with a current writer. -/
def WorkerPc.trip (stale : Bool) : WorkerPc → Nat
  | .done => 0
  | .loop | .getting => if stale then 7 else 0
  | .opening => 1
  | .top => 2
  | .backoff => 3
  | .closing _ => 4
  | .flushing _ _ => 5
  | .invalidating => 6
  | .writing _ _ _ _ => 8
  | .consuming _ _ => 9

namespace Worker

variable {cfg : SubscriberConfig} {f : Frame} {sh : Shared} {w : Worker} {stale : Bool}

theorem leave_trip (why : Exit) : (leave cfg f why).2.trip stale ≤ 4 := by
  unfold leave
  dsimp only
  split
  · exact Nat.le_refl 4
  · cases why <;> simp [afterClose, WorkerPc.trip]

theorem unwind_trip (why : Exit) : (unwind cfg f why).2.trip stale ≤ 5 := by
  unfold unwind flushBuffer
  split
  · exact (leave_trip why).trans (by omega)
  · exact Nat.le_refl 5

theorem flushRaised_trip (next : AfterFlush) (why : Exit) :
    (flushRaised cfg f next why).2.trip stale ≤ 4 := by
  unfold flushRaised
  dsimp only
  split
  · exact leave_trip _
  · exact leave_trip why

theorem Over.trip {pc : WorkerPc} (h : Over cfg pc) : pc.trip stale ≤ 7 := by
  cases h with
  | loop => cases stale <;> simp [WorkerPc.trip]
  | flushes => simp [WorkerPc.trip]
  | unwinds f => exact (unwind_trip .error).trans (by omega)

theorem writeOutcome_trip (r : Reading) (m : OutboxInnerMessage) (useBuffer : Bool) :
    (writeOutcome cfg r f m useBuffer).2.trip stale ≤ 8 := by
  cases writeOutcome_over r m useBuffer with
  | inl hwriting =>
    obtain ⟨m', token, kind, hpc⟩ := hwriting
    rw [hpc]
    exact Nat.le_refl 8
  | inr hover => exact hover.trip.trans (by omega)

theorem dispatchOne_trip (r : Reading) (m : OutboxInnerMessage) :
    (dispatchOne cfg r f m).2.trip stale ≤ 9 := by
  unfold dispatchOne
  dsimp only
  split
  · cases @flushOrBuffer_over cfg _ r _ .nackedTerminal _ true with
    | inl hwriting =>
      obtain ⟨token, kind, hpc⟩ := hwriting
      rw [hpc]
      simp [WorkerPc.trip]
    | inr hover => exact hover.trip.trans (by omega)
  · split
    · exact Nat.le_refl 9
    · exact (writeOutcome_trip r _ true).trans (by omega)

/-- A stale writer is given up, and a row is dispatched otherwise. -/
theorem handle_trip (cfg : SubscriberConfig) (sh : Shared) (w : Worker) (r : Reading)
    (m : OutboxInnerMessage) (queued : List OutboxInnerMessage) :
    (handle cfg r w.generation (w.frame { sh with inflight := queued }) m).2.trip
      (w.stale cfg sh) ≤ if w.stale cfg sh then 6 else 9 := by
  unfold handle
  show WorkerPc.trip _ (if w.stale cfg sh then _ else _ : Frame × WorkerPc).2 ≤ _
  split
  · dsimp only
    unfold flushBuffer
    split
    · exact Nat.le_refl 6
    · simp [WorkerPc.trip]
  · exact dispatchOne_trip r m

/-- The act that takes a worker on while there are rows on the queue. -/
def driveAct (w : Worker) : WorkerAct :=
  match w.pc with
  | .top | .done => .run
  | .opening => .opened
  | .loop | .getting => .got {}
  | .consuming _ _ => .consumed .returned [] false {}
  | .writing _ _ _ _ | .flushing _ _ | .closing _ => .failed {}
  | .invalidating | .backoff => .finished

/-- A worker that may run. -/
structure Fit (cfg : SubscriberConfig) (sh : Shared) (w : Worker) : Prop where
  running : sh.running = true
  client : sh.clientGone = false
  going : w.pc.ending = false

/-- The act leads on: no stop is spawned, the worker does not end, and it is nearer to the head
    of its loop, or has taken a row. -/
def Drives (cfg : SubscriberConfig) (sh : Shared) (w : Worker) (out : StepOut) : Prop :=
  out.spawnsStop = false ∧ out.pc.ending = false ∧
  10 * out.frame.shared.inflight.length +
      out.pc.trip (cfg.engine && sh.fetchGeneration != out.generation) <
    10 * sh.inflight.length + w.pc.trip (w.stale cfg sh)

/-- A step that takes no row leaves the queue alone. -/
theorem drives_of_trip {act : WorkerAct} {out : StepOut} (h : w.step cfg sh act = some out)
    (hact : ∀ r, act ≠ .got r) (hspawns : out.spawnsStop = false)
    (hgoing : out.pc.ending = false)
    (htrip : out.pc.trip (cfg.engine && sh.fetchGeneration != out.generation) <
      w.pc.trip (w.stale cfg sh)) : Drives cfg sh w out := by
  refine ⟨hspawns, hgoing, ?_⟩
  have hworked := step_worked h
  generalize hshared : out.frame.shared = shared at hworked
  cases hworked with
  | finished hfinishes =>
    rw [hfinishes.inflight]
    omega
  | took _ _ _ => exact absurd rfl (hact _)
  | putBack _ _ _ => exact absurd rfl (hact _)

/-- A row is taken off the queue, or put back by a worker that then reconnects. -/
theorem take_step (h : Fit cfg sh w) (hqueue : sh.inflight ≠ [])
    (hpc : w.pc = .loop ∨ w.pc = .getting) :
    ∃ out, w.step cfg sh (.got {}) = some out ∧ Drives cfg sh w out := by
  obtain ⟨m, queued, hcons⟩ := exists_cons_of_ne_nil hqueue
  have hstep : w.step cfg sh (.got {}) = some (w.resumed
      (handle cfg {} w.generation (w.frame { sh with inflight := queued }) m)) := by
    cases hpc with
    | inl hloop => simp [step, hloop, hcons, h.running, resumed, frame]
    | inr hgetting => simp [step, hgetting, hcons, resumed, frame]
  refine ⟨_, hstep, rfl, handle_going _ _ _, ?_⟩
  have hinflight := handle_inflight (f := w.frame { sh with inflight := queued }) (w := w) (m := m)
    rfl {} cfg
  have htrip := handle_trip cfg sh w {} m queued
  have hhead : w.pc.trip (w.stale cfg sh) = if w.stale cfg sh then 7 else 0 := by
    cases hpc with
    | inl hloop => simp [hloop, WorkerPc.trip]
    | inr hgetting => simp [hgetting, WorkerPc.trip]
  show 10 * (handle cfg {} w.generation _ m).1.shared.inflight.length +
    (handle cfg {} w.generation _ m).2.trip (w.stale cfg sh) < _
  rw [hinflight, hhead, hcons, length_cons]
  cases hstale : w.stale cfg sh with
  | true =>
    have hback : (Shared.putNowait cfg { sh with inflight := queued } m).inflight.length ≤
        queued.length + 1 := by
      unfold Shared.putNowait
      split <;> simp
    simp only [hstale, if_true] at htrip ⊢
    omega
  | false =>
    simp only [hstale, Bool.false_eq_true, if_false] at htrip ⊢
    omega

variable (cfg) in
/-- **Some step leads a worker on while there are rows on the queue.** -/
theorem drive_step (h : Fit cfg sh w) (hqueue : sh.inflight ≠ []) :
    ∃ out, w.step cfg sh w.driveAct = some out ∧ Drives cfg sh w out := by
  have hgoing := h.going
  unfold driveAct
  cases hcase : w.pc with
  | done => simp [hcase, WorkerPc.ending] at hgoing
  | loop => exact take_step h hqueue (.inl hcase)
  | getting => exact take_step h hqueue (.inr hcase)
  | top =>
    cases hengine : cfg.engine with
    | true =>
      have hstep : w.step cfg sh .run = some (w.resumed (w.frame sh, .opening)) := by
        simp [step, hcase, h.running, h.client, hengine, resumed, frame]
      refine ⟨_, hstep, drives_of_trip hstep (by simp) rfl rfl ?_⟩
      simp [hcase, resumed, WorkerPc.trip]
    | false =>
      have hstep : w.step cfg sh .run = some
          { w.resumed (w.frame sh, .loop) with generation := sh.fetchGeneration } := by
        simp [step, hcase, h.running, h.client, hengine, resumed, frame]
      refine ⟨_, hstep, drives_of_trip hstep (by simp) rfl rfl ?_⟩
      simp [hcase, hengine, resumed, WorkerPc.trip]
  | opening =>
    have hstep : w.step cfg sh .opened = some
        { w.resumed (w.frame sh, .loop) with generation := sh.fetchGeneration } := by
      simp [step, hcase, resumed, frame]
    refine ⟨_, hstep, drives_of_trip hstep (by simp) rfl rfl ?_⟩
    simp [hcase, resumed, WorkerPc.trip]
  | consuming m startPerf =>
    have hstep : w.step cfg sh (.consumed .returned [] false {}) = some
        { w.resumed (consumeEnded cfg .returned [] {} (w.frame sh) m startPerf) with
          cancelled := w.cancelled && !(false || ConsumeEnd.returned == .cancelledError) } := by
      simp [step, hcase, resumed, frame]
    refine ⟨_, hstep, drives_of_trip hstep (by simp) rfl
      (consumeEnded_going (by simp) _ _ _ _) ?_⟩
    rw [hcase]
    exact Nat.lt_succ_of_le (writeOutcome_trip _ _ true)
  | writing m token kind reply =>
    have hstep : w.step cfg sh (.failed {}) = some
        { w.resumed (writeRaised cfg {} (w.frame sh) m) with orphan := w.pending cfg } := by
      simp [step, hcase, resumed, frame]
    refine ⟨_, hstep, drives_of_trip hstep (by simp) rfl (writeRaised_going _ _) ?_⟩
    rw [hcase]
    exact Nat.lt_succ_of_le (writeRaised_over _ _).trip
  | flushing next reply =>
    have hstep : w.step cfg sh (.failed {}) = some
        { w.resumed (flushRaised cfg (w.frame sh) next .error) with orphan := w.pending cfg } := by
      simp [step, hcase, resumed, frame]
    have hnext : next ≠ .exit .cancelled := by
      rintro rfl
      simp [hcase, WorkerPc.ending] at hgoing
    refine ⟨_, hstep, drives_of_trip hstep (by simp) rfl (flushRaised_going hnext) ?_⟩
    rw [hcase]
    exact Nat.lt_succ_of_le (flushRaised_trip _ _)
  | invalidating =>
    have hstep : w.step cfg sh .finished = some (w.resumed (unwind cfg (w.frame sh) .stale)) := by
      simp [step, hcase, resumed, frame]
    refine ⟨_, hstep, drives_of_trip hstep (by simp) rfl (unwind_going (by simp)) ?_⟩
    rw [hcase]
    exact Nat.lt_succ_of_le (unwind_trip _)
  | closing why =>
    have hstep : w.step cfg sh (.failed {}) = some (w.resumed (w.frame sh, .backoff)) := by
      simp [step, hcase, resumed, frame]
    refine ⟨_, hstep, drives_of_trip hstep (by simp) rfl rfl ?_⟩
    simp [hcase, resumed, WorkerPc.trip]
  | backoff =>
    have hstep : w.step cfg sh .finished = some (w.resumed (w.frame sh, .top)) := by
      simp [step, hcase, resumed, frame]
    refine ⟨_, hstep, drives_of_trip hstep (by simp) rfl rfl ?_⟩
    simp [hcase, resumed, WorkerPc.trip]

end Worker

/-! ## The way back of the fetch loop -/

/-- The steps a fetch loop that may run is from its next fetch. -/
def FetchPc.trip : FetchPc → Nat
  | .done | .inner => 0
  | .waiting _ | .opening => 1
  | .top => 2
  | .backoff => 3
  | .closing _ => 4
  | .probing | .fetching _ _ _ => 5

/-- What a subscriber that runs needs of the shared state, and its queue. -/
structure Shared.Serves (queue : List OutboxInnerMessage) (sh : Shared) : Prop where
  running : sh.running = true
  stopping : sh.stopping = false
  client : sh.clientGone = false
  inflight : sh.inflight = queue

namespace FetchTask

variable {cfg : SubscriberConfig} {sh : Shared} {t : FetchTask}
  {queue : List OutboxInnerMessage}

theorem afterClose_drives (h : sh.Serves queue) (why : Exit) :
    (afterClose sh why).1.Serves queue ∧ (afterClose sh why).2.trip ≤ 3 := by
  cases why <;> exact ⟨⟨h.running, h.stopping, h.client, h.inflight⟩, by
    simp [afterClose, FetchPc.trip]⟩

variable (cfg) in
theorem leave_drives (h : sh.Serves queue) (why : Exit) :
    (leave cfg sh why).1.Serves queue ∧ (leave cfg sh why).2.trip ≤ 4 := by
  unfold leave
  split
  · exact ⟨h, Nat.le_refl 4⟩
  · exact (afterClose_drives h why).imp_right fun htrip => htrip.trans (by omega)

/-- The act that takes the fetch loop on to its next fetch. -/
def driveAct (t : FetchTask) : FetchAct :=
  match t.pc with
  | .top | .inner | .done => .run
  | .opening => .opened
  | .probing | .fetching _ _ _ | .closing _ => .failed
  | .waiting _ | .backoff => .finished

variable (cfg) in
/-- **Some step leads the fetch loop on to its next fetch.** -/
theorem drive_step (h : sh.Serves queue) (hgoing : t.pc.ending = false) (hpc : t.pc ≠ .inner) :
    ∃ out, t.step cfg sh t.driveAct = some out ∧ out.shared.Serves queue ∧
      out.pc.ending = false ∧ out.pc.trip < t.pc.trip := by
  unfold driveAct
  cases hcase : t.pc with
  | done => simp [hcase, FetchPc.ending] at hgoing
  | inner => exact absurd hcase hpc
  | top =>
    cases hengine : cfg.engine <;>
      simp [step, hcase, h.running, h.stopping, h.client, hengine, h, FetchPc.trip,
        FetchPc.ending]
  | opening => simp [step, hcase, h, FetchPc.trip, FetchPc.ending]
  | waiting wait =>
    have hserves : Shared.Serves queue { sh with notifyEvent := false } :=
      ⟨h.running, h.stopping, h.client, h.inflight⟩
    simp [step, hcase, hserves, FetchPc.trip, FetchPc.ending]
  | backoff => simp [step, hcase, h, FetchPc.trip, FetchPc.ending]
  | closing why =>
    obtain ⟨hserves, _⟩ := afterClose_drives h .error
    simp only [step, hcase]
    exact ⟨_, rfl, hserves, rfl, by simp [afterClose, FetchPc.trip]⟩
  | probing =>
    obtain ⟨hserves, htrip⟩ := leave_drives cfg h .error
    simp only [step, hcase]
    exact ⟨_, rfl, hserves, leave_going (by simp), Nat.lt_succ_of_le htrip⟩
  | fetching token free reply =>
    have hunlocked : Shared.Serves queue { sh with claimLocked := false } :=
      ⟨h.running, h.stopping, h.client, h.inflight⟩
    obtain ⟨hserves, htrip⟩ := leave_drives cfg hunlocked .error
    simp only [step, hcase]
    exact ⟨_, rfl, hserves, leave_going (by simp), Nat.lt_succ_of_le htrip⟩

variable (cfg) in
/-- At the head of its loop, and with nothing on the queue, it claims a whole batch. -/
theorem claim_step (h : sh.Serves []) (hpc : t.pc = .inner) (token : UUID) :
    ∃ out, t.step cfg sh (.claim token) = some out ∧
      out.pc = .fetching token cfg.fetchBatchSize none := by
  have hfree : free cfg sh = cfg.fetchBatchSize := by simp [free, h.inflight]
  have hroom : ¬cfg.fetchBatchSize < cfg.refillAt := by
    have hvalid := cfg.valid.2.1
    simp only [SubscriberConfig.refillAt]
    omega
  simp [step, hpc, claim, hfree, hroom, h.running, h.stopping]

end FetchTask

/-! ## One subscriber -/

/-- The act recovers from what failed: no statement is run, no reply comes and no claim is made.
    Connections open, sleeps end, rows are taken off the queue, and handlers return. -/
def SubscriberAct.recovers : SubscriberAct → Bool
  | .worker _ .run | .worker _ .opened | .worker _ (.got _) => true
  | .worker _ (.failed _) | .worker _ .finished => true
  | .worker _ (.consumed how acts swallowed _) =>
    how == .returned && acts.isEmpty && !swallowed
  | .fetch .run | .fetch .opened | .fetch .failed | .fetch .finished => true
  | _ => false

namespace Worker

/-- A worker leaves the client alone. -/
theorem Worked.clientGone {cfg : SubscriberConfig} {sh sh' : Shared} {w : Worker}
    {act : WorkerAct} (h : Worked cfg sh w act sh') : sh'.clientGone = sh.clientGone := by
  cases h with
  | finished hfinishes => exact hfinishes.clientGone
  | @took _ _ m queued _ _ hfinishes =>
    obtain ⟨event, hevent⟩ := Shared.signalRefill_eq cfg { sh with inflight := queued }
    rw [hfinishes.clientGone, hevent]
  | @putBack _ _ m queued _ _ hfinishes =>
    rw [hfinishes.clientGone]
    show (Shared.putNowait cfg _ m).clientGone = _
    unfold Shared.putNowait
    split <;> rfl

end Worker

namespace Subscriber

/-- The subscriber runs, and neither its fetch loop nor the worker with the index is ending. -/
structure Able (known : Row → Prop) (cfg : SubscriberConfig) (i : Nat)
    (queue : List OutboxInnerMessage) (s : Subscriber) : Prop where
  inv : s.Inv known
  cfg_eq : s.cfg = cfg
  serves : s.shared.Serves queue
  fetch : s.fetch.pc.ending = false
  worker : ∃ w, s.workers[i]? = some w ∧ w.pc.ending = false

variable {known : Row → Prop} {cfg : SubscriberConfig} {i : Nat}
  {queue : List OutboxInnerMessage}

/-- The fetch loop comes back to the head of its loop. -/
theorem fetch_returns {s : Subscriber} (h : s.Able known cfg i queue) :
    ∃ acts s', Walk move (fun act => act.recovers = true) s acts s' ∧
      acts.length ≤ s.fetch.pc.trip ∧ s'.Able known cfg i queue ∧ s'.fetch.pc = .inner := by
  refine Walk.exists_of_measure (fun s' : Subscriber => s'.fetch.pc.trip)
    (fun s₁ hkept hpc => ?_) h
  obtain ⟨out, hout, hserves, hgoing, htrip⟩ :=
    FetchTask.drive_step s₁.cfg hkept.serves hkept.fetch hpc
  have hstep : s₁.step (.fetch s₁.fetch.driveAct) = some (s₁.afterFetch out, out.orphan) := by
    simp [step, hout]
  have hact : (SubscriberAct.fetch s₁.fetch.driveAct).recovers = true := by
    unfold FetchTask.driveAct
    cases s₁.fetch.pc <;> rfl
  refine ⟨_, _, hact, move_of_step hstep, ⟨?_, hkept.cfg_eq, hserves, hgoing, hkept.worker⟩, htrip⟩
  refine afterFetch_inv hkept.inv hout fun token htoken => ?_
  -- the way back is no claim
  rw [htoken] at hact
  cases hact

/-- How far the worker with the index is from an empty queue. -/
def toll (i : Nat) (s : Subscriber) : Nat :=
  match s.workers[i]? with
  | some w => 10 * s.shared.inflight.length + w.pc.trip (w.stale s.cfg s.shared)
  | none => 0

theorem toll_le (i : Nat) (s : Subscriber) : toll i s ≤ 10 * s.shared.inflight.length + 9 := by
  have htrip : ∀ (stale : Bool) (pc : WorkerPc), pc.trip stale ≤ 9 := by
    intro stale pc
    cases pc <;> cases stale <;> simp [WorkerPc.trip]
  unfold toll
  split
  · rename_i w _
    have hle := htrip (w.stale s.cfg s.shared) w.pc
    omega
  · omega

/-- A worker empties the queue. -/
theorem worker_empties {s : Subscriber} (h : s.Able known cfg i queue)
    (hfetch : s.fetch.pc = .inner) :
    ∃ acts s', Walk move (fun act => act.recovers = true) s acts s' ∧ acts.length ≤ toll i s ∧
      ((∃ queue', s'.Able known cfg i queue') ∧ s'.fetch.pc = .inner) ∧
      s'.shared.inflight = [] := by
  refine Walk.exists_of_measure (toll i) (fun s₁ hkept hqueue => ?_) ⟨⟨queue, h⟩, hfetch⟩
  obtain ⟨⟨queue', hable⟩, hinner⟩ := hkept
  obtain ⟨w, hw, hgoing⟩ := hable.worker
  obtain ⟨out, hout, hspawns, hgoing', htoll⟩ := Worker.drive_step s₁.cfg
    ⟨hable.serves.running, hable.serves.client, hgoing⟩ hqueue
  have hlt := (List.getElem?_eq_some_iff.mp hw).1
  have hstep : s₁.step (.worker i w.driveAct) = some (s₁.afterWorker i out, out.orphan) := by
    simp [step, hw, hout]
  have hact : (SubscriberAct.worker i w.driveAct).recovers = true := by
    unfold Worker.driveAct
    cases w.pc <;> rfl
  obtain ⟨hinv, hadvances, _⟩ := afterWorker_inv hable.inv hw hout
  have hmoved : (s₁.afterWorker i out).workers[i]? = some
      { pc := out.pc
        buffer := out.frame.buffer
        generation := out.generation
        cancelled := out.cancelled } := getElem?_set_self hlt
  refine ⟨_, _, hact, move_of_step hstep, ⟨⟨out.frame.shared.inflight, ?_⟩, hinner⟩, ?_⟩
  · exact
      { inv := hinv
        cfg_eq := hable.cfg_eq
        serves :=
          { running := hadvances.running.trans hable.serves.running
            stopping := hadvances.stopping.trans hable.serves.stopping
            client := (Worker.step_worked hout).clientGone.trans hable.serves.client
            inflight := rfl }
        fetch := hable.fetch
        worker := ⟨_, hmoved, hgoing'⟩ }
  · -- the generation the writer is compared with has not moved
    simp only [toll, hmoved, hw, Worker.stale]
    show 10 * out.frame.shared.inflight.length + out.pc.trip
      (s₁.cfg.engine && out.frame.shared.fetchGeneration != out.generation) < _
    rw [hadvances.fetchGeneration]
    exact htoll

end Subscriber

/-! ## In the system -/

/-- **A running subscriber comes to its next fetch.** From every point of every run at which a
    subscriber runs, does not stop and has its client, there is a way on to a fetch of a whole
    batch, as long as its fetch loop and one of its workers are not ending. It is no longer than
    ten steps for each row on the queue and fourteen more, and while it is gone no statement is
    run and no reply comes: what the tasks waited for at the start may fail for good. -/
theorem fetches_again (b : Backend) (start : Int) (cfgs : List SubscriberConfig)
    (acts : List Act) {index : Nat} {sub : Subscriber}
    (hsub : ((System.init start cfgs).run b acts).subscribers[index]? = some sub)
    (hrunning : sub.shared.running = true) (hstopping : sub.shared.stopping = false)
    (hclient : sub.shared.clientGone = false) {i : Nat} {w : Worker}
    (hw : sub.workers[i]? = some w) (hworker : w.pc.ending = false)
    (hfetch : sub.fetch.pc.ending = false) :
    ∃ way : List SubscriberAct, way.length ≤ 10 * sub.shared.inflight.length + 14 ∧
      (∀ act ∈ way, act.recovers = true) ∧
      let s := (System.init start cfgs).run b (acts ++ way.map (.subscriber index))
      s.world = ((System.init start cfgs).run b acts).world ∧
      ∀ token, (∀ other ∈ s.subscribers, token ∉ other.drawn) → ∃ s' sub',
        s.step b (.subscriber index (.fetch (.claim token))) = some s' ∧
        s'.subscribers[index]? = some sub' ∧
        sub'.fetch.pending sub'.cfg = some
          (.fetch token sub.cfg.queues sub.cfg.fetchBatchSize sub.cfg.leaseTtlSeconds) := by
  have hinv := (System.run_inv b start cfgs acts).subscribers index sub hsub
  have hable : sub.Able _ sub.cfg i sub.shared.inflight :=
    { inv := hinv
      cfg_eq := rfl
      serves := ⟨hrunning, hstopping, hclient, rfl⟩
      fetch := hfetch
      worker := ⟨w, hw, hworker⟩ }
  obtain ⟨way₁, sub₁, hwalk₁, hlength₁, hable₁, hinner₁⟩ := Subscriber.fetch_returns hable
  obtain ⟨way₂, sub₂, hwalk₂, hlength₂, ⟨⟨queue, hable₂⟩, hinner₂⟩, hempty⟩ :=
    Subscriber.worker_empties hable₁ hinner₁
  have hwalk := hwalk₁.trans hwalk₂
  refine ⟨way₁ ++ way₂, ?_, hwalk.allowed_of_mem, ?_⟩
  · have hfive : sub.fetch.pc.trip ≤ 5 := by
      cases sub.fetch.pc <;> simp [FetchPc.trip]
    have htoll := Subscriber.toll_le i sub₁
    rw [hable₁.serves.inflight] at htoll
    rw [length_append]
    omega
  · obtain ⟨hsub₂, hworld⟩ := System.run_walk (b := b) hsub (by simp [SubscriberAct.recovers]) hwalk
    rw [System.run_append]
    refine ⟨hworld, fun token hfresh => ?_⟩
    have hserves : sub₂.shared.Serves [] :=
      ⟨hable₂.serves.running, hable₂.serves.stopping, hable₂.serves.client, hempty⟩
    obtain ⟨out, hout, hpc⟩ := FetchTask.claim_step sub₂.cfg hserves hinner₂ token
    generalize ((System.init start cfgs).run b acts).run b
      ((way₁ ++ way₂).map (.subscriber index)) = s at hsub₂ hworld hfresh ⊢
    have hfresh : s.fresh (.fetch (.claim token)) = true := by
      simpa [System.fresh] using hfresh
    have hlt := (List.getElem?_eq_some_iff.mp hsub₂).1
    refine ⟨_, sub₂.afterFetch out, by
      simp [System.step, hsub₂, hfresh, Subscriber.step, hout]; rfl, getElem?_set_self hlt, ?_⟩
    simp [Subscriber.afterFetch, FetchTask.pending, hpc, hable₂.cfg_eq]

/-- While a handler runs, the fetch fails, and the worker's writer is stale from then on. -/
def failedFetchActs : List Act :=
  consumingActs ++ [.subscriber 0 (.fetch (.claim 8)), .subscriber 0 (.fetch .failed),
    .subscriber 0 (.fetch .finished)]

theorem fetches_again_failedFetchRun : ∃ (sub : Subscriber) (way : List SubscriberAct),
    ((System.init 0 [plainConfig]).run .postgres failedFetchActs).subscribers[0]? = some sub ∧
    sub.workers.map (fun w => w.stale sub.cfg sub.shared) = [true] ∧ way.length ≤ 14 ∧
    let s := (System.init 0 [plainConfig]).run .postgres
      (failedFetchActs ++ way.map (.subscriber 0))
    ∀ token, (∀ other ∈ s.subscribers, token ∉ other.drawn) → ∃ s' sub',
      s.step .postgres (.subscriber 0 (.fetch (.claim token))) = some s' ∧
      s'.subscribers[0]? = some sub' ∧
      sub'.fetch.pending sub'.cfg = some (.fetch token ["orders"] 1 60000000) := by
  obtain ⟨sub, w, hsub, hw, hcfg, hstale, hqueue, hrunning, hstopping, hclient, hworker, hfetch⟩ :
      ∃ (sub : Subscriber) (w : Worker),
      ((System.init 0 [plainConfig]).run .postgres failedFetchActs).subscribers[0]? = some sub ∧
      sub.workers[0]? = some w ∧ sub.cfg = plainConfig ∧
      sub.workers.map (fun w => w.stale sub.cfg sub.shared) = [true] ∧
      sub.shared.inflight.length = 0 ∧ sub.shared.running = true ∧
      sub.shared.stopping = false ∧ sub.shared.clientGone = false ∧ w.pc.ending = false ∧
      sub.fetch.pc.ending = false :=
    ⟨_, _, rfl, rfl, rfl, rfl, rfl, rfl, rfl, rfl, rfl, rfl⟩
  obtain ⟨way, hlength, _, _, hclaims⟩ := fetches_again .postgres 0 [plainConfig] failedFetchActs
    hsub hrunning hstopping hclient hw hworker hfetch
  rw [hcfg] at hclaims
  exact ⟨sub, way, hsub, hstale, by omega, hclaims⟩

end Outbox
