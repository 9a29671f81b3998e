import Outbox.ForStd.Walk
import Outbox.Spec.Drain

/-!
# A stop that is under way can finish

Once `running` is `False`, a task needs nobody to end: what it awaits may fail or run into
its timeout, and every loop it then comes to the head of is over. Two awaits have no timeout,
that for a row and that for the handler, and a task that rests at one of them has its
cancellation coming. So a call of `stop()` can return from wherever it is, whatever the
database and the handlers do.

## Key results

- `Worker.step_waits`: a worker that is not cancelled comes to no await without a timeout
- `Worker.exit_step`: one step on the way out of a worker
- `stop_can_finish`: the way of a call of `stop()` to its return
-/

namespace Outbox

open List

/-! ## The way out of a task -/

/-- The await has no timeout, or leads on to such an await. -/
def WorkerPc.waits : WorkerPc → Bool
  | .getting | .consuming _ _ | .flushing .get _ => true
  | _ => false

/-- The steps a worker that should not run is from its end, at most. -/
def WorkerPc.stepsLeft : WorkerPc → Nat
  | .done => 0
  | .top => 1
  | .backoff => 2
  | .opening | .closing _ => 3
  | .flushing .get _ => 7
  | .flushing _ _ => 4
  | .loop | .invalidating => 5
  | .writing _ _ _ _ => 6
  | .getting | .consuming _ _ => 7

theorem WorkerPc.waits_of_stepsLeft {pc : WorkerPc} (h : pc.stepsLeft ≤ 6) :
    pc.waits = false := by
  cases pc with
  | getting | consuming _ _ => simp [stepsLeft] at h
  | flushing next reply => cases next <;> simp_all [stepsLeft, waits]
  | _ => rfl

/-- The steps the fetch loop is from its end, at most. -/
def FetchPc.stepsLeft : FetchPc → Nat
  | .done => 0
  | .top => 1
  | .backoff => 2
  | .opening | .closing _ => 3
  | .inner | .probing | .fetching _ _ _ => 4
  | .waiting _ => 5

namespace Worker

variable {cfg : SubscriberConfig} {f : Frame}

theorem leave_stepsLeft (why : Exit) : (leave cfg f why).2.stepsLeft ≤ 3 := by
  unfold leave
  dsimp only
  split
  · exact Nat.le_refl 3
  · cases why <;> simp [afterClose, WorkerPc.stepsLeft]

theorem unwind_stepsLeft (why : Exit) : (unwind cfg f why).2.stepsLeft ≤ 4 := by
  unfold unwind flushBuffer
  split
  · exact (leave_stepsLeft why).trans (by omega)
  · exact Nat.le_refl 4

/-- A flush that raised has nothing left to flush on the way out. -/
theorem flushRaised_stepsLeft (next : AfterFlush) (why : Exit) :
    (flushRaised cfg f next why).2.stepsLeft ≤ 3 := by
  unfold flushRaised
  dsimp only
  split
  · exact leave_stepsLeft _
  · exact leave_stepsLeft why

theorem flushed_stepsLeft {deleted : Finset (Nat × UUID)} {next : AfterFlush}
    (hnext : next ≠ .get) : (flushed cfg f deleted next).2.stepsLeft ≤ 5 := by
  unfold flushed
  cases next with
  | get => exact absurd rfl hnext
  | exit why => exact (leave_stepsLeft why).trans (by omega)
  | _ => exact Nat.le_refl 5

/-- Where a worker rests once a dispatch is over: at the head of its loop, in a flush that has
    become due, or on its way out with the error. -/
inductive Over (cfg : SubscriberConfig) : WorkerPc → Prop where
  | loop : Over cfg .loop
  | flushes : Over cfg (.flushing .loop none)
  | unwinds (f : Frame) : Over cfg (unwind cfg f .error).2

theorem afterDispatch_over (r : Reading) (m : OutboxInnerMessage) (buffered : Bool) :
    Over cfg (afterDispatch cfg r f m buffered).2 := by
  have hdue : ∀ (g : Frame) (due : Bool),
      Over cfg (if due then flushBuffer cfg g .loop else (g, .loop)).2 := by
    intro g due
    split
    · unfold flushBuffer
      split
      · exact .loop
      · exact .flushes
    · exact .loop
  unfold afterDispatch
  exact hdue _ _

theorem writeRaised_over (r : Reading) (m : OutboxInnerMessage) :
    Over cfg (writeRaised cfg r f m).2 := by
  unfold writeRaised
  dsimp only
  split
  · exact .unwinds _
  · exact afterDispatch_over r m false

/-- An outcome is written inline, or the dispatch is over. -/
theorem flushOrBuffer_over (r : Reading) (m : OutboxInnerMessage) (event : Event)
    (tags : Tags) (useBuffer : Bool) :
    (∃ token kind, (flushOrBuffer cfg r f m event tags useBuffer).2 =
      .writing m token kind none) ∨
    Over cfg (flushOrBuffer cfg r f m event tags useBuffer).2 := by
  unfold flushOrBuffer
  split
  · exact .inr (afterDispatch_over r m true)
  · split
    · exact .inr (afterDispatch_over r m false)
    · split
      · exact .inr (writeRaised_over r m)
      · exact .inl ⟨_, _, rfl⟩

theorem writeOutcome_over (r : Reading) (m : OutboxInnerMessage) (useBuffer : Bool) :
    (∃ m' token kind, (writeOutcome cfg r f m useBuffer).2 = .writing m' token kind none) ∨
    Over cfg (writeOutcome cfg r f m useBuffer).2 := by
  unfold writeOutcome
  split
  · exact .inr (afterDispatch_over r m false)
  · dsimp only
    split
    · exact (flushOrBuffer_over r _ _ _ useBuffer).imp_left fun h => ⟨_, h⟩
    · split
      · exact .inr (afterDispatch_over r _ false)
      · exact .inl ⟨_, _, _, rfl⟩
    · exact (flushOrBuffer_over r _ _ _ useBuffer).imp_left fun h => ⟨_, h⟩

theorem Over.stepsLeft {pc : WorkerPc} (h : Over cfg pc) : pc.stepsLeft ≤ 5 := by
  cases h with
  | loop => exact Nat.le_refl 5
  | flushes => simp [WorkerPc.stepsLeft]
  | unwinds f => exact (unwind_stepsLeft .error).trans (by omega)

theorem writeOutcome_stepsLeft (r : Reading) (m : OutboxInnerMessage) (useBuffer : Bool) :
    (writeOutcome cfg r f m useBuffer).2.stepsLeft ≤ 6 := by
  cases writeOutcome_over r m useBuffer with
  | inl hwriting =>
    obtain ⟨m', token, kind, hpc⟩ := hwriting
    rw [hpc]
    exact Nat.le_refl 6
  | inr hover => exact hover.stepsLeft.trans (by omega)

theorem consumeEnded_stepsLeft (how : ConsumeEnd) (acts : List HandlerAct) (r : Reading)
    (m : OutboxInnerMessage) (startPerf : Int) :
    (consumeEnded cfg how acts r f m startPerf).2.stepsLeft ≤ 6 := by
  unfold consumeEnded
  dsimp only
  split
  · exact writeOutcome_stepsLeft r _ true
  · exact writeOutcome_stepsLeft r _ true
  · exact writeOutcome_stepsLeft r _ false
  · exact (afterDispatch_over r _ false).stepsLeft.trans (by omega)
  · exact (unwind_stepsLeft .cancelled).trans (by omega)

theorem writeReplied_stepsLeft {r : Reading} {m : OutboxInnerMessage} {kind : WriteKind}
    {reply : Reply} {out : Frame × WorkerPc}
    (h : writeReplied cfg r f m kind reply = some out) : out.2.stepsLeft ≤ 5 := by
  unfold writeReplied at h
  split at h
  · obtain rfl := Option.some_inj.mp h
    exact (afterDispatch_over r m false).stepsLeft
  · obtain rfl := Option.some_inj.mp h
    exact (afterDispatch_over r m false).stepsLeft
  · obtain rfl := Option.some_inj.mp h
    exact (writeRaised_over r m).stepsLeft
  · obtain rfl := Option.some_inj.mp h
    exact (afterDispatch_over r m false).stepsLeft
  · obtain rfl := Option.some_inj.mp h
    exact (afterDispatch_over r m false).stepsLeft
  · cases h

theorem cancelAt_stepsLeft (pc : WorkerPc) : (cancelAt cfg f pc).2.stepsLeft ≤ 4 := by
  unfold cancelAt
  split
  · exact unwind_stepsLeft .cancelled
  · exact unwind_stepsLeft .cancelled
  · exact unwind_stepsLeft .cancelled
  · exact unwind_stepsLeft .cancelled
  · exact (flushRaised_stepsLeft _ .cancelled).trans (by omega)
  · exact Nat.zero_le 4

/-! ## Awaits without a timeout -/

variable {sh : Shared} {w : Worker}

/-- **A worker that should not run rests at an await without a timeout only if it has a
    cancellation coming.** -/
theorem step_waits (hrunning : sh.running = false) {act : WorkerAct} {out : StepOut}
    (hstep : w.step cfg sh act = some out) (h : w.pc.waits = true → w.cancelled = true)
    (hwaits : out.pc.waits = true) : out.cancelled = true := by
  have hmoves : ¬out.pc.stepsLeft ≤ 6 := by
    intro hle
    rw [WorkerPc.waits_of_stepsLeft hle] at hwaits
    cases hwaits
  cases step_stepped hstep with
  | stops _ _ => exact absurd ((unwind_stepsLeft .normal).trans (by omega)) hmoves
  | idles hpc _ =>
    -- the loop is over before it looks at the queue
    have heq : w.step cfg sh .run = some (w.resumed (unwind cfg (w.frame sh) .normal)) := by
      simp [step, hpc, hrunning, resumed, frame]
    obtain hsame := Option.some_inj.mp (hstep.symm.trans heq)
    rw [hsame] at hmoves
    exact absurd ((unwind_stepsLeft .normal).trans (by omega)) hmoves
  | took hpc _ => simp [step, hpc, hrunning] at hstep
  | awaited hpc _ => exact h (by rw [hpc]; rfl)
  | consumed _ => exact absurd (consumeEnded_stepsLeft _ _ _ _ _) hmoves
  | wrote _ hnext => exact absurd ((writeReplied_stepsLeft hnext).trans (by omega)) hmoves
  | writeFailed _ => exact absurd ((writeRaised_over _ _).stepsLeft.trans (by omega)) hmoves
  | @deleted _ next _ hpc =>
    by_cases hnext : next = .get
    · subst hnext
      exact h (by rw [hpc]; rfl)
    · exact absurd ((flushed_stepsLeft hnext).trans (by omega)) hmoves
  | flushFailed _ => exact absurd ((flushRaised_stepsLeft _ _).trans (by omega)) hmoves
  | invalidated _ | invalidateFailed _ =>
    exact absurd ((unwind_stepsLeft _).trans (by omega)) hmoves
  | @closed why _ => exact absurd (by cases why <;> simp [resumed, afterClose,
      WorkerPc.stepsLeft]) hmoves
  | cancelled _ _ _ => exact absurd ((cancelAt_stepsLeft _).trans (by omega)) hmoves
  | _ => exact absurd (by simp [resumed, WorkerPc.stepsLeft]) hmoves

/-- The act that takes a worker on its way out. -/
def exitAct (w : Worker) : WorkerAct :=
  match w.pc with
  | .top | .loop | .done => .run
  | .opening | .writing _ _ _ _ | .flushing _ _ | .invalidating => .failed {}
  | .backoff | .closing _ => .finished
  | .getting => .cancel
  | .consuming _ _ => .consumed .cancelledError [] false {}

variable (cfg) in
/-- **One step on the way out.** -/
theorem exit_step (hrunning : sh.running = false) (h : w.pc.waits = true → w.cancelled = true)
    (hpc : w.pc ≠ .done) : ∃ out, w.step cfg sh w.exitAct = some out ∧
      out.pc.stepsLeft < w.pc.stepsLeft ∧ out.spawnsStop = false := by
  unfold exitAct
  cases hcase : w.pc with
  | done => exact absurd hcase hpc
  | top => simp [step, hcase, hrunning, WorkerPc.stepsLeft]
  | opening | backoff => simp [step, hcase, WorkerPc.stepsLeft]
  | closing why => cases why <;> simp [step, hcase, afterClose, WorkerPc.stepsLeft]
  | loop =>
    have hleft : (unwind cfg (w.frame sh) .normal).2.stepsLeft ≤ 4 := unwind_stepsLeft .normal
    simp only [step, hcase, hrunning]
    exact ⟨_, rfl, Nat.lt_succ_of_le hleft, rfl⟩
  | getting =>
    have hleft : (unwind cfg (w.frame sh) .cancelled).2.stepsLeft ≤ 4 :=
      unwind_stepsLeft .cancelled
    have hcancelled : w.cancelled = true := h (by rw [hcase]; rfl)
    simp only [step, hcase, hcancelled, if_true]
    exact ⟨_, rfl, Nat.lt_of_le_of_lt hleft (by simp [WorkerPc.stepsLeft]), rfl⟩
  | consuming m startPerf =>
    simp only [step, hcase]
    exact ⟨_, rfl, Nat.lt_succ_of_le (consumeEnded_stepsLeft _ _ _ _ _), rfl⟩
  | writing m token kind reply =>
    simp only [step, hcase]
    exact ⟨_, rfl, Nat.lt_succ_of_le (writeRaised_over _ _).stepsLeft, rfl⟩
  | flushing next reply =>
    have hleft : (flushRaised cfg (w.frame sh) next .error).2.stepsLeft ≤ 3 :=
      flushRaised_stepsLeft next .error
    simp only [step, hcase]
    refine ⟨_, rfl, Nat.lt_of_le_of_lt hleft ?_, rfl⟩
    cases next <;> simp [WorkerPc.stepsLeft]
  | invalidating =>
    simp only [step, hcase]
    exact ⟨_, rfl, Nat.lt_succ_of_le (unwind_stepsLeft _), rfl⟩

end Worker

namespace FetchTask

variable {cfg : SubscriberConfig} {sh : Shared} {t : FetchTask}

theorem leave_stepsLeft (sh : Shared) (why : Exit) : (leave cfg sh why).2.stepsLeft ≤ 3 := by
  unfold leave
  split
  · exact Nat.le_refl 3
  · cases why <;> simp [afterClose, FetchPc.stepsLeft]

/-- The act that takes the fetch loop on its way out. -/
def exitAct (t : FetchTask) : FetchAct :=
  match t.pc with
  | .top | .inner | .done => .run
  | .opening | .probing | .fetching _ _ _ => .failed
  | .backoff | .closing _ | .waiting _ => .finished

variable (cfg) in
/-- The fetch loop rests at no await without a timeout. -/
theorem exit_step (hrunning : sh.running = false) (hpc : t.pc ≠ .done) :
    ∃ out, t.step cfg sh t.exitAct = some out ∧ out.pc.stepsLeft < t.pc.stepsLeft := by
  unfold exitAct
  cases hcase : t.pc with
  | done => exact absurd hcase hpc
  | top => simp [step, hcase, hrunning, FetchPc.stepsLeft]
  | opening | backoff => simp [step, hcase, afterClose, FetchPc.stepsLeft]
  | waiting wait => simp [step, hcase, FetchPc.stepsLeft]
  | closing why => cases why <;> simp [step, hcase, afterClose, FetchPc.stepsLeft]
  | inner =>
    simp only [step, hcase, hrunning]
    exact ⟨_, rfl, Nat.lt_succ_of_le (leave_stepsLeft sh .normal)⟩
  | probing =>
    simp only [step, hcase]
    exact ⟨_, rfl, Nat.lt_succ_of_le (leave_stepsLeft sh .error)⟩
  | fetching token free reply =>
    simp only [step, hcase]
    exact ⟨_, rfl, Nat.lt_succ_of_le (leave_stepsLeft _ .error)⟩

/-- No step of the fetch loop starts or stops the subscriber. -/
theorem step_running {act : FetchAct} {out : StepOut} (h : t.step cfg sh act = some out) :
    out.shared.running = sh.running := by
  cases step_stepped h with
  | claimed _ _ => rfl
  | queued _ _ => exact enqueue_running cfg sh _
  | other hshared _ _ _ _ _ => exact hshared.running

end FetchTask

/-! ## One subscriber -/

namespace Subscriber

/-- Once the subscriber should not run, no worker rests at an await without a timeout unless
    it has a cancellation coming; and it should not while a call waits for its tasks. -/
structure Halts (s : Subscriber) : Prop where
  workers : s.shared.running = false → ∀ w ∈ s.workers, w.pc.waits = true → w.cancelled = true
  stops : ∀ passedLock timedOut, .gathering passedLock timedOut ∈ s.stops →
    s.shared.running = false

variable {known : Row → Prop} {s s' : Subscriber}

/-- Every task that has not ended is cancelled. -/
theorem cancelTasks_workers {w : Worker} (hw : w ∈ s.cancelTasks.workers)
    (hwaits : w.pc.waits = true) : w.cancelled = true := by
  obtain ⟨w', _, rfl⟩ := mem_map.mp hw
  cases hpc : w'.pc <;> simp [hpc, WorkerPc.waits] at hwaits ⊢

theorem afterDrain_halts (s : Subscriber) (call : Nat) (passedLock timedOut : Bool) :
    (s.afterDrain call passedLock timedOut).Halts where
  workers _ _ hw hwaits := cancelTasks_workers hw hwaits
  stops _ _ _ := rfl

/-- A call of `stop()` has moved on, other than to wait for the tasks. -/
theorem Halts.restop (h : s.Halts) (sh : Shared) (call : Nat) (pc : StopPc)
    (hrunning : sh.running = s.shared.running)
    (hpc : ∀ passedLock timedOut, pc ≠ .gathering passedLock timedOut) :
    Halts { s with shared := sh, stops := s.stops.set call pc } where
  workers hrun := h.workers (hrunning ▸ hrun)
  stops passedLock timedOut hmem := by
    cases mem_or_eq_of_mem_set hmem with
    | inl hold => exact hrunning.trans (h.stops passedLock timedOut hold)
    | inr hnew => exact absurd hnew.symm (hpc passedLock timedOut)

theorem StopMoved.halts (h : s.Halts) {call : Nat} (hmoved : s.StopMoved call s') :
    s'.Halts := by
  cases hmoved with
  | begun _ => exact h.restop _ call .locking rfl (by simp)
  | empty _ _ _ => exact afterDrain_halts s _ _ _
  | waits _ _ _ => exact h.restop s.shared call _ rfl (by simp)
  | woken _ _ => exact afterDrain_halts s _ _ _
  | returned _ _ =>
    exact ⟨fun _ w hw => (nomatch hw),
      (h.restop s.shared.resetInflight call (.returned _ _) rfl (by simp)).stops⟩

theorem afterWorker_halts (hinv : s.Inv known) (h : s.Halts) {i : Nat} {w : Worker}
    (hw : s.workers[i]? = some w) {act : WorkerAct} {out : Worker.StepOut}
    (hstep : w.step s.cfg s.shared act = some out) : (s.afterWorker i out).Halts := by
  have hrunning : out.frame.shared.running = s.shared.running :=
    (afterWorker_inv hinv hw hstep).2.1.running
  refine ⟨fun hrun w' hw' hwaits => ?_, fun passedLock timedOut hmem => ?_⟩
  · have hrun : s.shared.running = false := hrunning.symm.trans hrun
    cases mem_or_eq_of_mem_set hw' with
    | inl hold => exact h.workers hrun w' hold hwaits
    | inr hnew =>
      subst hnew
      exact Worker.step_waits hrun hstep (h.workers hrun w (mem_of_getElem? hw)) hwaits
  · have hmem : .gathering passedLock timedOut ∈
        if out.spawnsStop then s.stops ++ [.starting] else s.stops := hmem
    refine hrunning.trans (h.stops passedLock timedOut ?_)
    split at hmem
    · simpa using hmem
    · exact hmem

theorem afterFetch_halts (h : s.Halts) {act : FetchAct} {out : FetchTask.StepOut}
    (hstep : s.fetch.step s.cfg s.shared act = some out) : (s.afterFetch out).Halts := by
  have hrunning := FetchTask.step_running hstep
  exact ⟨fun hrun => h.workers (hrunning.symm.trans hrun),
    fun passedLock timedOut hmem => hrunning.trans (h.stops passedLock timedOut hmem)⟩

theorem step_halts (hinv : s.Inv known) (h : s.Halts) {act : SubscriberAct}
    {orphan : Option Stmt} (hstep : s.step act = some (s', orphan)) : s'.Halts := by
  cases step_stepped hstep with
  | started _ hover =>
    refine ⟨fun hrun => (nomatch hrun), fun passedLock timedOut hmem => ?_⟩
    cases hover _ hmem
  | stopCalled => exact ⟨h.workers, fun passedLock timedOut hmem =>
      h.stops passedLock timedOut (by simpa using hmem)⟩
  | stopRan hmoved => exact hmoved.halts h
  | lockTimedOut _ => exact afterDrain_halts s _ _ _
  | joinTimedOut _ => exact afterDrain_halts s _ _ _
  | @drainAborted call _ _ => exact h.restop s.shared call .aborted rfl (by simp)
  | @gatherAborted call _ _ _ =>
    exact ⟨fun _ w hw hwaits => cancelTasks_workers hw hwaits,
      (h.restop s.shared call .aborted rfl (by simp)).stops⟩
  | notified | ignored | client _ => exact ⟨h.workers, h.stops⟩
  | worker hw hout => exact afterWorker_halts hinv h hw hout
  | fetch hout => exact afterFetch_halts h hout

/-- A reply changes no await, and cancels nobody. -/
theorem deliverWorker_halts (h : s.Halts) (i : Nat) {w : Worker} (hw : s.workers[i]? = some w)
    (reply : Reply) : Halts { s with workers := s.workers.set i (w.deliver reply) } := by
  refine ⟨fun hrun w' hw' hwaits => ?_, h.stops⟩
  cases mem_or_eq_of_mem_set hw' with
  | inl hold => exact h.workers hrun w' hold hwaits
  | inr hnew =>
    subst hnew
    have hold := h.workers hrun w (mem_of_getElem? hw)
    unfold Worker.deliver at hwaits ⊢
    split at hwaits
    · cases hwaits
    · rename_i next _ hpc
      rw [hpc] at hold
      cases next <;> first | exact hold rfl | cases hwaits
    · exact hold hwaits

end Subscriber

/-! ## The way of a stop -/

/-- The act needs nobody: the code runs on where it does not wait, an await fails or runs into
    its timeout, a close or a sleep is over, or a task or a handler ends when it is
    cancelled. -/
def SubscriberAct.unaided : SubscriberAct → Bool
  | .stopRun _ | .stopTimeout _ => true
  | .worker _ .run | .worker _ (.failed _) | .worker _ .finished | .worker _ .cancel => true
  | .worker _ (.consumed how acts swallowed _) =>
    how == .cancelledError && acts.isEmpty && !swallowed
  | .fetch .run | .fetch .failed | .fetch .finished => true
  | _ => false

namespace Subscriber

/-- One step, without the statement it leaves behind. -/
def move (s : Subscriber) (act : SubscriberAct) : Option Subscriber := (s.step act).map Prod.fst

theorem move_of_step {s s' : Subscriber} {act : SubscriberAct} {orphan : Option Stmt}
    (h : s.step act = some (s', orphan)) : s.move act = some s' := by
  simp [move, h]

/-- The subscriber gets from the one state to the other by itself. -/
abbrev Exits (s : Subscriber) (acts : List SubscriberAct) (s' : Subscriber) : Prop :=
  Walk move (fun act => act.unaided = true) s acts s'

theorem Exits.next {s s' s'' : Subscriber} {act : SubscriberAct} {acts : List SubscriberAct}
    {orphan : Option Stmt} (hact : act.unaided = true) (hstep : s.step act = some (s', orphan))
    (h : s'.Exits acts s'') : s.Exits (act :: acts) s'' :=
  .cons hact (move_of_step hstep) h

/-- The subscriber should not run, and its calls of `stop()` are these. -/
structure Quits (known : Row → Prop) (stops : List StopPc) (s : Subscriber) : Prop where
  inv : s.Inv known
  halts : s.Halts
  running : s.shared.running = false
  stops : s.stops = stops

variable {known : Row → Prop} {stops : List StopPc}

/-- The steps the worker with the index is from its end, at most. -/
def stepsLeft (s : Subscriber) (i : Nat) : Nat :=
  match s.workers[i]? with
  | some w => w.pc.stepsLeft
  | none => 0

/-- A worker finds its way out. -/
theorem worker_exits {s : Subscriber} (h : s.Quits known stops) {i : Nat} {w : Worker}
    (hw : s.workers[i]? = some w) : ∃ acts s', s.Exits acts s' ∧
      acts.length ≤ w.pc.stepsLeft ∧ s'.Quits known stops ∧ s'.fetch = s.fetch ∧
      ∃ w', w'.pc = .done ∧ s'.workers = s.workers.set i w' := by
  obtain ⟨hlt, hget⟩ := List.getElem?_eq_some_iff.mp hw
  have hway : ∃ acts s', s.Exits acts s' ∧ acts.length ≤ s.stepsLeft i ∧
      (s'.Quits known stops ∧ s'.fetch = s.fetch ∧ ∃ w', s'.workers = s.workers.set i w') ∧
      ∀ w', s'.workers[i]? = some w' → w'.pc = .done := by
    refine Walk.exists_of_measure (stepsLeft · i) (fun s₁ hkept hgoal => ?_)
      ⟨h, rfl, w, by rw [← hget, set_getElem_self]⟩
    obtain ⟨hquits, hfetch, w', hworkers⟩ := hkept
    have hw' : s₁.workers[i]? = some w' := by
      rw [hworkers]
      exact getElem?_set_self hlt
    have hpc : w'.pc ≠ .done := fun hdone => hgoal fun w'' hw'' => by
      cases hw'.symm.trans hw''
      exact hdone
    have hwaits := hquits.halts.workers hquits.running w' (mem_of_getElem? hw')
    obtain ⟨out, hout, hleft, hspawn⟩ := Worker.exit_step s₁.cfg hquits.running hwaits hpc
    have hstep : s₁.step (.worker i w'.exitAct) = some (s₁.afterWorker i out, out.orphan) := by
      simp [step, hw', hout]
    have hact : (SubscriberAct.worker i w'.exitAct).unaided = true := by
      unfold Worker.exitAct
      cases w'.pc <;> rfl
    obtain ⟨hinv, hadvances, _⟩ := afterWorker_inv hquits.inv hw' hout
    have hnext : (s₁.afterWorker i out).Quits known stops := by
      refine ⟨hinv, afterWorker_halts hquits.inv hquits.halts hw' hout,
        hadvances.running.trans hquits.running, ?_⟩
      simp [afterWorker, hspawn, hquits.stops]
    have hset : (s₁.afterWorker i out).workers = s.workers.set i
        { pc := out.pc
          buffer := out.frame.buffer
          generation := out.generation
          cancelled := out.cancelled } := by
      show s₁.workers.set i _ = _
      rw [hworkers]
      exact set_set _
    refine ⟨_, _, hact, move_of_step hstep, ⟨hnext, hfetch, _, hset⟩, ?_⟩
    show stepsLeft _ i < stepsLeft s₁ i
    simpa only [stepsLeft, hset, hw', getElem?_set_self hlt] using hleft
  obtain ⟨acts, s', hexits, hlength, ⟨hquits, hfetch, w', hworkers⟩, hdone⟩ := hway
  refine ⟨acts, s', hexits, by simpa [stepsLeft, hw] using hlength, hquits, hfetch, w',
    hdone w' ?_, hworkers⟩
  rw [hworkers]
  exact getElem?_set_self hlt

/-- The workers find their ways out, one after the other. -/
theorem workers_exit {s : Subscriber} (h : s.Quits known stops) (k : Nat)
    (hk : k ≤ s.workers.length) : ∃ acts s', s.Exits acts s' ∧ acts.length ≤ 7 * k ∧
      s'.Quits known stops ∧ s'.fetch = s.fetch ∧ s'.workers.length = s.workers.length ∧
      ∀ j < k, ∀ w, s'.workers[j]? = some w → w.pc = .done := by
  induction k with
  | zero =>
    exact ⟨[], s, .nil s, Nat.le_refl 0, h, rfl, rfl, fun j hj => absurd hj (Nat.not_lt_zero j)⟩
  | succ k ih =>
    obtain ⟨acts, s', hexits, hlength, hquits, hfetch, hworkers, hdone⟩ := ih (by omega)
    have hlt : k < s'.workers.length := by omega
    obtain ⟨acts', s'', hexits', hlength', hquits', hfetch', w', hdone', hset⟩ :=
      worker_exits hquits (getElem?_eq_getElem hlt)
    have hleft : ∀ pc : WorkerPc, pc.stepsLeft ≤ 7 := by
      intro pc
      cases pc with
      | flushing next _ => cases next <;> simp [WorkerPc.stepsLeft]
      | _ => simp [WorkerPc.stepsLeft]
    refine ⟨acts ++ acts', s'', hexits.trans hexits', ?_, hquits', hfetch'.trans hfetch, ?_, ?_⟩
    · have hseven := hleft s'.workers[k].pc
      rw [length_append]
      omega
    · rw [hset, length_set, hworkers]
    · intro j hj w hw
      rw [hset] at hw
      by_cases hjk : k = j
      · subst hjk
        rw [getElem?_set_self hlt] at hw
        cases hw
        exact hdone'
      · rw [getElem?_set_ne hjk] at hw
        exact hdone j (by omega) w hw

/-- So does the fetch loop. -/
theorem fetch_exits {s : Subscriber} (h : s.Quits known stops) : ∃ acts s', s.Exits acts s' ∧
    acts.length ≤ s.fetch.pc.stepsLeft ∧ (s'.Quits known stops ∧ s'.workers = s.workers) ∧
    s'.fetch.pc = .done := by
  refine Walk.exists_of_measure (fun s' : Subscriber => s'.fetch.pc.stepsLeft)
    (fun s₁ hkept hpc => ?_) ⟨h, rfl⟩
  obtain ⟨hquits, hworkers⟩ := hkept
  obtain ⟨out, hout, hleft⟩ := FetchTask.exit_step s₁.cfg hquits.running hpc
  have hstep : s₁.step (.fetch s₁.fetch.exitAct) = some (s₁.afterFetch out, out.orphan) := by
    simp [step, hout]
  have hact : (SubscriberAct.fetch s₁.fetch.exitAct).unaided = true := by
    unfold FetchTask.exitAct
    cases s₁.fetch.pc <;> rfl
  refine ⟨_, _, hact, move_of_step hstep, ⟨?_, hworkers⟩, hleft⟩
  refine ⟨afterFetch_inv hquits.inv hout fun token htoken => ?_,
    afterFetch_halts hquits.halts hout,
    (FetchTask.step_running hout).trans hquits.running, hquits.stops⟩
  -- the way out is no claim
  rw [htoken] at hact
  cases hact

/-- A call of `stop()` whose drain is over returns. -/
theorem gathering_exits {s : Subscriber} (hinv : s.Inv known) (h : s.Halts) {call : Nat}
    {passedLock timedOut : Bool} (hcall : s.stops[call]? = some (.gathering passedLock timedOut)) :
    ∃ acts s', s.Exits acts s' ∧ acts.length ≤ 7 * s.workers.length + 6 ∧
      s'.stops[call]? = some (.returned passedLock timedOut) ∧ s'.tasksDone = true ∧
      s'.workers = [] ∧ s'.shared.running = false ∧ s'.shared.inflight = [] ∧
      s'.shared.unfinished = 0 := by
  have hquits : s.Quits known s.stops :=
    ⟨hinv, h, h.stops _ _ (mem_of_getElem? hcall), rfl⟩
  obtain ⟨acts, s₁, hexits, hlength, hquits₁, hfetch₁, hworkers₁, hdone₁⟩ :=
    workers_exit hquits s.workers.length (Nat.le_refl _)
  obtain ⟨acts', s₂, hexits', hlength', ⟨hquits₂, hworkers₂⟩, hdone₂⟩ := fetch_exits hquits₁
  have hworkersDone : s₂.workersDone = true := by
    refine all_eq_true.mpr fun w hw => ?_
    obtain ⟨j, hj⟩ := mem_iff_getElem?.mp hw
    rw [hworkers₂] at hj
    have hlt := (List.getElem?_eq_some_iff.mp hj).1
    rw [hdone₁ j (hworkers₁ ▸ hlt) w hj]
  have hdone : s₂.tasksDone = true := by simp [tasksDone, hworkersDone, hdone₂]
  have hcall₂ : s₂.stops[call]? = some (.gathering passedLock timedOut) := hquits₂.stops ▸ hcall
  have hstep : s₂.step (.stopRun call) = some ({ s₂ with
      shared := s₂.shared.resetInflight
      workers := []
      stops := s₂.stops.set call (.returned passedLock timedOut)
      log := s₂.log ++ s₂.shared.inflight.map fun m => .discarded m.key }, none) := by
    simp [step, stopRun, hcall₂, hdone]
  refine ⟨_, _, (hexits.trans hexits').trans (Exits.next rfl hstep (.nil _)), ?_, ?_, ?_, rfl,
    hquits₂.running, rfl, rfl⟩
  · have hfive : s₁.fetch.pc.stepsLeft ≤ 5 := by
      cases s₁.fetch.pc <;> simp [FetchPc.stepsLeft]
    simp only [length_append, length_singleton]
    omega
  · exact getElem?_set_self (List.getElem?_eq_some_iff.mp hcall₂).1
  · simp [tasksDone, workersDone, hdone₂]

/-- The drain of a call times out. -/
theorem locking_exits {s : Subscriber} (hinv : s.Inv known) {call : Nat}
    (hcall : s.stops[call]? = some .locking ∨ ∃ seen, s.stops[call]? = some (.joining seen)) :
    ∃ acts s', s.Exits acts s' ∧ acts.length ≤ 7 * s.workers.length + 7 ∧
      (∃ passedLock timedOut, s'.stops[call]? = some (.returned passedLock timedOut)) ∧
      s'.tasksDone = true ∧ s'.workers = [] ∧ s'.shared.running = false ∧
      s'.shared.inflight = [] ∧ s'.shared.unfinished = 0 := by
  obtain ⟨passedLock, hlt, hstep⟩ : ∃ passedLock, call < s.stops.length ∧
      s.step (.stopTimeout call) = some (s.afterDrain call passedLock true, none) := by
    obtain hcall | ⟨seen, hcall⟩ := hcall
    · exact ⟨false, (List.getElem?_eq_some_iff.mp hcall).1, by simp [step, stopTimeout, hcall]⟩
    · exact ⟨true, (List.getElem?_eq_some_iff.mp hcall).1, by simp [step, stopTimeout, hcall]⟩
  have hgathering : (s.afterDrain call passedLock true).stops[call]? =
      some (.gathering passedLock true) := getElem?_set_self hlt
  obtain ⟨acts, s', hexits, hlength, hreturned, hrest⟩ := gathering_exits
    (afterDrain_inv hinv call passedLock true) (afterDrain_halts s call passedLock true) hgathering
  refine ⟨_, s', Exits.next rfl hstep hexits, ?_, ⟨_, _, hreturned⟩, hrest⟩
  have hworkers : (s.afterDrain call passedLock true).workers.length = s.workers.length :=
    length_map _
  rw [length_cons]
  omega

/-- **A call of `stop()` that is under way finds its way to the return.** -/
theorem stop_exits {s : Subscriber} (hinv : s.Inv known) (h : s.Halts) {call : Nat} {pc : StopPc}
    (hcall : s.stops[call]? = some pc) (hover : pc.over = false) :
    ∃ acts s', s.Exits acts s' ∧ acts.length ≤ 7 * s.workers.length + 8 ∧
      (∃ passedLock timedOut, s'.stops[call]? = some (.returned passedLock timedOut)) ∧
      s'.tasksDone = true ∧ s'.workers = [] ∧ s'.shared.running = false ∧
      s'.shared.inflight = [] ∧ s'.shared.unfinished = 0 := by
  cases pc with
  | starting =>
    have hstep : s.step (.stopRun call) = some ({ s with
        shared := { s.shared with stopping := true, notifyEvent := true }
        stops := s.stops.set call .locking }, none) := by
      simp [step, stopRun, hcall]
    have hlt := (List.getElem?_eq_some_iff.mp hcall).1
    have hbegun : Inv known { s with
        shared := { s.shared with stopping := true, notifyEvent := true }
        stops := s.stops.set call .locking } := reshared_inv hinv rfl rfl rfl rfl
    obtain ⟨acts, s', hexits, hlength, hrest⟩ :=
      locking_exits hbegun (.inl (getElem?_set_self hlt))
    exact ⟨_, s', Exits.next rfl hstep hexits, Nat.succ_le_succ hlength, hrest⟩
  | locking =>
    obtain ⟨acts, s', hexits, hlength, hrest⟩ := locking_exits hinv (.inl hcall)
    exact ⟨acts, s', hexits, by omega, hrest⟩
  | joining seen =>
    obtain ⟨acts, s', hexits, hlength, hrest⟩ := locking_exits hinv (.inr ⟨seen, hcall⟩)
    exact ⟨acts, s', hexits, by omega, hrest⟩
  | gathering passedLock timedOut =>
    obtain ⟨acts, s', hexits, hlength, hreturned, hrest⟩ := gathering_exits hinv h hcall
    exact ⟨acts, s', hexits, by omega, ⟨_, _, hreturned⟩, hrest⟩
  | returned _ _ | aborted => cases hover

end Subscriber

/-! ## In the system -/

namespace System

/-- What a subscriber does without a claim is a run, and the database takes no part in it. -/
theorem run_walk {b : Backend} {s : System} {index : Nat} {sub sub' : Subscriber}
    (hsub : s.subscribers[index]? = some sub) {allowed : SubscriberAct → Prop}
    (hfresh : ∀ token, ¬allowed (.fetch (.claim token))) {acts : List SubscriberAct}
    (h : Walk Subscriber.move allowed sub acts sub') :
    (s.run b (acts.map (.subscriber index))).subscribers[index]? = some sub' ∧
    (s.run b (acts.map (.subscriber index))).world = s.world := by
  induction h generalizing s with
  | nil _ => exact ⟨hsub, rfl⟩
  | @cons _ _ _ act acts hact hmove _ ih =>
    obtain ⟨⟨sub₁, orphan⟩, hstep, rfl⟩ := Option.map_eq_some_iff.mp hmove
    have hfresh : s.fresh act = true := by
      unfold fresh
      split
      · exact absurd hact (hfresh _)
      · rfl
    have hnext : s.step b (.subscriber index act) = some { s with
        subscribers := s.subscribers.set index sub₁
        orphans := s.orphans ++ orphan.toList.map fun stmt => (index, stmt) } := by
      simp [System.step, hsub, hfresh, hstep]
    have hlt := (List.getElem?_eq_some_iff.mp hsub).1
    rw [map_cons]
    simp only [run, foldl_cons, hnext, Option.getD_some]
    exact ih (getElem?_set_self hlt)

theorem run_halts (b : Backend) (start : Int) (cfgs : List SubscriberConfig) (acts : List Act)
    (index : Nat) (sub : Subscriber)
    (hsub : ((init start cfgs).run b acts).subscribers[index]? = some sub) : sub.Halts :=
  run_subscribers (P := Subscriber.Halts)
    (fun _ _ => ⟨fun _ _ hw => (nomatch hw), fun _ _ hmem => (nomatch hmem)⟩) acts
    (fun _ _ _ _ _ _ _ hinv h hstep => Subscriber.step_halts hinv h hstep)
    (fun _ i _ reply h hw => Subscriber.deliverWorker_halts h i hw reply)
    (fun _ _ h => ⟨h.workers, h.stops⟩) index sub hsub

end System

/-- **A stop that is under way can finish.** From every point of every run at which a call of
    `stop()` has not ended, there is a way on by which it returns with every task ended, the
    queue empty and nothing unfinished. It is no longer than seven steps for each worker and
    eight more, and needs nobody: no statement is run, no reply comes, and no handler does more
    than end when it is cancelled. -/
theorem stop_can_finish (b : Backend) (start : Int) (cfgs : List SubscriberConfig)
    (acts : List Act) {index : Nat} {sub : Subscriber}
    (hsub : ((System.init start cfgs).run b acts).subscribers[index]? = some sub) {call : Nat}
    {pc : StopPc} (hcall : sub.stops[call]? = some pc) (hover : pc.over = false) :
    ∃ exits : List SubscriberAct, exits.length ≤ 7 * sub.workers.length + 8 ∧
      (∀ act ∈ exits, act.unaided = true) ∧
      let s := (System.init start cfgs).run b (acts ++ exits.map (.subscriber index))
      s.world = ((System.init start cfgs).run b acts).world ∧
      ∃ sub', s.subscribers[index]? = some sub' ∧
        (∃ passedLock timedOut, sub'.stops[call]? = some (.returned passedLock timedOut)) ∧
        sub'.tasksDone = true ∧ sub'.workers = [] ∧ sub'.shared.running = false ∧
        sub'.shared.inflight = [] ∧ sub'.shared.unfinished = 0 := by
  have hinv := (System.run_inv b start cfgs acts).subscribers index sub hsub
  obtain ⟨exits, sub', hexits, hlength, hreturned⟩ := Subscriber.stop_exits hinv
    (System.run_halts b start cfgs acts index sub hsub) hcall hover
  obtain ⟨hsub', hworld⟩ := System.run_walk (b := b) hsub (by simp [SubscriberAct.unaided]) hexits
  refine ⟨exits, hlength, hexits.allowed_of_mem, ?_⟩
  rw [System.run_append]
  exact ⟨hworld, sub', hsub', hreturned⟩

/-- A handler runs, and `stop()` waits for the claim lock. -/
def stoppingActs : List Act := consumingActs ++ [.subscriber 0 .stop]

theorem stop_can_finish_stoppingRun : ∃ sub : Subscriber,
    ((System.init 0 [plainConfig]).run .postgres stoppingActs).subscribers[0]? = some sub ∧
    (sub.stops = [.locking] ∧ sub.tasksDone = false) ∧
    ∃ exits : List SubscriberAct, exits.length ≤ 15 ∧ ∃ sub' : Subscriber,
      ((System.init 0 [plainConfig]).run .postgres
        (stoppingActs ++ exits.map (.subscriber 0))).subscribers[0]? = some sub' ∧
      (∃ passedLock timedOut, sub'.stops[0]? = some (.returned passedLock timedOut)) ∧
      sub'.tasksDone = true := by
  obtain ⟨sub, hsub, hstops, hdone, hworkers⟩ : ∃ sub : Subscriber,
      ((System.init 0 [plainConfig]).run .postgres stoppingActs).subscribers[0]? = some sub ∧
      sub.stops = [.locking] ∧ sub.tasksDone = false ∧ sub.workers.length = 1 :=
    ⟨_, rfl, rfl, rfl, rfl⟩
  have hcall : sub.stops[0]? = some .locking := by rw [hstops]; rfl
  obtain ⟨exits, hlength, _, _, sub', hsub', hreturned, htasks, _⟩ :=
    stop_can_finish .postgres 0 [plainConfig] stoppingActs hsub hcall rfl
  exact ⟨sub, hsub, ⟨hstops, hdone⟩, exits, by omega, sub', hsub', hreturned, htasks⟩

end Outbox
