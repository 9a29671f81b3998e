import Outbox.Spec.BufferAge

/-!
# Writers after an error of the fetch loop

An error of the fetch loop makes every writer connection stale: `_fetch_generation` moves
on, and a worker compares it with the generation of its connection when it takes a row. A
worker that finds its writer stale with nothing buffered drops the connection before it
writes again. One that has rows buffered flushes them first, and one whose handler was
running when the error was recorded writes the outcome without a look: both on the
connection it should have dropped.

Connections and errors are told here by the steps of the run that open and record them, not
by the counters.

## Key results

- `Worker.step_spared`: where a worker with a stale writer starts no write
- `Worker.step_connected`: a connection keeps the generation it was opened in
- `writers_dropped_after_error`: the guarantee, in runs without those two
- `stale_writer_writes`: a handler that was running when the fetch loop failed
-/

namespace Outbox

open List

/-! ## Steps that start no write -/

/-- The worker has a writer connection. -/
def WorkerPc.connected : WorkerPc → Bool
  | .top | .opening | .backoff | .done => false
  | _ => true

/-- The worker has just issued a write. -/
def WorkerPc.writes : WorkerPc → Bool
  | .writing _ _ _ none => true
  | .flushing _ none => true
  | _ => false

/-- `consume()` ended with no outcome to write: it was left by an exception or cancelled, or
    nothing was recorded in a shutdown, or the outcome is to be archived with an exception
    that cannot be rendered. -/
def ConsumeEnd.leavesNothing (cfg : SubscriberConfig) (running : Bool) (r : Reading)
    (m : OutboxInnerMessage) (how : ConsumeEnd) : Bool :=
  how == .exception || how == .cancelledError || (!m.stateSet && !running) ||
    match Worker.dlqPayload cfg (m.assertStateSet r) with
    | .error _ => true
    | .ok _ => false

namespace Worker

/-- A worker with a stale writer may take the step: the delete of its buffer is under way
    already, or nothing is buffered and no outcome is about to be written. -/
def sparesWriter (cfg : SubscriberConfig) (sh : Shared) (w : Worker) (act : WorkerAct) : Bool :=
  !w.stale cfg sh || w.pc.flushes || (w.buffer.isEmpty &&
    match act, w.pc with
    | .consumed how acts _ r, .consuming m startPerf =>
      how.leavesNothing cfg sh.running r
        { acts.foldl (fun m a => a.run m) m with
          handlerDurationSeconds := some (r.perfCounter - startPerf) }
    | _, _ => true)

variable {cfg : SubscriberConfig} {sh : Shared} {f : Frame}

theorem pending_isSome (cfg : SubscriberConfig) (w : Worker) :
    (w.pending cfg).isSome = w.pc.writes := by
  obtain ⟨pc, buffer, generation, cancelled⟩ := w
  cases pc with
  | writing m token kind reply => cases kind <;> cases reply <;> rfl
  | flushing next reply => cases reply <;> rfl
  | _ => rfl

theorem leave_writes (why : Exit) : (leave cfg f why).2.writes = false := by
  unfold leave
  split
  · rfl
  · cases why <;> rfl

theorem resume_writes (next : AfterFlush) : (resume cfg f next).2.writes = false := by
  cases next with
  | exit why => exact leave_writes why
  | _ => rfl

/-- An empty buffer is not flushed. -/
theorem flushBuffer_writes (hbuffer : f.buffer = []) (next : AfterFlush) :
    (flushBuffer cfg f next).2.writes = false := by
  unfold flushBuffer
  rw [hbuffer]
  exact resume_writes next

theorem afterDispatch_writes (hbuffer : f.buffer = []) (r : Reading) (m : OutboxInnerMessage) :
    (afterDispatch cfg r f m false).2.writes = false := by
  have hkept : ((f.note (.ended m.key)).taskDone).buffer = [] := hbuffer
  unfold afterDispatch
  simp only [Bool.false_eq_true, if_false, hkept]
  rfl

theorem dispatchRaised_writes (hbuffer : f.buffer = []) (m : OutboxInnerMessage) (why : Exit) :
    (dispatchRaised cfg f m why).2.writes = false :=
  flushBuffer_writes (f := (f.note (.ended m.key)).taskDone) hbuffer (.exit why)

theorem writeRaised_writes (hbuffer : f.buffer = []) (r : Reading) (m : OutboxInnerMessage) :
    (writeRaised cfg r f m).2.writes = false := by
  have hkept : (f.emitDispatchAbandoned cfg m).buffer = [] := by
    rw [emitDispatchAbandoned_buffer, hbuffer]
  unfold writeRaised
  dsimp only
  split
  · exact dispatchRaised_writes hkept m .error
  · exact afterDispatch_writes hkept r m

theorem writeReplied_writes (hbuffer : f.buffer = []) {r : Reading} {m : OutboxInnerMessage}
    {kind : WriteKind} {reply : Reply} {out : Frame × WorkerPc}
    (hout : writeReplied cfg r f m kind reply = some out) : out.2.writes = false := by
  unfold writeReplied at hout
  split at hout <;> first
    | (cases hout; done)
    | obtain rfl := Option.some_inj.mp hout
  · refine afterDispatch_writes ?_ r m
    split <;> exact hbuffer
  · exact afterDispatch_writes (f := f.emitLeaseLost cfg m .terminal) hbuffer r m
  · exact writeRaised_writes hbuffer r m
  · exact afterDispatch_writes (f := f.emitMetric m _ _) hbuffer r m
  · exact afterDispatch_writes (f := f.emitLeaseLost cfg m .retry) hbuffer r m

theorem flushed_writes (deleted : Finset (Nat × UUID)) (next : AfterFlush) :
    (flushed cfg f deleted next).2.writes = false :=
  resume_writes next

theorem flushRaised_writes (next : AfterFlush) (why : Exit) :
    (flushRaised cfg f next why).2.writes = false := by
  unfold flushRaised
  dsimp only
  split
  · exact leave_writes _
  · exact flushBuffer_writes rfl (.exit why)

theorem cancelAt_writes {pc : WorkerPc} (hbuffer : pc.flushes = true ∨ f.buffer = []) :
    (cancelAt cfg f pc).2.writes = false := by
  cases pc with
  | flushing next reply => exact flushRaised_writes next .cancelled
  | loop => exact flushBuffer_writes (hbuffer.resolve_left nofun) _
  | getting => exact flushBuffer_writes (hbuffer.resolve_left nofun) _
  | invalidating => exact flushBuffer_writes (hbuffer.resolve_left nofun) _
  | writing m token kind reply =>
    refine dispatchRaised_writes ?_ m .cancelled
    rw [emitDispatchAbandoned_buffer, hbuffer.resolve_left nofun]
  | _ => rfl

/-- Only an outcome that is to be archived is rendered. -/
theorem terminalHasDlq_of_error {m : OutboxInnerMessage} {e : PyException}
    (h : dlqPayload cfg m = .error e) :
    terminalHasDlq cfg m = true ∧ ∃ reason, m.outcome = some (.terminal reason) := by
  unfold dlqPayload at h
  split at h
  · cases h
  · rename_i reason hreason
    split at h
    · rename_i hdlq
      refine ⟨by simp [terminalHasDlq, hreason, hdlq], reason, ?_⟩
      unfold OutboxInnerMessage.terminalFailureReason at hreason
      split at hreason
      · rename_i houtcome
        cases hreason
        exact houtcome
      · cases hreason
    · cases h

theorem flushOrBuffer_writes (hbuffer : f.buffer = []) {m : OutboxInnerMessage} {e : PyException}
    (herror : dlqPayload cfg m = .error e) (r : Reading) (event : Event) (tags : Tags)
    (useBuffer : Bool) : (flushOrBuffer cfg r f m event tags useBuffer).2.writes = false := by
  have hdlq := (terminalHasDlq_of_error herror).1
  unfold flushOrBuffer
  rw [hdlq, herror]
  simp only [Bool.not_true, Bool.and_false, Bool.false_eq_true, if_false]
  split
  · exact afterDispatch_writes hbuffer r m
  · exact writeRaised_writes hbuffer r m

theorem writeOutcome_writes (hbuffer : f.buffer = []) {r : Reading} {m : OutboxInnerMessage}
    (hnothing : (!m.stateSet && !f.shared.running) = true ∨
      ∃ e, dlqPayload cfg (m.assertStateSet r) = .error e) (useBuffer : Bool) :
    (writeOutcome cfg r f m useBuffer).2.writes = false := by
  have hleft : (afterDispatch cfg r ((f.note (.leftToLease m.key)).emitDispatchAbandoned cfg m) m
      false).2.writes = false := by
    refine afterDispatch_writes ?_ r m
    rw [emitDispatchAbandoned_buffer]
    exact hbuffer
  unfold writeOutcome
  split
  · exact hleft
  · rename_i hrace
    obtain ⟨e, herror⟩ := hnothing.resolve_left hrace
    obtain ⟨reason, houtcome⟩ := (terminalHasDlq_of_error herror).2
    simp only [houtcome]
    exact flushOrBuffer_writes hbuffer herror r _ _ useBuffer

theorem consumeEnded_writes (hbuffer : f.buffer = []) {how : ConsumeEnd} {acts : List HandlerAct}
    {r : Reading} {m : OutboxInnerMessage} {startPerf : Int}
    (hnothing : how.leavesNothing cfg f.shared.running r
      { acts.foldl (fun m a => a.run m) m with
        handlerDurationSeconds := some (r.perfCounter - startPerf) } = true) :
    (consumeEnded cfg how acts r f m startPerf).2.writes = false := by
  generalize htimed : { acts.foldl (fun m a => a.run m) m with
    handlerDurationSeconds := some (r.perfCounter - startPerf) } = timed at hnothing
  have hquiet : how = .returned ∨ how = .stopConsume ∨ how = .configError →
      (!timed.stateSet && !f.shared.running) = true ∨
        ∃ e, dlqPayload cfg (timed.assertStateSet r) = .error e := by
    intro hhow
    unfold ConsumeEnd.leavesNothing at hnothing
    cases hrendered : dlqPayload cfg (timed.assertStateSet r) with
    | error e => exact .inr ⟨e, rfl⟩
    | ok payload =>
      rw [hrendered] at hnothing
      refine .inl ?_
      rcases hhow with rfl | rfl | rfl <;> simpa using hnothing
  unfold consumeEnded
  simp only [htimed]
  cases how with
  | returned => exact writeOutcome_writes hbuffer (hquiet (.inl rfl)) true
  | stopConsume => exact writeOutcome_writes hbuffer (hquiet (.inr (.inl rfl))) true
  | configError => exact writeOutcome_writes hbuffer (hquiet (.inr (.inr rfl))) false
  | exception =>
    refine afterDispatch_writes ?_ r _
    rw [emitDispatchAbandoned_buffer]
    exact hbuffer
  | cancelledError =>
    exact dispatchRaised_writes (f := f.note (.interrupted _)) hbuffer _ .cancelled

/-- A worker with a stale writer puts the row it took back and drops the connection. -/
theorem handle_writes {w : Worker} (hbuffer : f.buffer = []) (hstale : w.stale cfg f.shared = true)
    (r : Reading) (m : OutboxInnerMessage) :
    (handle cfg r w.generation f m).2.writes = false := by
  have hstale : (cfg.engine && f.shared.fetchGeneration != w.generation) = true := hstale
  unfold handle
  rw [if_pos hstale]
  exact flushBuffer_writes
    (f := { f with shared := (Shared.putNowait cfg f.shared m).taskDone }) hbuffer .stale

/-- **A worker whose writer is stale starts no write** in a step that spares it. -/
theorem step_spared {w : Worker} {act : WorkerAct} {out : StepOut}
    (hstale : w.stale cfg sh = true) (hspares : w.sparesWriter cfg sh act = true)
    (h : step cfg sh w act = some out) : out.pc.writes = false := by
  have hbuffer : w.pc.flushes = true ∨ w.buffer = [] := by
    unfold sparesWriter at hspares
    rw [hstale] at hspares
    simp only [Bool.not_true, Bool.false_or, Bool.or_eq_true, Bool.and_eq_true] at hspares
    exact hspares.imp id fun h => isEmpty_iff.mp h.1
  cases step_stepped h with
  | stops hpc _ | idles hpc _ | invalidated hpc | invalidateFailed hpc =>
    exact flushBuffer_writes (hbuffer.resolve_left (by simp [hpc, WorkerPc.flushes])) _
  | took hpc _ | awaited hpc _ =>
    exact handle_writes (w := w) (hbuffer.resolve_left (by simp [hpc, WorkerPc.flushes])) hstale _ _
  | consumed hpc =>
    have hempty := hbuffer.resolve_left (by simp [hpc, WorkerPc.flushes])
    refine consumeEnded_writes hempty ?_
    unfold sparesWriter at hspares
    rw [hstale, hpc] at hspares
    simpa [WorkerPc.flushes, hempty, frame] using hspares
  | wrote hpc hnext =>
    exact writeReplied_writes (hbuffer.resolve_left (by simp [hpc, WorkerPc.flushes])) hnext
  | writeFailed hpc =>
    exact writeRaised_writes (hbuffer.resolve_left (by simp [hpc, WorkerPc.flushes])) _ _
  | deleted _ => exact flushed_writes _ _
  | flushFailed _ => exact flushRaised_writes _ _
  | @closed why _ => cases why <;> rfl
  | cancelled _ _ _ => exact cancelAt_writes hbuffer
  | _ => rfl

/-! ## Connections -/

/-- A worker that has just issued a write is connected. -/
theorem connected_of_writes {pc : WorkerPc} (h : pc.writes = true) : pc.connected = true := by
  cases pc <;> first | rfl | cases h

/-- **A worker that is connected after a step has opened the connection in it**, in the
    generation of that moment, or has kept the one it had. -/
theorem step_connected {w : Worker} {act : WorkerAct} {out : StepOut} (hengine : cfg.engine = true)
    (h : step cfg sh w act = some out) (hconnected : out.pc.connected = true) :
    (act = .opened ∧ out.pc = .loop ∧ out.generation = sh.fetchGeneration) ∨
    act ≠ .opened ∧ w.pc.connected = true ∧ out.generation = w.generation := by
  cases step_stepped h with
  | connects _ _ | ends _ _ | openFailed _ | closeFailed _ | retries _ => cases hconnected
  | enters _ hnone =>
    rw [hengine] at hnone
    cases hnone
  | opened _ => exact .inl ⟨rfl, rfl, rfl⟩
  | closed hpc => exact .inr ⟨nofun, by rw [hpc]; rfl, rfl⟩
  | cancelled _ _ _ =>
    -- only an open connection is left by way of `closing`
    refine .inr ⟨nofun, ?_, rfl⟩
    cases hpc : w.pc <;> first | rfl | (simp only [hpc] at hconnected; cases hconnected)
  | stops hpc _ | idles hpc _ | took hpc _ | awaited hpc _ | consumed hpc | wrote hpc _
  | writeFailed hpc | deleted hpc | flushFailed hpc | invalidated hpc | invalidateFailed hpc =>
    exact .inr ⟨nofun, by rw [hpc]; rfl, rfl⟩

/-- A write is issued on the connection the worker had. -/
theorem step_writes {w : Worker} {act : WorkerAct} {out : StepOut} (hengine : cfg.engine = true)
    (h : step cfg sh w act = some out) (hwrites : out.pc.writes = true) :
    act ≠ .opened ∧ w.pc.connected = true := by
  rcases step_connected hengine h (connected_of_writes hwrites) with ⟨_, hpc, _⟩ | ⟨hact, hold, _⟩
  · rw [hpc] at hwrites
    cases hwrites
  · exact ⟨hact, hold⟩

/-- A reply changes neither the connection nor its generation. -/
theorem deliver_connected (w : Worker) (reply : Reply) :
    (w.deliver reply).pc.connected = w.pc.connected ∧
    (w.deliver reply).generation = w.generation := by
  unfold deliver
  split
  · rename_i hpc
    exact ⟨by rw [hpc]; rfl, rfl⟩
  · rename_i hpc
    exact ⟨by rw [hpc]; rfl, rfl⟩
  · exact ⟨rfl, rfl⟩

end Worker

/-! ## Errors -/

/-- The fetch loop sleeps after an error. -/
def FetchPc.backingOff : FetchPc → Bool
  | .backoff => true
  | _ => false

namespace FetchTask

variable {cfg : SubscriberConfig} {sh : Shared} {t : FetchTask}

/-- The generation moves on as the backoff begins. -/
theorem afterClose_generation (sh : Shared) (why : Exit) :
    (afterClose sh why).1.fetchGeneration =
      sh.fetchGeneration + (afterClose sh why).2.backingOff.toNat := by
  cases why <;> rfl

theorem leave_generation (sh : Shared) (why : Exit) :
    (leave cfg sh why).1.fetchGeneration =
      sh.fetchGeneration + (leave cfg sh why).2.backingOff.toNat := by
  unfold leave
  split
  · rfl
  · exact afterClose_generation sh why

theorem enqueue_generation (sh : Shared) (messages : List OutboxInnerMessage) :
    (enqueue cfg sh messages).fetchGeneration = sh.fetchGeneration := by
  show (messages.foldl (Shared.putNowait cfg) sh).fetchGeneration = sh.fetchGeneration
  induction messages generalizing sh with
  | nil => rfl
  | cons m messages ih =>
    rw [foldl_cons, ih]
    unfold Shared.putNowait
    split <;> rfl

/-- **An error is recorded as the fetch loop goes into its backoff**, and no other step of
    it moves the generation on. -/
theorem step_generation {act : FetchAct} {out : StepOut} (h : step cfg sh t act = some out) :
    out.shared.fetchGeneration = sh.fetchGeneration + out.pc.backingOff.toNat := by
  cases step_moved h with
  | enters _ =>
    dsimp only [resumed]
    split <;> rfl
  | replied _ =>
    dsimp only
    rw [enqueue_generation]
    split <;> rfl
  | openFailed _ | closed _ | closeFailed _ => exact afterClose_generation sh _
  | stops _ | probeFailed _ | cancelledInside _ _ => exact leave_generation sh _
  | drains _ => exact leave_generation { sh with notifyEvent := false } .normal
  | fetchFailed _ | cancelledFetch _ _ => exact leave_generation { sh with claimLocked := false } _
  | ends _ _ | opened _ | waits _ _ | probes _ | claims _ _ | woke _ | retries _
  | cancelledOutside _ _ => rfl

end FetchTask

/-! ## Runs -/

/-- Whether the step of a worker spares the writer if that is stale. -/
def Subscriber.sparesWriter (s : Subscriber) : SubscriberAct → Bool
  | .worker j act => s.workers[j]?.all fun w => w.sparesWriter s.cfg s.shared act
  | _ => true

namespace System

/-- One step, and whether it was possible. -/
def attempt (b : Backend) (s : System) (act : Act) : Bool × System :=
  match s.step b act with
  | some s' => (true, s')
  | none => (false, s)

/-- Whether the step of a worker spares its writer if that is stale. -/
def sparesWriter (s : System) : Act → Bool
  | .subscriber index act => s.subscribers[index]?.all fun sub => sub.sparesWriter act
  | _ => true

/-- A run, step by step. -/
def trace (b : Backend) (start : Int) (cfgs : List SubscriberConfig) (acts : List Act) :
    List (Run.Entry System Act Bool) :=
  Run.trace (attempt b) (init start cfgs) acts

/-- The worker opens a writer connection. -/
def opens (index j : Nat) (e : Run.Entry System Act Bool) : Bool :=
  e.output && e.input == .subscriber index (.worker j .opened)

/-- The fetch loop of the subscriber records an error. -/
def recordsError (index : Nat) (e : Run.Entry System Act Bool) : Bool :=
  e.output && match e.input with
    | .subscriber i (.fetch _) =>
      i == index && e.after.subscribers[i]?.any fun sub => sub.fetch.pc.backingOff
    | _ => false

/-- The worker, of a subscriber with an engine, starts a terminal or retry write. -/
def startsWrite (index j : Nat) (e : Run.Entry System Act Bool) : Bool :=
  e.output && match e.input with
    | .subscriber i (.worker k _) =>
      i == index && k == j && e.after.subscribers[i]?.any fun sub =>
        sub.cfg.engine && sub.workers[k]?.any fun w => (w.pending sub.cfg).isSome
    | _ => false

/-- The connection the worker has opened last before the point `n` of the run was opened
    after every error that its fetch loop has recorded so far. -/
def WriterFresh (entries : List (Run.Entry System Act Bool)) (n index j : Nat) : Prop :=
  ∃ m < n, Run.LastBefore (fun e => opens index j e = true) entries n m ∧
    Run.Without (fun e => recordsError index e = true) entries m n

instance (entries : List (Run.Entry System Act Bool)) (n index j : Nat) :
    Decidable (WriterFresh entries n index j) :=
  inferInstanceAs (Decidable (∃ m < n, _ ∧ _))

/-- What the counters say about a worker's connection: it is no newer than the last error,
    and the two are equal only if no error was recorded since it was opened. -/
def Tracked (entries : List (Run.Entry System Act Bool)) (n index j : Nat) (sub : Subscriber)
    (w : Worker) : Prop :=
  ∃ m, Run.LastBefore (fun e => opens index j e = true) entries n m ∧
    w.generation ≤ sub.shared.fetchGeneration ∧
    (w.generation = sub.shared.fetchGeneration →
      Run.Without (fun e => recordsError index e = true) entries m n)

/-- Every connection of a worker is tracked. -/
def WritersTracked (entries : List (Run.Entry System Act Bool)) (n : Nat) (s : System) : Prop :=
  ∀ (index j : Nat) (sub : Subscriber) (w : Worker), s.subscribers[index]? = some sub →
    sub.cfg.engine = true → sub.workers[j]? = some w → w.pc.connected = true →
    Tracked entries n index j sub w

variable {b : Backend} {entries : List (Run.Entry System Act Bool)} {n index j : Nat}
  {e : Run.Entry System Act Bool} {sub sub' : Subscriber} {w w' : Worker}

theorem opens_iff : opens index j e = true ↔
    e.output = true ∧ e.input = .subscriber index (.worker j .opened) := by
  simp [opens]

theorem recordsError_iff : recordsError index e = true ↔
    e.output = true ∧ ∃ act sub, e.input = .subscriber index (.fetch act) ∧
      e.after.subscribers[index]? = some sub ∧ sub.fetch.pc.backingOff = true := by
  unfold recordsError
  rw [Bool.and_eq_true]
  refine and_congr_right fun _ => ⟨fun h => ?_, ?_⟩
  · split at h
    · rename_i i act hinput
      obtain ⟨hi, hafter⟩ := (Bool.and_eq_true _ _).mp h
      obtain rfl := beq_iff_eq.mp hi
      obtain ⟨sub, hsub, herror⟩ := (Option.any_eq_true _ _).mp hafter
      exact ⟨act, sub, hinput, hsub, herror⟩
    · cases h
  · rintro ⟨act, sub, hinput, hsub, herror⟩
    simp [hinput, hsub, herror]

theorem startsWrite_iff : startsWrite index j e = true ↔
    e.output = true ∧ ∃ act sub w, e.input = .subscriber index (.worker j act) ∧
      e.after.subscribers[index]? = some sub ∧ sub.cfg.engine = true ∧
      sub.workers[j]? = some w ∧ (w.pending sub.cfg).isSome = true := by
  unfold startsWrite
  rw [Bool.and_eq_true]
  refine and_congr_right fun _ => ⟨fun h => ?_, ?_⟩
  · split at h
    · rename_i i k act hinput
      obtain ⟨hi, hafter⟩ := (Bool.and_eq_true _ _).mp h
      obtain ⟨hi, hk⟩ := (Bool.and_eq_true _ _).mp hi
      obtain rfl := beq_iff_eq.mp hi
      obtain rfl := beq_iff_eq.mp hk
      obtain ⟨sub, hsub, hworker⟩ := (Option.any_eq_true _ _).mp hafter
      obtain ⟨hengine, hworker⟩ := (Bool.and_eq_true _ _).mp hworker
      obtain ⟨w, hw, hpending⟩ := (Option.any_eq_true _ _).mp hworker
      exact ⟨act, sub, w, hinput, hsub, hengine, hw, hpending⟩
    · cases h
  · rintro ⟨act, sub, w, hinput, hsub, hengine, hw, hpending⟩
    simp [hinput, hsub, hengine, hw, hpending]

theorem not_opens {act : SubscriberAct} (hinput : e.input = .subscriber index act)
    (hother : act ≠ .worker j .opened) : ¬opens index j e = true := by
  intro hopens
  have hopened := (opens_iff.mp hopens).2
  rw [hinput] at hopened
  exact hother (Act.subscriber.inj hopened).2

theorem not_recordsError {act : SubscriberAct} (hinput : e.input = .subscriber index act)
    (hother : ∀ fact, act ≠ .fetch fact) : ¬recordsError index e = true := by
  intro herror
  obtain ⟨_, fact, _, hfact, _⟩ := recordsError_iff.mp herror
  rw [hinput] at hfact
  exact hother fact (Act.subscriber.inj hfact).2

theorem attempt_cases {s s' : System} {act : Act} {possible : Bool}
    (h : s.attempt b act = (possible, s')) :
    possible = false ∧ s' = s ∨ possible = true ∧ s.step b act = some s' := by
  unfold attempt at h
  split at h
  · rename_i hstep
    cases h
    exact .inr ⟨rfl, hstep⟩
  · cases h
    exact .inl ⟨rfl, rfl⟩

/-- A step that is neither kind of entry, and moves neither counter. -/
theorem Tracked.succ (h : Tracked entries n index j sub w) (he : entries[n]? = some e)
    (hopens : ¬opens index j e = true) (herror : ¬recordsError index e = true)
    (hfetch : sub'.shared.fetchGeneration = sub.shared.fetchGeneration)
    (hgeneration : w'.generation = w.generation) : Tracked entries (n + 1) index j sub' w' := by
  obtain ⟨m, hlast, hle, hfresh⟩ := h
  refine ⟨m, hlast.succ he hopens, ?_, fun heq => ?_⟩
  · rw [hfetch, hgeneration]
    exact hle
  · rw [hfetch, hgeneration] at heq
    exact (hfresh heq).succ he herror

/-- The worker has just connected. -/
theorem tracked_opened (he : entries[n]? = some e) (hopens : opens index j e = true)
    (hgeneration : w.generation = sub.shared.fetchGeneration) :
    Tracked entries (n + 1) index j sub w :=
  ⟨n, Run.lastBefore_self he hopens, Nat.le_of_eq hgeneration, fun _ => Run.without_self _ _ _⟩

/-- The fetch loop has just recorded an error. -/
theorem Tracked.error (h : Tracked entries n index j sub w) (he : entries[n]? = some e)
    (hopens : ¬opens index j e = true)
    (hfetch : sub'.shared.fetchGeneration = sub.shared.fetchGeneration + 1) :
    Tracked entries (n + 1) index j sub' w := by
  obtain ⟨m, hlast, hle, _⟩ := h
  refine ⟨m, hlast.succ he hopens, ?_, fun heq => ?_⟩
  · rw [hfetch]
    omega
  · -- the connection is older now
    rw [hfetch] at heq
    omega

/-- **Each step keeps the connections tracked.** -/
theorem step_tracked (he : entries[n]? = some e) (hinv : e.before.Inv b)
    (h : WritersTracked entries n e.before) (hoccurs : e.output = true)
    (hstep : e.before.step b e.input = some e.after) :
    WritersTracked entries (n + 1) e.after := by
  intro index j sub' w' hsub' hengine hw' hconnected
  obtain ⟨sub, hsub, hmoved⟩ := step_moved hstep hsub'
  -- an act of another subscriber, or of the database, leaves this one where it is
  have hkeeps : (∀ act, e.input ≠ .subscriber index act) →
      ¬opens index j e = true ∧ ¬recordsError index e = true := by
    intro hother
    refine ⟨fun hopens => hother _ (opens_iff.mp hopens).2, fun herror => ?_⟩
    obtain ⟨_, act, _, hinput, _⟩ := recordsError_iff.mp herror
    exact hother _ hinput
  generalize hinput : e.input = input at hmoved hkeeps
  cases hmoved with
  | idle hother =>
    obtain ⟨hopens, herror⟩ := hkeeps hother
    exact (h index j sub' w' hsub hengine hw' hconnected).succ he hopens herror rfl rfl
  | fetch reply =>
    obtain ⟨hopens, herror⟩ := hkeeps nofun
    exact (h index j sub w' hsub hengine hw' hconnected).succ he hopens herror rfl rfl
  | worker hw reply =>
    rename_i i w
    obtain ⟨hopens, herror⟩ := hkeeps nofun
    obtain ⟨hpc, hgeneration⟩ := w.deliver_connected reply
    by_cases hij : i = j
    · subst hij
      rw [getElem?_set_self (List.getElem?_eq_some_iff.mp hw).1] at hw'
      cases hw'
      exact (h index i sub w hsub hengine hw (hpc ▸ hconnected)).succ he hopens herror rfl
        hgeneration
    · rw [getElem?_set_ne hij] at hw'
      exact (h index j sub w' hsub hengine hw' hconnected).succ he hopens herror rfl rfl
  | stepped hsubstep =>
    rename_i subAct orphan
    rcases Subscriber.step_stands hsubstep with
      ⟨i, w, wact, out, rfl, hw, hout, rfl⟩ | ⟨fact, out, rfl, hout, rfl⟩ |
        ⟨hworker, hfetch, hstands⟩
    · -- a worker has moved
      have herror := not_recordsError hinput nofun
      have hgeneration : out.frame.shared.fetchGeneration = sub.shared.fetchGeneration :=
        (Subscriber.afterWorker_inv (hinv.subscribers index sub hsub) hw hout).2.1.fetchGeneration
      rcases Subscriber.afterWorker_cases hw hw' with ⟨rfl, hpc, _, hnew⟩ | ⟨hij, hold⟩
      · rw [hpc] at hconnected
        rcases Worker.step_connected hengine hout hconnected with
          ⟨rfl, _, hopened⟩ | ⟨hact, hwas, hkept⟩
        · -- a connection just opened has the current generation
          refine tracked_opened he (opens_iff.mpr ⟨hoccurs, hinput⟩) ?_
          rw [hnew, hopened]
          exact hgeneration.symm
        · -- the connection was open before
          have hopens := not_opens (j := j) hinput fun heq => hact (SubscriberAct.worker.inj heq).2
          exact (h index j sub w hsub hengine hw hwas).succ he hopens herror hgeneration
            (hnew.trans hkept)
      · have hopens := not_opens (j := j) hinput
          fun heq => hij (SubscriberAct.worker.inj heq).1.symm
        exact (h index j sub w' hsub hengine hold hconnected).succ he hopens herror hgeneration rfl
    · -- the fetch loop has moved
      have hopens := not_opens (j := j) hinput nofun
      have hgeneration := FetchTask.step_generation hout
      have htracked := h index j sub w' hsub hengine hw' hconnected
      cases hbackoff : out.pc.backingOff with
      -- an error: the generation has moved past that of the connection
      | true =>
        rw [hbackoff] at hgeneration
        exact htracked.error he hopens hgeneration
      | false =>
        rw [hbackoff] at hgeneration
        refine htracked.succ he hopens ?_ hgeneration rfl
        intro herror
        obtain ⟨_, _, sub₁, _, hsub₁, herror⟩ := recordsError_iff.mp herror
        rw [hsub'] at hsub₁
        cases hsub₁
        rw [show out.pc.backingOff = true from herror] at hbackoff
        cases hbackoff
    · -- no worker has moved
      have hengine' : sub.cfg.engine = true := hstands.cfg ▸ hengine
      cases hstands.workers j w' hw' with
      | inl hnew =>
        rw [hnew] at hconnected
        cases hconnected
      | inr hold =>
        obtain ⟨w, hw, heq⟩ := hold
        have hpc : w'.pc = w.pc := by rw [heq]
        exact (h index j sub w hsub hengine' hw (hpc ▸ hconnected)).succ he
          (not_opens hinput (hworker _ _)) (not_recordsError hinput hfetch)
          hstands.fetchGeneration (by rw [heq])

/-- The invariant at every point of a run. -/
theorem trace_tracked (b : Backend) (start : Int) (cfgs : List SubscriberConfig)
    (acts : List Act) (n : Nat) (e : Run.Entry System Act Bool)
    (he : (System.trace b start cfgs acts)[n]? = some e) :
    e.before.Inv b ∧ WritersTracked (System.trace b start cfgs acts) n e.before := by
  have hn := Run.lt_length_of_trace he
  rw [(Run.trace_getElem? he).2.1]
  refine Run.trace_induction (attempt b) (m := 0)
    (P := fun n s => s.Inv b ∧ WritersTracked (System.trace b start cfgs acts) n s)
    (Nat.zero_le n) (Nat.le_of_lt hn) ⟨init_inv b start cfgs, ?_⟩ fun k e _ _ hk h => ?_
  · -- before any start there is no worker
    intro index j sub w hsub _ hw
    obtain ⟨cfg, _, rfl⟩ := mem_map.mp (mem_of_getElem? hsub)
    cases hw
  · rcases attempt_cases (Run.trace_getElem? hk).2.2 with ⟨himpossible, hsame⟩ | ⟨hoccurs, hstep⟩
    · rw [hsame]
      refine ⟨h.1, fun index j sub w hsub hengine hw hconnected => ?_⟩
      refine (h.2 index j sub w hsub hengine hw hconnected).succ hk ?_ ?_ rfl rfl
      · exact fun hopens => Bool.false_ne_true (himpossible.symm.trans (opens_iff.mp hopens).1)
      · exact fun herror =>
          Bool.false_ne_true (himpossible.symm.trans (recordsError_iff.mp herror).1)
    · exact ⟨step_inv h.1 hstep, step_tracked hk h.1 h.2 hoccurs hstep⟩

end System

/-! ## The claim -/

/-- **Workers drop their connections before writing again**, in every run in which no step of
    a worker with a stale writer finds rows in its buffer, unless their delete is under way,
    or an outcome to write: every write is issued on the connection the worker has opened
    last, and that was opened after every error its fetch loop has recorded so far. -/
theorem writers_dropped_after_error (b : Backend) (start : Int) (cfgs : List SubscriberConfig)
    (acts : List Act)
    (hspares : ∀ e ∈ System.trace b start cfgs acts, e.output = true →
      e.before.sparesWriter e.input = true) :
    ∀ (n index j : Nat) (e : Run.Entry System Act Bool),
      (System.trace b start cfgs acts)[n]? = some e → System.startsWrite index j e = true →
      System.WriterFresh (System.trace b start cfgs acts) n index j := by
  intro n index j e he hwrite
  obtain ⟨hinv, htracked⟩ := System.trace_tracked b start cfgs acts n e he
  have hspared := hspares e (mem_of_getElem? he)
  obtain ⟨hoccurs, act, sub', w', hinput, hsub', hengine, hw', hpending⟩ :=
    System.startsWrite_iff.mp hwrite
  have hspared := hspared hoccurs
  rcases System.attempt_cases (Run.trace_getElem? he).2.2 with ⟨himpossible, _⟩ | ⟨_, hstep⟩
  · exact absurd (himpossible.symm.trans hoccurs) Bool.false_ne_true
  rw [hinput] at hstep hspared
  obtain ⟨sub, hsub, hmoved⟩ := System.step_moved hstep hsub'
  cases hmoved with
  | idle hother => exact absurd rfl (hother _)
  | stepped hsubstep =>
    rcases Subscriber.step_stands hsubstep with
      ⟨i, w, wact, out, heq, hw, hout, rfl⟩ | ⟨fact, out, heq, _⟩ | ⟨hworker, _, _⟩
    · cases heq
      rcases Subscriber.afterWorker_cases hw hw' with ⟨_, hpc, _, _⟩ | ⟨hother, _⟩
      · have hwrites : out.pc.writes = true := by
          rw [← hpc, ← w'.pending_isSome sub.cfg]
          exact hpending
        obtain ⟨_, hconnected⟩ := Worker.step_writes hengine hout hwrites
        obtain ⟨m, hlast, _, hfresh⟩ := htracked index j sub w hsub hengine hw hconnected
        -- a write is never started with a stale writer
        have hfreshWriter : w.stale sub.cfg sub.shared = false := by
          refine Bool.eq_false_iff.mpr fun hstale => ?_
          have hspared : w.sparesWriter sub.cfg sub.shared act = true := by
            simpa only [System.sparesWriter, hsub, Subscriber.sparesWriter, hw, Option.all_some]
              using hspared
          rw [Worker.step_spared hstale hspared hout] at hwrites
          cases hwrites
        have hsame : w.generation = sub.shared.fetchGeneration := by
          rw [Worker.stale, show sub.cfg.engine = true from hengine, Bool.true_and] at hfreshWriter
          exact (bne_eq_false_iff_eq.mp hfreshWriter).symm
        exact ⟨m, hlast.lt, hlast, hfresh hsame⟩
      · exact absurd rfl hother
    · cases heq
    · exact absurd rfl (hworker j act)

/-- The fetch loop fails while the worker waits for a row. The worker puts the row it takes
    next back, reconnects, and takes it again. -/
def recycledActs : List Act :=
  startActs ++ recycleActs ++
  .external (.insert 0 { queue := "orders", payload := [1] }) :: fetchActs 7 ++
  [.subscriber 0 (.worker 0 (.got {})),
    .subscriber 0 (.worker 0 .finished),
    .subscriber 0 (.worker 0 .finished),
    .subscriber 0 (.worker 0 .run),
    .subscriber 0 (.worker 0 .opened),
    .subscriber 0 (.worker 0 (.got {})),
    .subscriber 0 (.worker 0 (.consumed .returned [.ack {}] false {}))]

/-- The error of step 7 is older than the connection the delete of step 21 is issued on. -/
theorem writers_dropped_after_error_recycledRun :
    let entries := System.trace .postgres 0 [plainConfig] recycledActs
    entries[7]?.any (System.recordsError 0) = true ∧ System.WriterFresh entries 21 0 0 := by
  intro entries
  have hwrite : entries[21]?.any (System.startsWrite 0 0) = true := by decide +kernel
  obtain ⟨e, he, hstarts⟩ := (Option.any_eq_true _ _).mp hwrite
  exact ⟨by decide +kernel, writers_dropped_after_error .postgres 0 [plainConfig] recycledActs
    (by decide +kernel) 21 0 0 e he hstarts⟩

/-- The fetch loop fails while a handler runs. -/
def staleWriteActs : List Act :=
  consumingActs ++
  [.subscriber 0 (.fetch (.claim 8)),
    .subscriber 0 (.fetch .failed),
    .subscriber 0 (.fetch .finished),
    .subscriber 0 (.worker 0 (.consumed .returned [.ack {}] false {}))]

/-- **The outcome of a handler that was running when the fetch loop failed** is written on
    the connection that was opened before. -/
theorem stale_writer_writes :
    ¬ ∀ (b : Backend) (start : Int) (cfgs : List SubscriberConfig) (acts : List Act)
      (n index j : Nat) (e : Run.Entry System Act Bool),
      (System.trace b start cfgs acts)[n]? = some e → System.startsWrite index j e = true →
      System.WriterFresh (System.trace b start cfgs acts) n index j := by
  intro hclaim
  have hwrite : (System.trace .postgres 0 [plainConfig] staleWriteActs)[13]?.any
      (System.startsWrite 0 0) = true := by decide +kernel
  obtain ⟨e, he, hstarts⟩ := (Option.any_eq_true _ _).mp hwrite
  -- the worker connects at step 5, and the error is recorded at step 12
  have hstale :
      ¬System.WriterFresh (System.trace .postgres 0 [plainConfig] staleWriteActs) 13 0 0 := by
    decide +kernel
  exact hstale (hclaim .postgres 0 [plainConfig] staleWriteActs 13 0 0 e he hstarts)

end Outbox
