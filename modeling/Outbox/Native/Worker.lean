import Outbox.Native.Subscriber

/-!
# Workers

`_worker_loop` as a state machine. A `WorkerPc` is the await a worker is suspended at, with
the locals that are live there; a step resumes the worker with what the await gave it (a
reply, an exception, a cancellation) and runs the code up to the next await. The functions
of `usecase.py` that run on the way keep their names and pass the frame on.

The model also lets a worker rest at the heads of its two loops, where the code does not
yield: it has every interleaving of the code, and more.
-/

namespace Outbox

/-- How `_worker_inner` was left. -/
inductive Exit where
  /-- `running` was found `False`. -/
  | normal
  /-- `_StaleWriterError`. -/
  | stale
  /-- An `Exception`. -/
  | error
  /-- `CancelledError`. -/
  | cancelled
deriving DecidableEq, Repr

/-- What follows a flush of the buffer. -/
inductive AfterFlush where
  /-- The idle flush: wait for a row. -/
  | get
  /-- The flush of a full or aged buffer. -/
  | loop
  /-- The flush of a worker whose writer is stale. -/
  | stale
  /-- The bounded flush on the way out, with the reason of the exit. -/
  | exit (why : Exit)
deriving DecidableEq, Repr

/-- The write a worker awaits, with the metric to emit once it lands. -/
inductive WriteKind where
  | terminal (event : Event) (tags : Tags) (dlqPayload : Option DlqPayload)
  | retry (tags : Tags) (delaySeconds : Int)

/-- The await a worker is suspended at. -/
inductive WorkerPc where
  /-- The `while` of `_run_with_reconnect`. -/
  | top
  /-- `engine.connect()`. -/
  | opening
  /-- The `while` of `_worker_inner`. -/
  | loop
  /-- `self._inflight.get()`. -/
  | getting
  /-- `self.consume(row)`, entered at the given `perf_counter`. -/
  | consuming (m : OutboxInnerMessage) (startPerf : Int)
  /-- The client call of `_flush_terminal` or `_flush_retry`. -/
  | writing (m : OutboxInnerMessage) (token : UUID) (kind : WriteKind) (reply : Option Reply)
  /-- The client call of `_flush_buffer`. -/
  | flushing (next : AfterFlush) (reply : Option Reply)
  /-- `writer_conn.invalidate()` of a stale writer. -/
  | invalidating
  /-- Closing the connection. -/
  | closing (why : Exit)
  /-- The backoff after an error. -/
  | backoff
  | done

/-- One worker task. -/
structure Worker where
  pc : WorkerPc := .top
  buffer : List PendingFlush := []
  /-- The fetch generation its writer connection was opened in. -/
  generation : Nat := 0
  /-- A cancellation was requested and not delivered yet. -/
  cancelled : Bool := false

/-- How `consume()` ends. -/
inductive ConsumeEnd where
  /-- It returns, also after an exception of the handler that it swallowed. -/
  | returned
  /-- The handler raised `StopConsume` or `SystemExit`: `_stop_from_handler` spawns a stop. -/
  | stopConsume
  /-- `_OutboxConfigError`, raised by a programming guard. -/
  | configError
  /-- Another `Exception` that escaped. -/
  | exception
  /-- `CancelledError`. -/
  | cancelledError
deriving DecidableEq, Repr

/-- What resumes a worker. -/
inductive WorkerAct where
  /-- Run on from a point where the code does not wait. -/
  | run
  /-- The connection is open. -/
  | opened
  /-- A row came off the in-flight queue. -/
  | got (r : Reading)
  /-- `consume()` ended; `acts` is what the handler did to the message meanwhile, and
      `swallowed` that it swallowed a cancellation. -/
  | consumed (how : ConsumeEnd) (acts : List HandlerAct) (swallowed : Bool) (r : Reading)
  /-- The awaited client call returned. -/
  | replied (r : Reading)
  /-- The awaited call raised an `Exception`, or ran into its timeout. -/
  | failed (r : Reading)
  /-- The awaited close or sleep is over. -/
  | finished
  /-- The requested `CancelledError` is raised at the await. -/
  | cancel
deriving DecidableEq, Repr

namespace Worker

variable (cfg : SubscriberConfig)

/-! ## Leaving -/

/-- `_run_with_reconnect` after the connection is closed. -/
def afterClose (why : Exit) : WorkerPc :=
  match why with
  | .normal | .stale => .top
  | .error => .backoff
  | .cancelled => .done

/-- Leave the connection's context manager. -/
def leave (f : Frame) (why : Exit) : Frame × WorkerPc :=
  (f, if cfg.engine then .closing why else afterClose why)

/-- What follows a flush that did not raise. -/
def resume (f : Frame) (next : AfterFlush) : Frame × WorkerPc :=
  match next with
  | .get => (f, .getting)
  | .loop => (f, .loop)
  | .stale => (f, .invalidating)
  | .exit why => leave cfg f why

/-- `_flush_buffer`, up to its client call. -/
def flushBuffer (f : Frame) (next : AfterFlush) : Frame × WorkerPc :=
  if f.buffer.isEmpty then
    resume cfg f next
  else
    ({ f with notes := f.notes ++ f.buffer.map fun p => .batchIssued p.row.key },
      .flushing next none)

/-- The `finally` of `_worker_inner`. -/
def unwind (f : Frame) (why : Exit) : Frame × WorkerPc := flushBuffer cfg f (.exit why)

/-! ## Flushing the buffer -/

/-- One row of a flush that landed or lost its lease. -/
def closePending (deleted : Finset (Nat × UUID)) (f : Frame) (p : PendingFlush) : Frame :=
  let landed := p.row.row.acquiredToken.any fun token => decide ((p.row.row.id, token) ∈ deleted)
  (if landed then f.emitMetric p.row p.event p.tags
    else f.emitLeaseLost cfg p.row .terminal).taskDone

/-- `_flush_buffer` after its client call returned. -/
def flushed (f : Frame) (deleted : Finset (Nat × UUID)) (next : AfterFlush) :
    Frame × WorkerPc :=
  let f := f.buffer.foldl (closePending cfg deleted) f
  resume cfg { f with buffer := [] } next

/-- `_flush_buffer` after its client call raised: the rows keep their leases. -/
def flushRaised (f : Frame) (next : AfterFlush) (why : Exit) : Frame × WorkerPc :=
  let f := f.buffer.foldl (fun f p => (f.emitDispatchAbandoned cfg p.row).taskDone) f
  let f := { f with buffer := [] }
  match next, why with
  -- suppress(Exception) of the flush on the way out
  | .exit why', .error => leave cfg f why'
  | _, why => unwind cfg f why

/-! ## Dispatching -/

/-- The end of an iteration of `_worker_inner` that did not raise. -/
def afterDispatch (r : Reading) (f : Frame) (m : OutboxInnerMessage) (buffered : Bool) :
    Frame × WorkerPc :=
  let f := if buffered then f.note (.buffered m.key) else (f.note (.ended m.key)).taskDone
  let due := match f.buffer with
    | [] => false
    | oldest :: _ => decide (cfg.terminalFlushBatchSize ≤ f.buffer.length) ||
        -- half a lease TTL has passed since the claim
        decide (cfg.leaseTtlSeconds ≤ 2 * (r.monotonic - oldest.row.claimedAtMonotonic))
  if due then flushBuffer cfg f .loop else (f, .loop)

/-- The end of an iteration of `_worker_inner` that raised out of `dispatch_one`. -/
def dispatchRaised (f : Frame) (m : OutboxInnerMessage) (why : Exit) : Frame × WorkerPc :=
  unwind cfg (f.note (.ended m.key)).taskDone why

/-- `_safe_flush` after its client call raised an `Exception`. -/
def writeRaised (r : Reading) (f : Frame) (m : OutboxInnerMessage) : Frame × WorkerPc :=
  let f := f.emitDispatchAbandoned cfg m
  -- without a writer connection there is nothing to rebuild
  if cfg.engine then dispatchRaised cfg f m .error else afterDispatch cfg r f m false

/-- `_terminal_has_dlq`. -/
def terminalHasDlq (m : OutboxInnerMessage) : Bool :=
  m.terminalFailureReason.isSome && cfg.dlqTable

/-- The `dlq_payload` of `_flush_terminal`: only a failure is archived. -/
def dlqPayload (m : OutboxInnerMessage) : Except PyException (Option DlqPayload) :=
  match m.terminalFailureReason with
  | none => .ok none
  | some reason =>
    if cfg.dlqTable then
      (renderLastException m.lastException cfg.lastExceptionRenderer).map fun rendered =>
        some { failureReason := some reason.text, lastException := some rendered }
    else
      .ok none

/-- `_flush_or_buffer`. A row that must be archived is never batched, and neither is one
    dispatched without a buffer. -/
def flushOrBuffer (r : Reading) (f : Frame) (m : OutboxInnerMessage) (event : Event)
    (tags : Tags) (useBuffer : Bool) : Frame × WorkerPc :=
  if useBuffer && decide (1 < cfg.terminalFlushBatchSize) && !terminalHasDlq cfg m then
    afterDispatch cfg r
      { f with buffer := f.buffer ++ [{ row := m, event := event, tags := tags }] }
      m true
  else
    match m.row.acquiredToken with
    | none => afterDispatch cfg r f m false
    | some token =>
      match dlqPayload cfg m with
      | .error _ => writeRaised cfg r f m
      | .ok payload =>
        (f.note (.writeIssued m.key), .writing m token (.terminal event tags payload) none)

/-- `_write_outcome`. -/
def writeOutcome (r : Reading) (f : Frame) (m : OutboxInnerMessage) (useBuffer : Bool) :
    Frame × WorkerPc :=
  if !m.stateSet && !f.shared.running then
    -- the shutdown race: consume() returned without invoking the handler
    afterDispatch cfg r ((f.note (.leftToLease m.key)).emitDispatchAbandoned cfg m) m false
  else
    let m := m.assertStateSet r
    let common : Tags :=
      { baseTags cfg m.row.queue with
        deliveriesCount := some m.row.deliveriesCount
        durationSeconds := m.handlerDurationSeconds }
    match m.outcome with
    | some (.terminal reason) =>
      flushOrBuffer cfg r f m .nackedTerminal
        (withExceptionType { common with reason := some reason } m) useBuffer
    | some (.retry delay) =>
      -- a per-row UPDATE, never batched
      match m.row.acquiredToken with
      | none => afterDispatch cfg r f m false
      | some token =>
        (f.note (.writeIssued m.key), .writing m token (.retry
          (withExceptionType { common with nextDelaySeconds := some delay } m) delay) none)
    | _ => flushOrBuffer cfg r f m .acked common useBuffer

/-- `dispatch_one`, up to its first await. -/
def dispatchOne (r : Reading) (f : Frame) (m : OutboxInnerMessage) : Frame × WorkerPc :=
  let m := { m with retryStrategy := cfg.retryStrategy }
  let base := { baseTags cfg m.row.queue with deliveriesCount := some m.row.deliveriesCount }
  let (allowed, m) := m.allowDelivery cfg.maxDeliveries
  if !allowed then
    flushOrBuffer cfg r (f.note (.capped m)) m .nackedTerminal
      { base with reason := some .maxDeliveries } true
  else
    let f := f.emitMetric m .dispatched { base with sizeBytes := some m.row.payload.length }
    if f.shared.running then
      (f.note (.invoked m), .consuming m r.perfCounter)
    else
      -- consume() returns at once
      writeOutcome cfg r f { m with handlerDurationSeconds := some 0 } true

/-- `_worker_inner` with the row it got: a worker whose writer predates a fetch error puts
    the row back and reconnects. -/
def handle (r : Reading) (generation : Nat) (f : Frame) (m : OutboxInnerMessage) :
    Frame × WorkerPc :=
  if cfg.engine && f.shared.fetchGeneration != generation then
    let f := { f with shared := (f.shared.putNowait cfg m).taskDone }
    flushBuffer cfg f .stale
  else
    dispatchOne cfg r { f with shared := f.shared.signalRefill cfg } m

/-- `dispatch_one` from the end of `consume()`. -/
def consumeEnded (how : ConsumeEnd) (acts : List HandlerAct) (r : Reading) (f : Frame)
    (m : OutboxInnerMessage) (startPerf : Int) : Frame × WorkerPc :=
  let m := acts.foldl (fun m a => a.run m) m
  let timed := { m with handlerDurationSeconds := some (r.perfCounter - startPerf) }
  match how with
  | .returned | .stopConsume => writeOutcome cfg r f timed true
  -- the recorded outcome is written inline, and the worker logs the error
  | .configError => writeOutcome cfg r f timed false
  | .exception =>
    afterDispatch cfg r ((f.note (.leftToLease m.key)).emitDispatchAbandoned cfg timed) m false
  -- not an Exception: nothing here handles it
  | .cancelledError => dispatchRaised cfg (f.note (.interrupted m.key)) m .cancelled

/-- `_safe_flush` after its client call returned; `none` if the reply is none of this call. -/
def writeReplied (r : Reading) (f : Frame) (m : OutboxInnerMessage) (kind : WriteKind)
    (reply : Reply) : Option (Frame × WorkerPc) :=
  match kind, reply with
  | .terminal event tags payload, .deleted (.ok true) =>
    let f := if payload.isSome then
        f.emitMetric m .dlqWritten
          (withExceptionType
            { baseTags cfg m.row.queue with
              deliveriesCount := some m.row.deliveriesCount
              failureReason := m.terminalFailureReason } m)
      else f
    some (afterDispatch cfg r (f.emitMetric m event tags) m false)
  | .terminal _ _ _, .deleted (.ok false) =>
    some (afterDispatch cfg r (f.emitLeaseLost cfg m .terminal) m false)
  | .terminal _ _ _, .deleted (.error _) => some (writeRaised cfg r f m)
  | .retry tags _, .rescheduled true =>
    some (afterDispatch cfg r (f.emitMetric m .nackedRetried tags) m false)
  | .retry _ _, .rescheduled false =>
    some (afterDispatch cfg r (f.emitLeaseLost cfg m .retry) m false)
  | _, _ => none

/-- `CancelledError` at an await. -/
def cancelAt (f : Frame) (pc : WorkerPc) : Frame × WorkerPc :=
  match pc with
  | .loop | .getting | .invalidating => unwind cfg f .cancelled
  | .writing m _ _ _ => dispatchRaised cfg (f.emitDispatchAbandoned cfg m) m .cancelled
  | .flushing next _ => flushRaised cfg f next .cancelled
  | _ => (f, .done)

/-! ## Steps -/

/-- The statement a worker awaits, unless its reply is there. -/
def pending (w : Worker) : Option Stmt :=
  match w.pc with
  | .writing m token (.terminal _ _ payload) none =>
    some (.deleteWithLease m token cfg.dlqTable payload)
  | .writing m token (.retry _ delay) none => some (.markPendingWithLease m token delay)
  | .flushing _ none => some (.deleteBatchWithLease w.buffer)
  | _ => none

/-- The worker with the reply of its statement. -/
def deliver (w : Worker) (reply : Reply) : Worker :=
  match w.pc with
  | .writing m token kind _ => { w with pc := .writing m token kind (some reply) }
  | .flushing next _ => { w with pc := .flushing next (some reply) }
  | _ => w

/-- What a step of a task leaves. -/
structure StepOut where
  frame : Frame
  pc : WorkerPc
  generation : Nat
  cancelled : Bool
  /-- A statement that was abandoned before its reply. -/
  orphan : Option Stmt := none
  /-- `_stop_from_handler` spawned a stop. -/
  spawnsStop : Bool := false

/-- One step of a worker; `none` if the act cannot resume it. -/
def step (sh : Shared) (w : Worker) (act : WorkerAct) : Option StepOut :=
  let f : Frame := { shared := sh, buffer := w.buffer }
  let out (next : Frame × WorkerPc) : StepOut :=
    { frame := next.1, pc := next.2, generation := w.generation, cancelled := w.cancelled }
  match act, w.pc with
  | .run, .top =>
    if sh.running && !sh.clientGone then
      -- without an engine the loop is entered at once
      if cfg.engine then some (out (f, .opening))
      else some { out (f, .loop) with generation := sh.fetchGeneration }
    else some (out (f, .done))
  | .opened, .opening => some { out (f, .loop) with generation := sh.fetchGeneration }
  | .failed _, .opening => some (out (f, .backoff))
  | .run, .loop =>
    if !sh.running then some (out (unwind cfg f .normal))
    -- nothing to get without waiting: flush what is buffered first
    else if sh.inflight.isEmpty then some (out (flushBuffer cfg f .get))
    else none
  | .got r, .loop =>
    match sh.running, sh.inflight with
    | true, m :: rest => some (out (handle cfg r w.generation
        { f with shared := { sh with inflight := rest } } m))
    | _, _ => none
  | .got r, .getting =>
    match sh.inflight with
    | [] => none
    | m :: rest => some (out (handle cfg r w.generation
        { f with shared := { sh with inflight := rest } } m))
  | .consumed how acts swallowed r, .consuming m startPerf =>
    some { out (consumeEnded cfg how acts r f m startPerf) with
      cancelled := w.cancelled && !(swallowed || how == .cancelledError)
      spawnsStop := how == .stopConsume }
  | .replied r, .writing m _ kind (some reply) => (writeReplied cfg r f m kind reply).map out
  | .failed r, .writing m _ _ _ =>
    some { out (writeRaised cfg r f m) with orphan := w.pending cfg }
  | .replied _, .flushing next (some (.deletedBatch deleted)) =>
    some (out (flushed cfg f deleted next))
  | .failed _, .flushing next _ =>
    some { out (flushRaised cfg f next .error) with orphan := w.pending cfg }
  | .finished, .invalidating => some (out (unwind cfg f .stale))
  | .failed _, .invalidating => some (out (unwind cfg f .error))
  | .finished, .closing why => some (out (f, afterClose why))
  | .failed _, .closing _ => some (out (f, .backoff))
  | .finished, .backoff => some (out (f, .top))
  | .cancel, .done => none
  | .cancel, .consuming _ _ => none
  | .cancel, pc =>
    if w.cancelled then
      some { out (cancelAt cfg f pc) with cancelled := false, orphan := w.pending cfg }
    else none
  | _, _ => none

end Worker

end Outbox
