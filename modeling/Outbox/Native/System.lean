import Outbox.Native.FetchLoop

/-!
# The system

Any number of subscribers, in any number of processes, on one database, next to publishers
and callers of `cancel_timer`. Every client call is one atomic statement: the database may
run it at any time while its caller waits for it, or later if the caller gave up, or never.
A reply may be lost on the way back. A process that dies is a subscriber that takes no
further step.
-/

namespace Outbox

/-! ## One subscriber -/

/-- One subscriber: its tasks, the calls of `stop()`, and what it did. -/
structure Subscriber where
  cfg : SubscriberConfig
  shared : Shared := {}
  workers : List Worker := []
  fetch : FetchTask := {}
  stops : List StopPc := []
  /-- The tokens its fetches drew. -/
  drawn : List UUID := []
  log : List Note := []

/-- What can happen to one subscriber. -/
inductive SubscriberAct where
  | start
  /-- A caller calls `stop()`. -/
  | stop
  /-- A call of `stop()` runs on. -/
  | stopRun (call : Nat)
  /-- Its drain times out. -/
  | stopTimeout (call : Nat)
  /-- The call itself is cancelled. -/
  | stopAbort (call : Nat)
  /-- `_on_notify`, with the payload of the NOTIFY; `none` if it has none. -/
  | notify (payload : Option String)
  /-- The broker loses its client, or gets one. -/
  | client (gone : Bool)
  | worker (index : Nat) (act : WorkerAct)
  | fetch (act : FetchAct)
deriving DecidableEq, Repr

namespace Subscriber

/-- Every worker of the subscriber has ended. -/
def workersDone (s : Subscriber) : Bool :=
  s.workers.all fun w => match w.pc with
    | .done => true
    | _ => false

/-- Every task of the subscriber has ended. -/
def tasksDone (s : Subscriber) : Bool :=
  s.workersDone && match s.fetch.pc with
    | .done => true
    | _ => false

/-- `task.cancel()` for every task that is not done. -/
def cancelTasks (s : Subscriber) : Subscriber :=
  { s with
    workers := s.workers.map fun w => match w.pc with
      | .done => w
      | _ => { w with cancelled := true }
    fetch := match s.fetch.pc with
      | .done => s.fetch
      | _ => { s.fetch with cancelled := true } }

/-- `start`. It is called when no `stop()` is under way and every task has ended. -/
def start (s : Subscriber) : Option Subscriber :=
  if s.tasksDone && s.stops.all StopPc.over then
    some { s with
      shared := { s.shared with running := true, stopping := false }
      workers := List.replicate s.cfg.maxWorkers {}
      fetch := { pc := .top } }
  else none

/-- `stop` after its drain: no task may run on. -/
def afterDrain (s : Subscriber) (call : Nat) (passedLock timedOut : Bool) : Subscriber :=
  let tags : Tags :=
    { baseTags s.cfg (s.cfg.queues.headD "") with
      drainTimeoutSeconds := some (s.cfg.gracefulTimeout.getD defaultDrainTimeoutSeconds) }
  let s := s.cancelTasks
  { s with
    shared := { s.shared with running := false }
    stops := s.stops.set call (.gathering passedLock timedOut)
    log := s.log ++ if timedOut then [.metric none .drainTimeout tags] else [] }

/-- `stop` from one await to the next. -/
def stopRun (s : Subscriber) (call : Nat) : Option Subscriber :=
  match s.stops[call]? with
  | some .starting =>
    some { s with
      shared := { s.shared with stopping := true, notifyEvent := true }
      stops := s.stops.set call .locking }
  | some .locking =>
    if s.shared.claimLocked then none
    -- a join() with nothing unfinished does not wait
    else if s.shared.unfinished = 0 then some (s.afterDrain call true false)
    else some { s with stops := s.stops.set call (.joining s.shared.finishedSets) }
  | some (.joining seen) =>
    if seen < s.shared.finishedSets then some (s.afterDrain call true false) else none
  | some (.gathering passedLock timedOut) =>
    if s.tasksDone then
      some { s with
        shared := s.shared.resetInflight
        workers := []
        stops := s.stops.set call (.returned passedLock timedOut)
        log := s.log ++ s.shared.inflight.map fun m => .discarded m.key }
    else none
  | _ => none

/-- The drain of a call of `stop()` times out. -/
def stopTimeout (s : Subscriber) (call : Nat) : Option Subscriber :=
  match s.stops[call]? with
  | some .locking => some (s.afterDrain call false true)
  | some (.joining _) => some (s.afterDrain call true true)
  | _ => none

/-- A call of `stop()` is itself cancelled; a `gather` passes that on to the tasks. -/
def stopAbort (s : Subscriber) (call : Nat) : Option Subscriber :=
  match s.stops[call]? with
  | some .locking => some { s with stops := s.stops.set call .aborted }
  | some (.joining _) => some { s with stops := s.stops.set call .aborted }
  | some (.gathering _ _) => some { s.cancelTasks with stops := s.stops.set call .aborted }
  | _ => none

/-- `_on_notify`: wake for the queues the subscriber serves, and for a payload of an
    unexpected shape. -/
def onNotify (s : Subscriber) (payload : Option String) : Subscriber :=
  if payload.all fun queue => s.cfg.queues.contains queue then
    { s with
      shared := { s.shared with notifyEvent := true }
      log := s.log ++ [.notified] }
  else s

/-- The subscriber after a step of one worker. -/
def afterWorker (s : Subscriber) (index : Nat) (out : Worker.StepOut) : Subscriber :=
  { s with
    shared := out.frame.shared
    workers := s.workers.set index
      { pc := out.pc
        buffer := out.frame.buffer
        generation := out.generation
        cancelled := out.cancelled }
    stops := if out.spawnsStop then s.stops ++ [.starting] else s.stops
    log := s.log ++ out.frame.notes }

/-- The subscriber after a step of the fetch loop. -/
def afterFetch (s : Subscriber) (out : FetchTask.StepOut) : Subscriber :=
  { s with
    shared := out.shared
    fetch := { pc := out.pc, cancelled := out.cancelled }
    drawn := s.drawn ++ out.drawn.toList
    log := s.log ++ out.notes }

/-- One step of a subscriber, and the statement it leaves behind, if any. -/
def step (s : Subscriber) (act : SubscriberAct) : Option (Subscriber × Option Stmt) :=
  match act with
  | .start => s.start.map fun s => (s, none)
  | .stop =>
    some ({ s with
      shared := { s.shared with stopping := true, notifyEvent := true }
      stops := s.stops ++ [.locking] }, none)
  | .stopRun call => (s.stopRun call).map fun s => (s, none)
  | .stopTimeout call => (s.stopTimeout call).map fun s => (s, none)
  | .stopAbort call => (s.stopAbort call).map fun s => (s, none)
  | .notify payload => some (s.onNotify payload, none)
  | .client gone => some ({ s with shared := { s.shared with clientGone := gone } }, none)
  | .worker index act =>
    s.workers[index]?.bind fun w =>
      (w.step s.cfg s.shared act).map fun out => (s.afterWorker index out, out.orphan)
  | .fetch act =>
    (s.fetch.step s.cfg s.shared act).map fun out => (s.afterFetch out, out.orphan)

end Subscriber

/-! ## The whole system -/

/-- Who issued an operation the database ran. -/
inductive Source where
  /-- A publisher, a caller of `cancel_timer`, or time. -/
  | external
  /-- A task of the subscriber with the given index. -/
  | subscriber (index : Nat) (stmt : Stmt)

/-- An operation the database ran. -/
structure Executed where
  source : Source
  entry : World.Entry

/-- The database, the subscribers, and the statements nobody waits for any more. -/
structure System where
  world : World := {}
  subscribers : List Subscriber := []
  orphans : List (Nat × Stmt) := []
  /-- What the database ran so far, oldest first. -/
  executed : List Executed := []

/-- What can happen. -/
inductive Act where
  /-- A publisher, a caller of `cancel_timer` or `fetch_unprocessed`, or time. -/
  | external (op : Op)
  | subscriber (index : Nat) (act : SubscriberAct)
  /-- The database runs the statement a worker awaits. -/
  | applyWorker (index worker : Nat)
  /-- The database runs the fetch a fetch loop awaits. -/
  | applyFetch (index : Nat) (locked : List Nat)
  /-- The database runs a statement nobody waits for any more. -/
  | applyOrphan (index : Nat) (locked : List Nat)
deriving DecidableEq, Repr

/-- The operations that are not a subscriber's. -/
def Op.isExternal : Op → Bool
  | .tick _ | .insert _ _ | .insertBatch _ _ | .cancelTimer _ _ | .fetchUnprocessed _ _ => true
  | _ => false

namespace System

/-- The subscribers of the given configurations on an empty database, before any start. -/
def init (start : Int) (cfgs : List SubscriberConfig) : System :=
  { world := World.init start
    subscribers := cfgs.map fun cfg => { cfg := cfg } }

/-- The database runs one operation. -/
def execute (b : Backend) (s : System) (source : Source) (op : Op) : Reply × System :=
  let r := s.world.step b op
  let entry : World.Entry :=
    { before := s.world, input := op, output := r.1, after := r.2 }
  (r.1, { s with
    world := r.2
    executed := s.executed ++ [{ source := source, entry := entry }] })

/-- A claim draws a token nobody has drawn before (`uuid4`). -/
def fresh (s : System) (act : SubscriberAct) : Bool :=
  match act with
  | .fetch (.claim token) => s.subscribers.all fun sub => !sub.drawn.contains token
  | _ => true

/-- One step of the system; `none` if the act is not possible. -/
def step (b : Backend) (s : System) (act : Act) : Option System :=
  match act with
  | .external op => if op.isExternal then some (s.execute b .external op).2 else none
  | .subscriber index act =>
    s.subscribers[index]?.bind fun sub =>
      if s.fresh act then
        (sub.step act).map fun (sub, orphan) =>
          { s with
            subscribers := s.subscribers.set index sub
            orphans := s.orphans ++ orphan.toList.map fun stmt => (index, stmt) }
      else none
  | .applyWorker index worker =>
    s.subscribers[index]?.bind fun sub =>
      sub.workers[worker]?.bind fun w =>
        (w.pending sub.cfg).map fun stmt =>
          let (reply, s') := s.execute b (.subscriber index stmt) (stmt.op [])
          { s' with
            subscribers := s.subscribers.set index
              { sub with workers := sub.workers.set worker (w.deliver reply) } }
  | .applyFetch index locked =>
    s.subscribers[index]?.bind fun sub =>
      (sub.fetch.pending sub.cfg).map fun stmt =>
        let (reply, s') := s.execute b (.subscriber index stmt) (stmt.op locked)
        { s' with
          subscribers := s.subscribers.set index { sub with fetch := sub.fetch.deliver reply } }
  | .applyOrphan index locked =>
    s.orphans[index]?.map fun (sub, stmt) =>
      let (_, s') := s.execute b (.subscriber sub stmt) (stmt.op locked)
      { s' with orphans := s.orphans.eraseIdx index }

/-- A run: an act that is not possible changes nothing. -/
def run (b : Backend) (s : System) (acts : List Act) : System :=
  acts.foldl (fun s act => (s.step b act).getD s) s

end System

/-! ## A sample -/

/-- One worker on one queue, without retries, batching or a dead-letter table. -/
def plainConfig : SubscriberConfig where
  queues := ["orders"]
  maxWorkers := 1
  retryStrategy := none
  fetchBatchSize := 1
  leaseTtlSeconds := 60000000
  gracefulTimeout := some 1000000
  maxDeliveries := none
  terminalFlushBatchSize := 1
  engine := true
  dlqTable := false
  lastExceptionRenderer := none
  callName := "handler"

/-- The subscriber starts and connects. -/
def startActs : List Act :=
  [.subscriber 0 .start,
    .subscriber 0 (.fetch .run),
    .subscriber 0 (.fetch .opened),
    .subscriber 0 (.worker 0 .run),
    .subscriber 0 (.worker 0 .opened)]

/-- What is claimable is fetched under the token, and queued. -/
def fetchActs (token : UUID) : List Act :=
  [.subscriber 0 (.fetch (.claim token)),
    .applyFetch 0 [],
    .subscriber 0 (.fetch (.replied {}))]

/-- A published row is claimed and handed to the handler. -/
def consumingActs : List Act :=
  .external (.insert 0 { queue := "orders", payload := [1] }) :: startActs ++ fetchActs 7 ++
    [.subscriber 0 (.worker 0 (.got {}))]

/-- The handler acks, and the delete lands. -/
def ackedActs : List Act :=
  consumingActs ++
  [.subscriber 0 (.worker 0 (.consumed .returned [.ack {}] false {})),
    .applyWorker 0 0,
    .subscriber 0 (.worker 0 (.replied {}))]

example : ((System.init 0 [plainConfig]).run .postgres ackedActs).world.store.rows = [] := by
  decide

end Outbox
