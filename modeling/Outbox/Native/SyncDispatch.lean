import Outbox.Native.Dispatch
import Outbox.Native.FakeCalls

/-!
# Sync dispatch

The test broker of `testing.py` in its default mode. A publish stores its rows in the fake
client and then runs their handlers before it returns; a handler may publish in turn, so
the dispatches nest to any depth. `TestOutboxBroker.step` runs the test and its handlers up
to their next call of the broker; the code that waits for a publish, and the loops of
`_dispatch_stored` around it, are on the stack.

What is left out: the encoding of a body and the `published` metric (they do not depend on
the store), rows that a test feeds or changes in the fake itself, and tasks beside the one
that runs the test.
-/

namespace Outbox

/-! ## dispatch_one, up to the handler and from there -/

namespace Inline

section Recorder

variable (recorder : Event → Tags → Except PyException Unit) (cfg : SubscriberConfig)
  (b : Backend) (writerConn : Bool)

/-- How far `dispatch_one` comes before it runs the handler. -/
inductive Begun where
  /-- It is over; whether it raised. -/
  | ended (raised : Bool) (s : State)
  | consuming (s : State) (m : OutboxInnerMessage)

/-- Up to `consume(row)`. -/
def beginDispatch (s : State) (m : OutboxInnerMessage) : Begun :=
  let m := { m with retryStrategy := cfg.retryStrategy }
  let base := { baseTags cfg m.row.queue with deliveriesCount := some m.row.deliveriesCount }
  let (allowed, m) := m.allowDelivery cfg.maxDeliveries
  if !allowed then
    let r := safeFlush recorder cfg writerConn (flushTerminal recorder cfg b s m) m
      .nackedTerminal { base with reason := some .maxDeliveries }
    .ended r.1 r.2
  else
    .consuming (emitMetric recorder s .dispatched
      { base with sizeBytes := some m.row.payload.length }) m

/-- From the end of `consume(row)`; whether it raised. -/
def endDispatch (s : State) (m : OutboxInnerMessage) (c : Consume) : Bool × State :=
  let m := if c.running then c.acts.foldl (fun m a => a.run m) m else m
  let m := { m with
    handlerDurationSeconds := some (c.left.perfCounter - c.entered.perfCounter) }
  match if c.running then c.how else .returned with
  | .returned | .stopConsume => writeOutcome recorder cfg b writerConn c.stillRunning c.left s m
  | .configError => (true, (writeOutcome recorder cfg b writerConn c.stillRunning c.left s m).2)
  | .exception => (false, emitDispatchAbandoned recorder cfg s m)
  | .cancelledError => (true, s)

end Recorder

end Inline

/-! ## The rows a publish stores -/

namespace FakeOutboxClient

/-- What `insert` appends to `_dispatchable`: the row it stored, not one it extended. -/
def insertDispatchable (s : Store) (now : Int) (args : InsertArgs) : List Row :=
  match validateLikePostgres args.queue args.timerId args.headers with
  | some _ => []
  | none =>
    match s.rows.find? (holdsKey args.queue args.timerId), args.timerConflict with
    | some _, .extend => []
    | _, _ =>
      (store s now args.queue args.payload args.headers (some (args.deadline now))
        args.timerId).1.toList

/-- What `insert_batch` appends to it. -/
def insertBatchDispatchable (s : Store) (now : Int) (args : InsertBatchArgs) : List Row :=
  match args.rows.findSome? fun row => validateLikePostgres args.queue none row.2 with
  | some _ => []
  | none =>
    let nextAt := resolveNextAttemptClientSide args.activateIn args.activateAt now
    (args.rows.foldl (fun (acc : List Row × Store) row =>
      let r := append acc.2 now args.queue row.1 row.2 nextAt none
      (acc.1 ++ [r.1], r.2)) ([], s)).1

end FakeOutboxClient

/-! ## The test broker -/

namespace TestOutboxBroker

/-- What a publish gives the code that awaits it. -/
inductive PublishReply where
  | published (rowId : Option Nat)
  | publishedBatch
  /-- The client raised. -/
  | raised (e : Error)
  /-- An exception came out of a dispatch. -/
  | escaped

/-- Code of a test, or of a handler and its middlewares, by its calls of the broker. -/
inductive Script where
  /-- It is over: `consume` ends like this, having done that to the message. -/
  | ends (how : ConsumeEnd) (acts : List HandlerAct) (entered left : Reading)
  | tick (elapsed : Nat) (next : Script)
  | cancelTimer (queue timerId : String) (next : Bool → Script)
  | publish (args : InsertArgs) (next : PublishReply → Script)
  | publishBatch (args : InsertBatchArgs) (next : PublishReply → Script)

/-- A subscriber of the broker. -/
structure TestSubscriber where
  cfg : SubscriberConfig
  /-- It has a handler. -/
  calls : Bool
  handler : OutboxInnerMessage → Script

/-- `_find_subscriber_for_queue`. -/
def findSubscriberForQueue (subs : List TestSubscriber) (queue : String) : Option Nat :=
  subs.findIdx? fun sub => sub.calls && sub.cfg.queues.contains queue

/-- The message code runs for, with the index of its subscriber; `none` for the test. -/
abbrev Running := Option (Nat × OutboxInnerMessage)

/-- What runs. -/
inductive Control where
  | script (on : Running) (code : Script)
  /-- The loop of `_dispatch_stored`, in a publish that is to return `reply`. -/
  | storing (rows : List (Nat × String)) (reply : PublishReply)
  /-- An exception on its way out of a dispatch. -/
  | raising
  | finished

/-- What waits for it. -/
inductive Frame where
  /-- Code that awaits a publish. -/
  | publishing (on : Running) (next : PublishReply → Script)
  /-- The loop of `_dispatch_stored`, awaiting `dispatch_one` of the row with the given id. -/
  | storing (id : Nat) (rows : List (Nat × String)) (reply : PublishReply)

/-- What happened, by the id of the row. -/
inductive Note where
  /-- A publish stored it. -/
  | stored (id : Nat) (queue : String)
  /-- `dispatch_one` was called for it. -/
  | dispatched (id : Nat)
  /-- It was passed over: no handler for its queue, or the row was gone. -/
  | skipped (id : Nat) (queue : String)
  /-- An exception came out of its `dispatch_one`. -/
  | raised (id : Nat)
  /-- The loop it was waiting in was left by the exception out of the dispatch of `row`. -/
  | dropped (id row : Nat)
deriving DecidableEq, Repr

/-- The test broker. -/
structure State where
  inline : Inline.State
  /-- The subscribers that `stop()` has stopped, by index. -/
  stopped : List Nat := []
  control : Control
  stack : List Frame := []
  notes : List Note := []

namespace State

def note (s : State) (n : Note) : State := { s with notes := s.notes ++ [n] }

/-- The rows a publish stored are taken, and `_dispatch_stored` begins with them. -/
def dispatchStored (s : State) (on : Running) (next : PublishReply → Script) (rows : List Row)
    (reply : PublishReply) : State :=
  { s with
    control := .storing (rows.map fun r => (r.id, r.queue)) reply
    stack := .publishing on next :: s.stack
    notes := s.notes ++ rows.map fun r => .stored r.id r.queue }

/-- `dispatch_one` of the row with the given id is over; whether it raised. -/
def afterDispatch (s : State) (id : Nat) (r : Bool × Inline.State) : State :=
  let s := { s with inline := r.2 }
  if r.1 then { s with control := .raising }.note (.raised id)
  else
    match s.stack with
    | .storing _ rows reply :: stack => { s with control := .storing rows reply, stack := stack }
    | _ => { s with control := .finished }

end State

section Step

variable (recorder : Event → Tags → Except PyException Unit) (subs : List TestSubscriber)

/-- The code of a message ends: `consume` and the rest of `dispatch_one`. `_stop_from_handler`
    stops the subscriber first; outside its tasks, it awaits the stop. -/
def finish (s : State) (index : Nat) (m : OutboxInnerMessage) (how : ConsumeEnd)
    (acts : List HandlerAct) (entered left : Reading) : State :=
  match subs[index]? with
  | none => { s with control := .finished }
  | some sub =>
    let s := if how = .stopConsume then { s with stopped := index :: s.stopped } else s
    s.afterDispatch m.row.id (Inline.endDispatch recorder sub.cfg .fake false s.inline m
      { how := how
        acts := acts
        stillRunning := !s.stopped.contains index
        entered := entered
        left := left })

/-- `_sync_dispatch` of the first row of the loop, up to the handler's first call. -/
def syncDispatch (s : State) (token : UUID) (reading : Reading) (id : Nat) (queue : String)
    (rows : List (Nat × String)) (reply : PublishReply) : State :=
  let world := s.inline.world
  match findSubscriberForQueue subs queue with
  | none => { s with control := .storing rows reply }.note (.skipped id queue)
  | some index =>
    match subs[index]?, FakeOutboxClient.syncDispatch world.store world.now token id with
    | some sub, (some row, store) =>
      let s := { s with
        inline := { s.inline with world := { world with store := store } }
        stack := .storing id rows reply :: s.stack }.note (.dispatched id)
      match Inline.beginDispatch recorder sub.cfg .fake false s.inline
        (.ofRow row reading.monotonic) with
      | .ended raised inline => s.afterDispatch id (raised, inline)
      | .consuming inline m =>
        let s := { s with inline := inline }
        if s.stopped.contains index then
          -- `consume` returns at once
          s.afterDispatch id (Inline.endDispatch recorder sub.cfg .fake false s.inline m
            { running := false
              acts := []
              stillRunning := false
              entered := reading
              left := reading })
        else { s with control := .script (some (index, m)) (sub.handler m) }
    | _, _ => { s with control := .storing rows reply }.note (.skipped id queue)

/-- The code runs to its next call, or a call to its next return; `token` is what `uuid4()`
    gives meanwhile. -/
def step (s : State) (token : UUID) (reading : Reading) : State :=
  let world := s.inline.world
  match s.control, s.stack with
  | .script none (.ends _ _ _ _), _ => { s with control := .finished }
  | .script (some (index, m)) (.ends how acts entered left), _ =>
    finish recorder subs s index m how acts entered left
  | .script on (.tick elapsed next), _ =>
    { s with
      inline := { s.inline with world := (world.step .fake (.tick elapsed)).2 }
      control := .script on next }
  | .script on (.cancelTimer queue timerId next), _ =>
    let r := world.step .fake (.cancelTimer queue timerId)
    { s with
      inline := { s.inline with world := r.2 }
      control := .script on (next (match r.1 with
        | .cancelled landed => landed
        | _ => false)) }
  | .script on (.publish args next), _ =>
    let r := world.step .fake (.insert world.now args)
    let s := { s with inline := { s.inline with world := r.2 } }
    match r.1 with
    | .inserted (.ok rowId) => s.dispatchStored on next
        (FakeOutboxClient.insertDispatchable world.store world.now args) (.published rowId)
    | .inserted (.error e) => { s with control := .script on (next (.raised e)) }
    | _ => s
  | .script on (.publishBatch args next), _ =>
    let r := world.step .fake (.insertBatch world.now args)
    let s := { s with inline := { s.inline with world := r.2 } }
    match r.1 with
    | .insertedBatch (.ok ()) => s.dispatchStored on next
        (FakeOutboxClient.insertBatchDispatchable world.store world.now args) .publishedBatch
    | .insertedBatch (.error e) => { s with control := .script on (next (.raised e)) }
    | _ => s
  | .storing [] reply, .publishing on next :: stack =>
    { s with control := .script on (next reply), stack := stack }
  | .storing ((id, queue) :: rows) reply, _ =>
    syncDispatch recorder subs s token reading id queue rows reply
  | .raising, .storing id rows _ :: stack =>
    { s with stack := stack, notes := s.notes ++ rows.map fun row => .dropped row.1 id }
  | .raising, .publishing on next :: stack =>
    { s with control := .script on (next .escaped), stack := stack }
  | _, _ => { s with control := .finished }

/-- A test on an empty fake client, for as many steps as there are draws. -/
def run (start : Int) (test : Script) (draws : List (UUID × Reading)) : State :=
  draws.foldl (fun s draw => step recorder subs s draw.1 draw.2)
    { inline := { world := World.init start }, control := .script none test }

end Step

end TestOutboxBroker

end Outbox
