import Outbox.ForStd.ExitStack
import Outbox.Native.Response
import Outbox.Native.Worker

/-!
# Processing a message

`process_message` and `consume` of `OutboxSubscriber` (`subscriber/usecase.py`), and the
response publisher `OutboxFakePublisher` (`publisher/fake.py`). Middlewares, handlers, the
publishers of other brokers and the producer are code of users or of FastStream: they run on
a state of their own and may raise anything. What `process_message` does of its own accord
is kept in a record beside that state.

The context scopes that are opened around a handler are left out: nothing here reads them.
-/

namespace Outbox

open ExitStack

/-! ## What runs -/

/-- What code raises, as far as `consume` and `process_message` tell it apart. -/
inductive Thrown where
  /-- `_OutboxConfigError`. -/
  | outboxConfigError (msg : String)
  | stopConsume
  /-- Another exception of the package. -/
  | raised (e : Error)
  /-- Another `Exception`. -/
  | exception (e : PyException)
  | systemExit
  /-- A `BaseException` that is no `Exception`, such as `CancelledError`. -/
  | baseException (e : PyException)
deriving DecidableEq, Repr

/-- `except Exception` catches it. -/
def Thrown.isException : Thrown → Bool
  | .systemExit | .baseException _ => false
  | _ => true

/-- FastStream's `Response`. -/
structure Response (β : Type) where
  body : β
  headers : Dict
  correlationId : Option String

/-- What a handler returned, after `ensure_response`. -/
inductive Result (β : Type) where
  | response (result : Response β)
  | outboxResponse (result : OutboxResponse β)

/-- What `as_publish_command` makes of it: a FastStream `PublishCommand`, of which nothing is
    read, or an `OutboxPublishCommand`. -/
inductive Command (β : Type) where
  | publishCommand (result : Response β)
  | outboxPublishCommand (cmd : OutboxPublishCommand β)

/-- The scope of a middleware around a call. -/
abbrev Scope (σ α ρ : Type) := (α → Code σ Thrown ρ) → α → Code σ Thrown ρ

/-- A middleware, for one message. -/
structure Middleware (σ β : Type) where
  aenter : Code σ Thrown Unit
  aexit : Callback σ Thrown
  consumeScope : Scope σ OutboxMessage (Result β)
  publishScope : Scope σ (Command β) Unit

/-- A publisher whose `_publish` is called. -/
structure Publisher (σ β : Type) where
  /-- It is an `OutboxFakePublisher`. -/
  isOutbox : Bool
  publish : Command β → List (Scope σ (Command β) Unit) → Code σ Thrown Unit

/-- A handler of the subscriber with its filter, parser and decoder (`HandlerItem`). -/
structure HandlerItem (σ β : Type) where
  isSuitable : Code σ Thrown (Option OutboxMessage)
  call : OutboxMessage → List (Scope σ OutboxMessage (Result β)) → Code σ Thrown (Result β)
  publishers : List (Publisher σ β)

/-! ## The response publisher -/

/-- The error of a session whose transaction is over. -/
def noTransactionMsg : String :=
  "OutboxResponse is published after the handler returns, but its session has no open " ++
    "transaction by then, so the follow-on row would never commit. Open the session and its " ++
    "transaction in a broker middleware so they outlive the handler, or call " ++
    "broker.publish(..., session=session) inside the handler instead."

/-- `OutboxFakePublisher`. `inTransaction` asks the session of a command. -/
def outboxFakePublisher {σ β : Type} (inTransaction : OutboxPublishCommand β → σ → Bool)
    (producer : Command β → Code σ Thrown Unit) : Publisher σ β where
  isOutbox := true
  publish cmd extraMiddlewares := fun s =>
    match cmd with
    | .publishCommand _ => (.ok (), s)
    | .outboxPublishCommand outbox =>
      if !inTransaction outbox s then (.error (.outboxConfigError noTransactionMsg), s)
      else extraMiddlewares.foldl (fun call m => m call) producer cmd s

/-! ## process_message -/

namespace OutboxSubscriber

/-- What `process_message` does: it takes the lock, runs code in the state there is, and gives
    the lock back. -/
inductive Step (σ β : Type) where
  | locked
  | entering (middleware : Nat) (state : σ)
  | examining (call : Nat) (state : σ)
  | calling (call : Nat) (state : σ)
  | publishing (publisher : Nat) (cmd : Command β) (state : σ)
  | exiting (middleware : Nat)
  | unlocked

/-- The state the code of others runs on, and the record. -/
structure Frame (σ β : Type) where
  state : σ
  steps : List (Step σ β) := []

/-- A subscriber: its middleware stack for a message, its calls, and what its response
    publisher asks a session and calls. -/
structure Pipeline (σ β : Type) where
  middlewares : List (Middleware σ β)
  calls : List (HandlerItem σ β)
  /-- FastStream's gate before the response publisher; it wants a truthy `reply_to`. -/
  replies : OutboxMessage → Bool
  inTransaction : OutboxPublishCommand β → σ → Bool
  producer : Command β → Code σ Thrown Unit
  propagateInboundHeaders : Bool
  /-- Python's, of a `str`. -/
  repr : String → String
  /-- The `repr` of the row. -/
  msgRepr : String

variable {σ β α : Type}

namespace Frame

def note (f : Frame σ β) (step : Step σ β) : Frame σ β := { f with steps := f.steps ++ [step] }

@[simp] theorem note_steps (f : Frame σ β) (step : Step σ β) :
    (f.note step).steps = f.steps ++ [step] := rfl

/-- Code of others. -/
def runs (code : Code σ Thrown α) : Code (Frame σ β) Thrown α := fun f =>
  let r := code f.state
  (r.1, { f with state := r.2 })

@[simp] theorem runs_steps (code : Code σ Thrown α) (f : Frame σ β) :
    (runs code f).2.steps = f.steps := rfl

end Frame

/-- `await middleware.__aenter__()`, for each in turn; the first has the given index. -/
def enterAll : Nat → List (Middleware σ β) → Code (Frame σ β) Thrown Unit
  | _, [] => fun f => (.ok (), f)
  | i, m :: rest => fun f =>
    match Frame.runs m.aenter (f.note (.entering i f.state)) with
    | (.error e, f) => (.error e, f)
    | (.ok (), f) => enterAll (i + 1) rest f

/-- The end of the loop over the calls. -/
inductive Examined (σ β : Type) where
  /-- A call is suitable, for the message it parsed. -/
  | suitable (call : Nat) (h : HandlerItem σ β) (message : OutboxMessage)
  /-- `parsing_error`. -/
  | parsingError (e : Thrown)
  /-- A `BaseException`, which is not caught. -/
  | escaped (e : Thrown)
  | none

/-- `await h.is_suitable(msg, cache)`, up to the first suitable call. -/
def examine : Nat → List (HandlerItem σ β) → Frame σ β → Examined σ β × Frame σ β
  | _, [], f => (.none, f)
  | i, h :: rest, f =>
    match Frame.runs h.isSuitable (f.note (.examining i f.state)) with
    | (.error e, f) => (if e.isException then .parsingError e else .escaped e, f)
    | (.ok (some message), f) => (.suitable i h message, f)
    | (.ok none, f) => examine (i + 1) rest f

/-- `if not result_msg.correlation_id`, then `_maybe_propagate_inbound_headers`. -/
def fillResult (propagateInboundHeaders : Bool) (result : Result β) (message : OutboxMessage) :
    Result β :=
  match result with
  | .outboxResponse result =>
    .outboxResponse (processMessage propagateInboundHeaders result message)
  | .response result =>
    let result :=
      if (truthy result.correlationId).isNone then
        { result with correlationId := some message.correlationId }
      else result
    .response
      (if !(propagateInboundHeaders && result.headers.isEmpty) then result
      else { result with headers := message.headers })

/-- The error of the dual-fire guard. -/
def dualFireMsg : String :=
  "Handler returned OutboxResponse and is also decorated by a foreign-broker " ++
    "publisher — this would dual-fire (insert a row into the outbox AND publish " ++
    "to the foreign broker). Pick one: return a plain value to use the foreign " ++
    "publisher as a relay, or remove the foreign publisher decorator and keep " ++
    "OutboxResponse for outbox fan-out."

/-- `_reject_outbox_response_with_foreign_publisher` raises. -/
def rejects (result : Result β) (publishers : List (Publisher σ β)) : Bool :=
  match result with
  | .response _ => false
  | .outboxResponse _ => publishers.any fun p => !p.isOutbox

/-- `result_msg.as_publish_command()`. -/
def asPublishCommand (repr : String → String) (result : Result β) :
    Except Thrown (Command β) :=
  match result with
  | .response result => .ok (.publishCommand result)
  | .outboxResponse result =>
    match result.asPublishCommand repr with
    | .error e => .error (.raised e)
    | .ok cmd => .ok (.outboxPublishCommand cmd)

/-- `await p._publish(result_msg.as_publish_command(), ...)`, for each in turn. -/
def publishAll (repr : String → String) (result : Result β)
    (scopes : List (Scope σ (Command β) Unit)) :
    Nat → List (Publisher σ β) → Code (Frame σ β) Thrown Unit
  | _, [] => fun f => (.ok (), f)
  | i, p :: rest => fun f =>
    match asPublishCommand repr result with
    | .error e => (.error e, f)
    | .ok cmd =>
      match Frame.runs (p.publish cmd scopes) (f.note (.publishing i cmd f.state)) with
      | (.error e, f) => (.error e, f)
      | (.ok (), f) => publishAll repr result scopes (i + 1) rest f

namespace Pipeline

variable (p : Pipeline σ β)

/-- `_make_response_publisher`. -/
def makeResponsePublisher : Publisher σ β := outboxFakePublisher p.inTransaction p.producer

/-- The publishers of a response: the response publisher, then the handler's. -/
def publishers (h : HandlerItem σ β) (message : OutboxMessage) : List (Publisher σ β) :=
  (if p.replies message then [p.makeResponsePublisher] else []) ++ h.publishers

/-- From the call of the suitable handler to its last publish. -/
def handle (call : Nat) (h : HandlerItem σ β) (message : OutboxMessage) :
    Code (Frame σ β) Thrown (Result β) := fun f =>
  let scopes := p.middlewares.reverse
  match Frame.runs (h.call message (scopes.map Middleware.consumeScope))
    (f.note (.calling call f.state)) with
  | (.error e, f) => (.error e, f)
  | (.ok result, f) =>
    let result := fillResult p.propagateInboundHeaders result message
    if rejects result h.publishers then (.error (.outboxConfigError dualFireMsg), f)
    else
      match publishAll p.repr result (scopes.map Middleware.publishScope) 0
        (p.publishers h message) f with
      | (.error e, f) => (.error e, f)
      | (.ok (), f) => (.ok result, f)

/-- `SubscriberNotFound(error_msg)`. -/
def subscriberNotFound : Thrown :=
  .exception
    { typeName := "SubscriberNotFound"
      repr := some ("SubscriberNotFound(" ++
        p.repr ("There is no suitable handler for msg=" ++ p.msgRepr) ++ ")") }

/-- The body of the `async with`, and whether it pushed the exits of the middlewares. -/
def body (f : Frame σ β) : Except Thrown (Result β) × Bool × Frame σ β :=
  match enterAll 0 p.middlewares f with
  | (.error e, f) => (.error e, false, f)
  | (.ok (), f) =>
    match examine 0 p.calls f with
    | (.escaped e, f) => (.error e, false, f)
    | (.parsingError e, f) => (.error e, true, f)
    | (.none, f) => (.error p.subscriberNotFound, true, f)
    | (.suitable call h message, f) =>
      let r := p.handle call h message f
      (r.1, true, r.2)

/-- `stack.push_async_exit(m.__aexit__)`. -/
def exitOf (m : Middleware σ β × Nat) : Callback (Frame σ β) Thrown := fun pending f =>
  Frame.runs (m.1.aexit pending) (f.note (.exiting m.2))

/-- The exit of `stack.enter_context(self.lock)`. -/
def release : Callback (Frame σ β) Thrown := fun _ f => (.ok false, f.note .unlocked)

/-- `process_message`: the response it returns, `none` where an exit suppressed the
    exception. -/
def processMessage : Code (Frame σ β) Thrown (Option (Result β)) := fun f =>
  let (result, pushed, f) := p.body (f.note .locked)
  let exits := if pushed then p.middlewares.zipIdx.reverse else []
  let raised := match result with
    | .ok _ => none
    | .error e => some e
  let (pending, f) := unwind (exits.map exitOf ++ [release]) raised f
  (match pending with
    | some e => .error e
    | none => .ok result.toOption, f)

/-- `consume`; `_stop_from_handler` spawns the stop of a worker's subscriber. -/
def consume (running : Bool) (f : Frame σ β) : ConsumeEnd × Frame σ β :=
  if !running then (.returned, f)
  else
    let (result, f) := p.processMessage f
    (match result with
      | .ok _ => .returned
      | .error (.outboxConfigError _) => .configError
      | .error .stopConsume | .error .systemExit => .stopConsume
      -- logged by a middleware
      | .error (.raised _) | .error (.exception _) => .returned
      | .error (.baseException _) => .cancelledError, f)

end Pipeline

end OutboxSubscriber

end Outbox
