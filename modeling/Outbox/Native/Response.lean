import Outbox.Native.Envelope

/-!
# Chained responses

A handler that returns an `OutboxResponse` (`response.py`) has a follow-on row published
for it. `process_message` (`subscriber/usecase.py`) fills in what the response left open,
the response becomes an `OutboxPublishCommand`, and the producer encodes that command's
body under its headers.

The response and the command check their arguments with one validator. FastStream's
`Response` stores `headers or {}`; dicts are given by their contents here, as no function
below changes a dict it has not just copied.
-/

namespace Outbox

/-! ## Publish arguments -/

/-- An argument the code asks `isinstance(..., str)` of. -/
inductive PyObject where
  | str (s : String)
  | other (typeName : String)
deriving DecidableEq, Repr

/-- A `datetime`, and whether it is timezone-aware. -/
structure Activation where
  instant : Int
  aware : Bool := true
deriving DecidableEq, Repr

/-- The arguments of a publish besides its body, headers and correlation id. -/
structure PublishArgs where
  queue : PyObject
  /-- Whether `session` is an `AsyncSession` or an `AsyncConnection`. -/
  session : Bool := true
  activateIn : Option Int := none
  activateAt : Option Activation := none
  timerId : Option String := none
  timerConflict : String := "ignore"
deriving DecidableEq, Repr

section

variable (repr : String → String)

/-- `_validate_publish_args`. -/
def validatePublishArgs (context : String) (args : PublishArgs) : Except Error Unit :=
  if args.activateIn.isSome && args.activateAt.isSome then
    .error (.valueError (context ++ " accepts at most one of activate_in / activate_at"))
  else if args.activateAt.any fun t => !t.aware then
    .error (.valueError (context ++ " requires activate_at to be timezone-aware"))
  else if !args.session then
    .error (.typeError (context ++
      " requires an sqlalchemy.ext.asyncio.AsyncSession or AsyncConnection"))
  else
    match args.queue with
    | .other typeName => .error (.typeError ("queue must be a str, got " ++ typeName))
    | .str queue =>
      let timerLength := args.timerId.elim 0 String.length
      if queue.isEmpty then
        .error (.valueError "queue must be a non-empty string")
      else if queue.length > maxQueueLength then
        .error (.valueError ("queue must be at most " ++ toString maxQueueLength ++
          " characters (got " ++ toString queue.length ++ ")"))
      else if timerLength > maxQueueLength then
        .error (.valueError ("timer_id must be at most " ++ toString maxQueueLength ++
          " characters (got " ++ toString timerLength ++ ")"))
      else if !(["ignore", "extend"].contains args.timerConflict) then
        .error (.valueError ("timer_conflict must be one of ('ignore', 'extend') (got " ++
          repr args.timerConflict ++ ")"))
      else if args.timerConflict != "ignore" && args.timerId.isNone then
        .error (.valueError ("timer_conflict=" ++ repr args.timerConflict ++
          " requires a timer_id"))
      else
        .ok ()

/-! ## Commands and responses -/

/-- `OutboxPublishCommand`. -/
structure OutboxPublishCommand (β : Type) extends PublishArgs where
  body : β
  extraBodies : List β
  headers : Dict
  correlationId : Option String

variable {β : Type}

/-- `OutboxPublishCommand.__init__`. -/
def OutboxPublishCommand.init (body : β) (bodies : List β) (args : PublishArgs)
    (headers : Option Dict) (correlationId : Option String) :
    Except Error (OutboxPublishCommand β) :=
  match validatePublishArgs repr "OutboxPublishCommand" args with
  | .error e => .error e
  | .ok () =>
    if !bodies.isEmpty && (args.timerId.isSome || correlationId.isSome) then
      .error (.valueError ("timer_id / correlation_id are not supported for batch publishes " ++
        "(multiple bodies)"))
    else
      .ok
        { args with
          body := body
          extraBodies := bodies
          headers := headers.getD ∅
          correlationId := correlationId }

/-- `OutboxResponse`. -/
structure OutboxResponse (β : Type) extends PublishArgs where
  body : β
  headers : Dict
  correlationId : Option String

/-- `OutboxResponse.__init__`. -/
def OutboxResponse.init (body : β) (args : PublishArgs) (headers : Option Dict)
    (correlationId : Option String) : Except Error (OutboxResponse β) :=
  match validatePublishArgs repr "OutboxResponse" args with
  | .error e => .error e
  | .ok () =>
    -- if correlation_id is None and headers
    let correlationId :=
      if correlationId.isNone && headers.any fun d => !d.isEmpty then
        headers.bind fun d => d.get? correlationIdHeader
      else correlationId
    .ok
      { args with
        body := body
        headers := headers.getD ∅
        correlationId := correlationId }

/-- `OutboxResponse.as_publish_command`. -/
def OutboxResponse.asPublishCommand (response : OutboxResponse β) :
    Except Error (OutboxPublishCommand β) :=
  OutboxPublishCommand.init repr response.body [] response.toPublishArgs (some response.headers)
    response.correlationId

end

/-! ## Processing a message -/

section

variable {β : Type}

/-- `if not result_msg.correlation_id: result_msg.correlation_id = message.correlation_id`. -/
def fillCorrelationId (result : OutboxResponse β) (message : OutboxMessage) :
    OutboxResponse β :=
  if (truthy result.correlationId).isNone then
    { result with correlationId := some message.correlationId }
  else result

/-- `_maybe_propagate_inbound_headers`, of an `OutboxResponse`. -/
def maybePropagateInboundHeaders (propagateInboundHeaders : Bool) (result : OutboxResponse β)
    (message : OutboxMessage) : OutboxResponse β :=
  if !(propagateInboundHeaders && result.headers.isEmpty) then result
  else { result with headers := envelopeManagedHeaders.foldl PyDict.pop message.headers }

/-- What `process_message` makes of the response of a handler. -/
def processMessage (propagateInboundHeaders : Bool) (result : OutboxResponse β)
    (message : OutboxMessage) : OutboxResponse β :=
  maybePropagateInboundHeaders propagateInboundHeaders (fillCorrelationId result message) message

/-- The response is published: `as_publish_command`, then the producer's encoding. -/
def publishResponse (encodeMessage : β → Except PyException (Bytes × Option String))
    (repr : String → String) (response : OutboxResponse β) (generated : String) :
    Except PublishError (Bytes × Dict) :=
  match response.asPublishCommand repr with
  | .error e => .error (.raised e)
  | .ok cmd =>
    encodePayload encodeMessage repr cmd.body (some cmd.headers) cmd.correlationId generated

end

end Outbox
