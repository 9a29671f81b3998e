import Outbox.Native.Recorders
import Outbox.Native.Response
import Outbox.Native.System

/-!
# The publish path

`OutboxProducer` (`publisher/producer.py`) encodes the bodies of a command, inserts them
through the broker's client and emits `published`. `OutboxBroker.publish` and `publish_batch`
(`broker.py`) and `OutboxPublisher.publish` (`publisher/usecase.py`) build the command. No
middleware wraps the publish, and the transaction of the session it runs on commits.

`encode_message` and `gen_cor_id` are FastStream's: the one is a parameter, the values the
other draws are arguments. So is the name of an exception's type, which only the metric has.
-/

namespace Outbox

/-- A `str` argument that was validated. -/
def PyObject.text : PyObject → String
  | .str s => s
  | .other _ => ""

/-- What a publish leaves: its result, its `published` event, and the system. -/
structure Publication (α : Type) where
  result : Except PublishError α
  tags : PublishedTags
  after : System

namespace OutboxProducer

variable {β : Type} (encodeMessage : β → Except PyException (Bytes × Option String))
  (repr : String → String) (typeName : PublishError → String)

/-- The arguments of the INSERT. -/
def insertArgs (cmd : OutboxPublishCommand β) (payload : Bytes) (headers : Dict) : InsertArgs :=
  { queue := cmd.queue.text
    payload := payload
    headers := some (Headers.ofDict headers)
    activateIn := cmd.activateIn
    activateAt := cmd.activateAt.map Activation.instant
    timerId := cmd.timerId
    timerConflict := if cmd.timerConflict = "extend" then .extend else .ignore }

/-- The tags of a publish that raised. -/
def errorTags (cmd : OutboxPublishCommand β) (sizeBytes : Nat) (durationSeconds : Int)
    (e : PublishError) : PublishedTags :=
  { queue := cmd.queue.text
    status := "error"
    count := 0
    sizeBytes := sizeBytes
    durationSeconds := durationSeconds
    exceptionType := some (typeName e) }

/-- The tags of one that did not. -/
def successTags (cmd : OutboxPublishCommand β) (count sizeBytes : Nat) (durationSeconds : Int) :
    PublishedTags :=
  { queue := cmd.queue.text
    status := "success"
    count := count
    sizeBytes := sizeBytes
    durationSeconds := durationSeconds }

/-- `publish`, at the reading `now` of the transaction's clock. -/
def publish (b : Backend) (s : System) (cmd : OutboxPublishCommand β) (now : Int)
    (generated : String) (durationSeconds : Int) : Publication (Option Nat) :=
  match encodePayload encodeMessage repr cmd.body (some cmd.headers) cmd.correlationId
    generated with
  | .error e =>
    { result := .error e
      tags := errorTags typeName cmd 0 durationSeconds e
      after := s }
  | .ok (payload, headers) =>
    match s.execute b .external (.insert now (insertArgs cmd payload headers)) with
    | (.inserted (.ok rowId), s) =>
      { result := .ok rowId
        tags := successTags cmd (if rowId.isNone then 0 else 1) payload.length durationSeconds
        after := s }
    | (.inserted (.error e), s) =>
      { result := .error (.raised e)
        tags := errorTags typeName cmd payload.length durationSeconds (.raised e)
        after := s }
    -- no other reply
    | (_, s) =>
      { result := .ok none
        tags := successTags cmd 0 payload.length durationSeconds
        after := s }

/-- The loop of `publish_batch` over the bodies, each with the correlation id that is drawn
    for it: the rows and their total size, or the exception and the size so far. -/
def encodeBatch (headers : Dict) :
    List (β × String) → Except (PublishError × Nat) (List (Bytes × Option Headers) × Nat)
  | [] => .ok ([], 0)
  | (body, generated) :: bodies =>
    match encodePayload encodeMessage repr body (some headers) none generated with
    | .error e => .error (e, 0)
    | .ok (payload, hdrs) =>
      match encodeBatch headers bodies with
      | .error (e, size) => .error (e, payload.length + size)
      | .ok (rows, size) =>
        .ok ((payload, some (Headers.ofDict hdrs)) :: rows, payload.length + size)

/-- `publish_batch`. -/
def publishBatch (b : Backend) (s : System) (cmd : OutboxPublishCommand β) (now : Int)
    (generated : Nat → String) (durationSeconds : Int) : Publication Unit :=
  let bodies := (cmd.body :: cmd.extraBodies).zipIdx.map fun (body, i) => (body, generated i)
  match encodeBatch encodeMessage repr cmd.headers bodies with
  | .error (e, size) =>
    { result := .error e
      tags := errorTags typeName cmd size durationSeconds e
      after := s }
  | .ok (rows, size) =>
    let args : InsertBatchArgs :=
      { queue := cmd.queue.text
        rows := rows
        activateIn := cmd.activateIn
        activateAt := cmd.activateAt.map Activation.instant }
    match s.execute b .external (.insertBatch now args) with
    | (.insertedBatch (.error e), s) =>
      { result := .error (.raised e)
        tags := errorTags typeName cmd size durationSeconds (.raised e)
        after := s }
    | (_, s) =>
      { result := .ok ()
        tags := successTags cmd rows.length size durationSeconds
        after := s }

end OutboxProducer

/-! ## The entry points -/

section

variable {β : Type} (encodeMessage : β → Except PyException (Bytes × Option String))
  (repr : String → String) (typeName : PublishError → String)

namespace OutboxBroker

/-- `publish`; the exception is one of the command's. -/
def publish (b : Backend) (s : System) (body : β) (args : PublishArgs) (headers : Option Dict)
    (correlationId : Option String) (now : Int) (generated : String) (durationSeconds : Int) :
    Except Error (Publication (Option Nat)) :=
  (OutboxPublishCommand.init repr body [] args headers correlationId).map fun cmd =>
    OutboxProducer.publish encodeMessage repr typeName b s cmd now generated durationSeconds

/-- `publish_batch`; `none` if there is nothing to publish. It has no timer arguments. -/
def publishBatch (b : Backend) (s : System) (bodies : List β) (queue : PyObject)
    (session : Bool) (headers : Option Dict) (activateIn : Option Int)
    (activateAt : Option Activation) (now : Int) (generated : Nat → String)
    (durationSeconds : Int) : Except Error (Option (Publication Unit)) :=
  let args : PublishArgs :=
    { queue := queue, session := session, activateIn := activateIn, activateAt := activateAt }
  if !session then
    .error (.typeError ("broker.publish_batch" ++
      " requires an sqlalchemy.ext.asyncio.AsyncSession or AsyncConnection"))
  else
    match bodies with
    | [] => (validatePublishArgs repr "broker.publish_batch" args).map fun _ => none
    | first :: rest =>
      (OutboxPublishCommand.init repr first rest args headers none).map fun cmd =>
        some (OutboxProducer.publishBatch encodeMessage repr typeName b s cmd now generated
          durationSeconds)

end OutboxBroker

/-- `OutboxPublisher`. -/
structure OutboxPublisher where
  queue : String
  headers : Dict := ∅

/-- `OutboxPublisher.publish`: the headers of the call go over those of the publisher. -/
def OutboxPublisher.publish (p : OutboxPublisher) (b : Backend) (s : System) (body : β)
    (args : PublishArgs) (headers : Option Dict) (correlationId : Option String) (now : Int)
    (generated : String) (durationSeconds : Int) : Except Error (Publication (Option Nat)) :=
  OutboxBroker.publish encodeMessage repr typeName b s body { args with queue := .str p.queue }
    (some (p.headers.update (headers.getD ∅))) correlationId now generated durationSeconds

end

end Outbox
