import Outbox.ForStd.Heap
import Outbox.ForStd.PyDict
import Outbox.Native.Message

/-!
# The envelope

`_encode_payload` (`envelope.py`) turns a body into the payload and the headers of a row,
and `OutboxParser.parse_message` (`parser.py`) reads a message off a row. Two keys of the
headers belong to the envelope: the content type of the payload and the correlation id.

`encode_message`, `gen_cor_id` and the constructor of `StreamMessage` are FastStream's: the
first and the last are parameters, a value the second draws is an argument `generated`.
`repr` is Python's, of a `str`.
-/

namespace Outbox

/-- `dict[str, str]`. -/
abbrev Dict := PyDict String String

/-- `CONTENT_TYPE_HEADER`. -/
def contentTypeHeader : String := "content-type"

/-- `CORRELATION_ID_HEADER`. -/
def correlationIdHeader : String := "correlation_id"

/-- `ENVELOPE_MANAGED_HEADERS`. -/
def envelopeManagedHeaders : List String := [contentTypeHeader, correlationIdHeader]

/-- A `str | None` in a condition: what it is when it is truthy. -/
def truthy (s : Option String) : Option String := s.filter fun s => s != ""

/-- What a publish raises: an exception of `encode_message`, or one of the package's own. -/
inductive PublishError where
  | encoder (e : PyException)
  | raised (e : Error)
deriving DecidableEq, Repr

/-! ## Rows and dicts -/

/-- The headers a row stores. -/
def Headers.ofDict (d : Dict) : Headers := d.entries.map fun entry => (entry.1, .str entry.2)

/-- The dict a row's headers are read as. A stored value is a `str`: JSONB has no other
    object. -/
def Headers.toDict (headers : Headers) : Dict :=
  PyDict.ofList (headers.filterMap fun entry =>
    match entry.2 with
    | .str s => some (entry.1, s)
    | .object _ => none)

/-! ## Encoding -/

section

variable {β : Type} (encodeMessage : β → Except PyException (Bytes × Option String))
  (repr : String → String)

/-- The headers carry a content type and the encoder gives another. -/
def contentTypeConflict (outHeaders : Dict) (contentType : Option String) : Option Error :=
  match outHeaders.get? contentTypeHeader, truthy contentType with
  | some given, some encoded =>
    if given != encoded then
      some (.valueError ("headers['content-type']=" ++ repr given ++
        " conflicts with the encoder's output (" ++ repr encoded ++
        "). Drop content-type from headers, or pass body as bytes if you need to label " ++
        "the payload yourself."))
    else none
  | _, _ => none

/-- The argument and the headers carry different correlation ids. -/
def correlationIdConflict (outHeaders : Dict) (correlationId : Option String) : Option Error :=
  match correlationId, outHeaders.get? correlationIdHeader with
  | some correlationId, some headerCid =>
    if correlationId != headerCid then
      some (.valueError ("correlation_id=" ++ repr correlationId ++
        " conflicts with headers['correlation_id']=" ++ repr headerCid ++
        ". Pass correlation_id one way, not both."))
    else none
  | _, _ => none

/-- `_encode_payload`, from the contents of the dicts to the contents of the result. -/
def encodePayload (body : β) (headers : Option Dict) (correlationId : Option String)
    (generated : String) : Except PublishError (Bytes × Dict) :=
  match encodeMessage body with
  | .error e => .error (.encoder e)
  | .ok (payload, contentType) =>
    let outHeaders := headers.getD ∅
    match contentTypeConflict repr outHeaders contentType with
    | some e => .error (.raised e)
    | none =>
      let outHeaders := match truthy contentType with
        | some contentType => outHeaders.set contentTypeHeader contentType
        | none => outHeaders
      match correlationIdConflict repr outHeaders correlationId with
      | some e => .error (.raised e)
      | none =>
        -- correlation_id or header_cid or gen_cor_id()
        let headerCid := outHeaders.get? correlationIdHeader
        .ok (payload, outHeaders.set correlationIdHeader
          (((truthy correlationId).or (truthy headerCid)).getD generated))

/-- `_encode_payload`, on the dict objects: `headers` and the headers of the result are
    references. -/
def encodePayloadOn (h : Heap Dict) (body : β) (headers : Option Nat)
    (correlationId : Option String) (generated : String) :
    Except PublishError (Bytes × Nat) × Heap Dict :=
  match encodeMessage body with
  | .error e => (.error (.encoder e), h)
  | .ok (payload, contentType) =>
    -- dict(headers or {})
    let (ref, h) := h.new ((headers.bind h.get?).getD ∅)
    match contentTypeConflict repr ((h.get? ref).getD ∅) contentType with
    | some e => (.error (.raised e), h)
    | none =>
      let h := match truthy contentType with
        | some contentType => h.modify ref fun d => d.set contentTypeHeader contentType
        | none => h
      match correlationIdConflict repr ((h.get? ref).getD ∅) correlationId with
      | some e => (.error (.raised e), h)
      | none =>
        let headerCid := ((h.get? ref).getD ∅).get? correlationIdHeader
        (.ok (payload, ref), h.modify ref fun d => d.set correlationIdHeader
          (((truthy correlationId).or (truthy headerCid)).getD generated))

end

/-! ## Parsing -/

/-- The message a handler sees. -/
structure OutboxMessage where
  rawMessage : OutboxInnerMessage
  body : Bytes
  headers : Dict
  contentType : Option String
  messageId : String
  correlationId : String
  replyTo : String

/-- The constructor `OutboxMessage` inherits from FastStream's `StreamMessage`, as to the
    correlation id it is given: it keeps one that is not empty, and draws one for an empty
    one. The other arguments are stored as they are. -/
structure StreamMessage where
  correlationId : String → String
  correlationId_of_ne : ∀ {given}, given ≠ "" → correlationId given = given
  correlationId_ne : ∀ given, correlationId given ≠ ""

/-- `OutboxParser.parse_message`. -/
def parseMessage (stream : StreamMessage) (msg : OutboxInnerMessage) : OutboxMessage :=
  let headers := (msg.row.headers.map Headers.toDict).getD ∅
  { rawMessage := msg
    body := msg.row.payload
    headers := headers
    contentType := headers.get? contentTypeHeader
    messageId := toString msg.row.id
    correlationId :=
      stream.correlationId ((headers.get? correlationIdHeader).getD (toString msg.row.id))
    replyTo := msg.row.queue }

end Outbox
