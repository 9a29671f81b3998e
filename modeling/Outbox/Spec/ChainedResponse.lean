import Outbox.Native.Response
import Outbox.Spec.EnvelopeRoundTrip

/-!
# Chained responses are not poisoned by the inbound row

The correlation id and the content type of a follow-on row pass through the parser, the
response's constructor, `process_message`, the header propagation and the encoder. For a
response that does not contradict itself the encoder sees at most one value of each,
with one exception: a response whose headers carry an empty correlation id. It counts as
missing in `process_message`, which fills in the inbound one, and as present in the
encoder, which then finds the two different and raises. The inbound one is never empty, not
even where the inbound row carries an empty one: the constructor of the message draws one.

## Key results

- `OutboxResponse.eq_of_init`: what a constructed response holds
- `OutboxResponse.asPublishCommand_eq`: the command's own checks pass
- `chained_response_iff`: when a response is published as it says
-/

namespace Outbox

section

variable (repr : String → String) {β : Type} {body : β} {args : PublishArgs}
  {headers : Option Dict} {correlationId : Option String} {response : OutboxResponse β}

/-! ## The response -/

/-- The two contexts differ in the texts of the errors only. -/
theorem validatePublishArgs_ok_iff (context context' : String) :
    validatePublishArgs repr context args = .ok () ↔
      validatePublishArgs repr context' args = .ok () := by
  unfold validatePublishArgs
  split
  · simp
  · split
    · simp
    · split
      · simp
      · exact Iff.rfl

/-- A constructed response holds its arguments, the correlation id from its headers when it
    is not given. -/
theorem OutboxResponse.eq_of_init
    (hinit : OutboxResponse.init repr body args headers correlationId = .ok response) :
    validatePublishArgs repr "OutboxResponse" args = .ok () ∧
      response =
        { args with
          body := body
          headers := headers.getD ∅
          correlationId := correlationId.or ((headers.getD ∅).get? correlationIdHeader) } := by
  unfold OutboxResponse.init at hinit
  cases hvalid : validatePublishArgs repr "OutboxResponse" args with
  | error e =>
    rw [hvalid] at hinit
    cases hinit
  | ok _ =>
    rw [hvalid] at hinit
    have hcid : (if correlationId.isNone && headers.any fun d => !d.isEmpty then
        headers.bind fun d => d.get? correlationIdHeader else correlationId) =
        correlationId.or ((headers.getD ∅).get? correlationIdHeader) := by
      cases correlationId with
      | some cid => rfl
      | none =>
        cases headers with
        | none => rfl
        | some d =>
          by_cases hempty : d.isEmpty = true
          · rw [PyDict.eq_empty_of_isEmpty hempty]
            rfl
          · simp [hempty]
    simp only [hcid] at hinit
    exact ⟨rfl, (Except.ok.inj hinit).symm⟩

/-- Of a response that was constructed, the command is constructed too. -/
theorem OutboxResponse.asPublishCommand_eq
    (hvalid : validatePublishArgs repr "OutboxResponse" response.toPublishArgs = .ok ()) :
    response.asPublishCommand repr =
      .ok
        { response.toPublishArgs with
          body := response.body
          extraBodies := []
          headers := response.headers
          correlationId := response.correlationId } := by
  have hcommand := (validatePublishArgs_ok_iff repr "OutboxResponse" "OutboxPublishCommand").mp
    hvalid
  unfold OutboxResponse.asPublishCommand OutboxPublishCommand.init
  rw [hcommand]
  rfl

/-! ## The message processed -/

/-- The headers a response gets that has none of its own. -/
def inherited (propagateInboundHeaders : Bool) (message : OutboxMessage) : Dict :=
  if propagateInboundHeaders then
    (message.headers.pop contentTypeHeader).pop correlationIdHeader
  else ∅

/-- The headers of the follow-on row before the envelope: its own, or the inherited ones. -/
def sourceHeaders (own : Dict) (propagateInboundHeaders : Bool) (message : OutboxMessage) :
    Dict :=
  if own.isEmpty then inherited propagateInboundHeaders message else own

theorem processMessage_eq (propagateInboundHeaders : Bool) (message : OutboxMessage) :
    processMessage propagateInboundHeaders response message =
      { response with
        headers := sourceHeaders response.headers propagateInboundHeaders message
        correlationId :=
          (truthy response.correlationId).or (some message.correlationId) } := by
  have hfill : fillCorrelationId response message =
      { response with correlationId :=
          (truthy response.correlationId).or (some message.correlationId) } := by
    unfold fillCorrelationId
    cases hcid : truthy response.correlationId with
    | none => rfl
    | some cid =>
      have hown := (truthy_eq_some_iff.mp hcid).1
      show response = { response with correlationId := some cid }
      rw [← hown]
  unfold processMessage maybePropagateInboundHeaders sourceHeaders inherited
  rw [hfill]
  by_cases hempty : response.headers.isEmpty = true
  · cases propagateInboundHeaders with
    | false => simp [hempty, ← PyDict.eq_empty_of_isEmpty hempty]
    | true => simp [hempty, envelopeManagedHeaders]
  · simp [hempty]

/-- Of the managed keys, the follow-on row starts with the response's own values only. -/
theorem get?_sourceHeaders_of_managed (own : Dict) (propagateInboundHeaders : Bool)
    (message : OutboxMessage) {key : String} (hkey : key ∈ envelopeManagedHeaders) :
    (sourceHeaders own propagateInboundHeaders message).get? key = own.get? key := by
  unfold sourceHeaders inherited
  by_cases hempty : own.isEmpty = true
  · rw [if_pos hempty, PyDict.eq_empty_of_isEmpty hempty, PyDict.get?_empty]
    cases propagateInboundHeaders with
    | false => rfl
    | true =>
      rw [if_pos rfl]
      by_cases hcid : key = correlationIdHeader
      · rw [hcid, PyDict.get?_pop_self]
      · have hct : key = contentTypeHeader := by
          simpa [envelopeManagedHeaders, hcid] using hkey
        rw [PyDict.get?_pop_of_ne _ hcid, hct, PyDict.get?_pop_self]
  · rw [if_neg hempty]

/-- A parsed message has a correlation id. -/
theorem parseMessage_correlationId_ne (stream : StreamMessage) (msg : OutboxInnerMessage) :
    (parseMessage stream msg).correlationId ≠ "" := stream.correlationId_ne _

/-- The correlation id `process_message` settles on differs from the one in the headers only
    where it has replaced an empty one. -/
theorem correlationIdDiffers_processed_iff {own : Dict} {argument : Option String}
    (hown : ¬CorrelationIdDiffers own argument) (propagateInboundHeaders : Bool)
    {message : OutboxMessage} (hinbound : message.correlationId ≠ "") :
    CorrelationIdDiffers (sourceHeaders own propagateInboundHeaders message)
        ((truthy (argument.or (own.get? correlationIdHeader))).or (some message.correlationId)) ↔
      own.get? correlationIdHeader = some "" := by
  have hsource := get?_sourceHeaders_of_managed own propagateInboundHeaders message
    (show correlationIdHeader ∈ envelopeManagedHeaders by decide)
  -- an argument agrees with the header where both are there
  have hsettled : ∀ given, own.get? correlationIdHeader = some given →
      argument.or (own.get? correlationIdHeader) = some given := by
    intro given hgiven
    cases argument with
    | none => exact hgiven
    | some a =>
      by_cases hsame : given = a
      · rw [hsame]
        rfl
      · exact absurd ⟨given, a, hgiven, rfl, hsame⟩ hown
  constructor
  · intro ⟨given, settled, hgiven, hvalue, hdiffers⟩
    rw [hsource] at hgiven
    rw [hsettled given hgiven] at hvalue
    by_cases hblank : given = ""
    · rw [hblank] at hgiven
      exact hgiven
    · rw [truthy_of_ne hblank] at hvalue
      cases hvalue
      exact absurd rfl hdiffers
  · intro hblank
    refine ⟨"", message.correlationId, hsource.trans hblank, ?_, hinbound.symm⟩
    rw [hsettled "" hblank]
    rfl

/-! ## The follow-on row -/

/-- The headers of the follow-on row: the response's own correlation id, else the inbound
    message's; the encoder's content type, where it gives one; otherwise what the response
    carries, or inherits without the managed keys. -/
structure Chained (own : Dict) (argument : Option String) (propagateInboundHeaders : Bool)
    (message : OutboxMessage) (contentType : Option String) (headers : Dict) : Prop where
  correlationId : ∀ cid, truthy (argument.or (own.get? correlationIdHeader)) = some cid →
    headers.get? correlationIdHeader = some cid
  inbound : truthy (argument.or (own.get? correlationIdHeader)) = none →
    headers.get? correlationIdHeader = some message.correlationId
  rest : ∀ key, key ≠ correlationIdHeader →
    (key = contentTypeHeader → truthy contentType = none) →
    headers.get? key = (sourceHeaders own propagateInboundHeaders message).get? key
  contentType : ∀ encoded, truthy contentType = some encoded →
    headers.get? contentTypeHeader = some encoded

theorem chained_enveloped (own : Dict) (argument : Option String)
    (propagateInboundHeaders : Bool) {message : OutboxMessage}
    (hinbound : message.correlationId ≠ "") (contentType : Option String)
    (generated : String) :
    Chained own argument propagateInboundHeaders message contentType
      (enveloped (sourceHeaders own propagateInboundHeaders message) contentType
        ((truthy (argument.or (own.get? correlationIdHeader))).or (some message.correlationId))
        generated) where
  correlationId := by
    intro cid hcid
    rw [get?_enveloped_correlationId, hcid]
    show some (((truthy (some cid)).or _).getD generated) = some cid
    rw [truthy_of_ne (truthy_eq_some_iff.mp hcid).2]
    rfl
  inbound := by
    intro hcid
    rw [get?_enveloped_correlationId, hcid]
    show some (((truthy (some message.correlationId)).or _).getD generated) = _
    rw [truthy_of_ne hinbound]
    rfl
  contentType := by
    intro encoded hencoded
    rw [get?_enveloped_contentType, hencoded]
    rfl
  rest := by
    intro key hcid hct
    by_cases hkey : key = contentTypeHeader
    · rw [hkey, get?_enveloped_contentType, hct hkey]
      rfl
    · exact get?_enveloped_of_not_managed _ _ _ _ (by simp [envelopeManagedHeaders, hcid, hkey])

end

/-! ## Publishing the response -/

section

variable {β : Type} (encodeMessage : β → Except PyException (Bytes × Option String))
  (repr : String → String) {body : β} {args : PublishArgs} {headers : Option Dict}
  {correlationId : Option String} {response : OutboxResponse β}

/-- What the encoder is given for a processed response. -/
theorem publishResponse_processMessage
    (hinit : OutboxResponse.init repr body args headers correlationId = .ok response)
    (propagateInboundHeaders : Bool) (message : OutboxMessage) (generated : String) :
    publishResponse encodeMessage repr (processMessage propagateInboundHeaders response message)
        generated =
      encodePayload encodeMessage repr body
        (some (sourceHeaders (headers.getD ∅) propagateInboundHeaders message))
        ((truthy (correlationId.or ((headers.getD ∅).get? correlationIdHeader))).or
          (some message.correlationId)) generated := by
  obtain ⟨hvalid, hresponse⟩ := OutboxResponse.eq_of_init repr hinit
  subst hresponse
  unfold publishResponse
  rw [processMessage_eq, OutboxResponse.asPublishCommand_eq repr hvalid]

/-- The response is published, under the headers `Chained` describes. -/
def PublishesChained (body : β) (own : Dict) (argument : Option String)
    (propagateInboundHeaders : Bool) (message : OutboxMessage)
    (out : Except PublishError (Bytes × Dict)) : Prop :=
  ∃ payload contentType stored, encodeMessage body = .ok (payload, contentType) ∧
    out = .ok (payload, stored) ∧
    Chained own argument propagateInboundHeaders message contentType stored

/-- **An inbound row poisons a response only where its correlation id replaces an empty
    one.** For every inbound row and every response that was constructed and does not
    contradict itself: the follow-on row is published as `Chained` says iff the encoder
    takes the body, and the response's headers do not carry an empty correlation id. -/
theorem chained_response_iff
    (hinit : OutboxResponse.init repr body args headers correlationId = .ok response)
    (hct : ∀ payload contentType, encodeMessage body = .ok (payload, contentType) →
      ¬ContentTypeDiffers (headers.getD ∅) contentType)
    (hcid : ¬CorrelationIdDiffers (headers.getD ∅) correlationId) (stream : StreamMessage)
    (msg : OutboxInnerMessage) (propagateInboundHeaders : Bool) (generated : String) :
    PublishesChained encodeMessage body (headers.getD ∅) correlationId propagateInboundHeaders
        (parseMessage stream msg)
        (publishResponse encodeMessage repr
          (processMessage propagateInboundHeaders response (parseMessage stream msg))
          generated) ↔
      (∃ encoded, encodeMessage body = .ok encoded) ∧
        (headers.getD ∅).get? correlationIdHeader ≠ some "" := by
  rw [publishResponse_processMessage encodeMessage repr hinit]
  have hinbound := parseMessage_correlationId_ne stream msg
  generalize parseMessage stream msg = message at hinbound
  have hdiffers := correlationIdDiffers_processed_iff hcid propagateInboundHeaders hinbound
  have hlabel := get?_sourceHeaders_of_managed (headers.getD ∅) propagateInboundHeaders message
    (show contentTypeHeader ∈ envelopeManagedHeaders by decide)
  constructor
  · -- a blank correlation id against that of the inbound row is refused
    intro ⟨payload, contentType, stored, henc, hout, _⟩
    refine ⟨⟨_, henc⟩, fun hblank => ?_⟩
    obtain ⟨e, herror⟩ := encodePayload_of_conflict encodeMessage repr henc
      (some (sourceHeaders (headers.getD ∅) propagateInboundHeaders message))
      (.inr (hdiffers.mpr hblank)) generated
    rw [herror] at hout
    cases hout
  · intro ⟨⟨⟨payload, contentType⟩, henc⟩, hclear⟩
    -- the inbound headers bring no content type of their own
    have hsame : ¬ContentTypeDiffers (sourceHeaders (headers.getD ∅) propagateInboundHeaders
        message) contentType := by
      intro ⟨given, encoded, hgiven, hrest⟩
      exact hct payload contentType henc ⟨given, encoded, hlabel.symm.trans hgiven, hrest⟩
    refine ⟨payload, contentType, _, henc,
      encodePayload_of_agree encodeMessage repr henc (some _) hsame (mt hdiffers.mp hclear)
        generated,
      chained_enveloped _ _ _ hinbound _ _⟩

end

/-! ## An empty correlation id -/

/-- An inbound row published under the correlation id `inbound`. -/
def inboundMessage : OutboxInnerMessage :=
  .ofRow
    { id := 1, queue := "orders", payload := [104, 105], createdAt := 0, nextAttemptAt := 0,
      headers := some [("content-type", .str "text/plain"), ("correlation_id", .str "inbound"),
        ("x-tenant", .str "acme")] } 0

/-- A response with an argument of its own is published under it. -/
theorem chained_response_iff_inboundMessage :
    ∃ response : OutboxResponse Body,
      OutboxResponse.init quoted (Body.json [123, 125]) { queue := .str "downstream" } none
        (some "own") = .ok response ∧
      PublishesChained Body.encodeMessage (Body.json [123, 125]) ∅ (some "own") true
        (parseMessage drawingStream inboundMessage)
        (publishResponse Body.encodeMessage quoted
          (processMessage true response (parseMessage drawingStream inboundMessage))
          "generated") := by
  have hct : ∀ payload contentType,
      Body.encodeMessage (.json [123, 125]) = .ok (payload, contentType) →
        ¬ContentTypeDiffers ((none : Option Dict).getD ∅) contentType := by
    intro _ _ _ ⟨_, _, hgiven, _⟩
    cases hgiven
  have hcid : ¬CorrelationIdDiffers ((none : Option Dict).getD ∅) (some "own") := by
    intro ⟨_, _, hgiven, _⟩
    cases hgiven
  have hinit : OutboxResponse.init quoted (Body.json [123, 125]) { queue := .str "downstream" }
      none (some "own") =
    .ok
      { queue := .str "downstream"
        body := Body.json [123, 125]
        headers := ∅
        correlationId := some "own" } := rfl
  refine ⟨_, hinit, (chained_response_iff Body.encodeMessage quoted hinit hct hcid
    drawingStream inboundMessage true "generated").mpr ⟨⟨_, rfl⟩, fun hblank => ?_⟩⟩
  cases hblank

/-- A response whose headers carry an empty correlation id fails the inbound row. -/
theorem chained_response_blank :
    ¬∀ (response : OutboxResponse Body) (body : Body) (args : PublishArgs)
        (headers : Option Dict) (correlationId : Option String) (msg : OutboxInnerMessage)
        (propagateInboundHeaders : Bool) (generated : String),
      OutboxResponse.init quoted body args headers correlationId = .ok response →
      (∀ payload contentType, Body.encodeMessage body = .ok (payload, contentType) →
        ¬ContentTypeDiffers (headers.getD ∅) contentType) →
      ¬CorrelationIdDiffers (headers.getD ∅) correlationId →
      (∃ encoded, Body.encodeMessage body = .ok encoded) →
      PublishesChained Body.encodeMessage body (headers.getD ∅) correlationId
        propagateInboundHeaders (parseMessage drawingStream msg)
        (publishResponse Body.encodeMessage quoted
          (processMessage propagateInboundHeaders response (parseMessage drawingStream msg))
          generated) := by
  intro hall
  have hpublishes := hall _ (Body.bytes [120]) { queue := .str "downstream" }
    (some (PyDict.ofList [("correlation_id", "")])) none inboundMessage false "generated" rfl
    (by
      intro _ _ _ ⟨_, _, hgiven, _⟩
      cases hgiven)
    (by
      intro ⟨_, _, _, hargument, _⟩
      cases hargument)
    ⟨_, rfl⟩
  obtain ⟨payload, contentType, stored, _, hout, _⟩ := hpublishes
  have hraised : publishResponse Body.encodeMessage quoted
      (processMessage false
        { queue := .str "downstream"
          body := Body.bytes [120]
          headers := PyDict.ofList [("correlation_id", "")]
          correlationId := some "" } (parseMessage drawingStream inboundMessage)) "generated" =
      .error (.raised (.valueError ("correlation_id='inbound' conflicts with " ++
        "headers['correlation_id']=''. Pass correlation_id one way, not both."))) := by
    rfl
  have hout' := hraised.symm.trans hout
  cases hout'

end Outbox
