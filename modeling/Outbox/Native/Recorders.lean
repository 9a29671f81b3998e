import Outbox.Native.Subscriber
import Mathlib.Algebra.Ring.Int.Defs

/-!
# The recorders

The two adapters of the metrics seam: `PrometheusRecorder` (`metrics/prometheus.py`) and
`OpenTelemetryRecorder` (`metrics/opentelemetry.py`). A recorder is called with an event and
its tags and updates the series of its registry, or the instruments of its meter; the model
gives the updates a call makes, in order. `_emit_metric` and `_safe_emit` swallow what a
recorder raises, so a call that raises has made the updates before the raise and no others.

The client libraries are lists of updates here. Names, units and bucket bounds of the series
are left out, as is the lag sampler.
-/

namespace Outbox

/-! ## Emissions -/

/-- The tags of a `published` event. -/
structure PublishedTags where
  queue : String
  /-- `status`: `success` or `error`. -/
  status : String
  count : Nat
  sizeBytes : Nat
  durationSeconds : Int
  exceptionType : Option String := none
deriving DecidableEq, Repr

/-- A call of a recorder. -/
inductive Emission where
  | event (event : Event) (tags : Tags)
  | published (tags : PublishedTags)
deriving DecidableEq, Repr

/-- The text of a phase. -/
def Phase.text : Phase → String
  | .terminal => "terminal"
  | .retry => "retry"

/-- `BROKER_SYSTEM`. -/
def brokerSystem : String := "outbox"

/-- `status`, of an event that ends a dispatch. -/
def Event.status (event : Event) : String := if event = .acked then "acked" else "nacked"

/-! ## Prometheus -/

/-- The metrics of `PrometheusRecorder`. -/
inductive Series where
  | receivedTotal
  | receivedSize
  | inProcess
  | processedTotal
  | processedDuration
  | processedExceptions
  | publishedTotal
  | publishedDuration
  | publishedExceptions
  | fetchBatches
  | terminalReason
  | leaseLost
  | dlqWritten
  | drainTimeout
deriving DecidableEq, Repr

/-- What is done to a child of a metric. -/
inductive Update where
  | inc (amount : Nat)
  | dec
  | observe (value : Int)
deriving DecidableEq, Repr

/-- `series.labels(*labels)` and what is done to it. -/
structure Sample where
  series : Series
  labels : List String
  update : Update
deriving DecidableEq, Repr

/-- A value of `custom_labels`. -/
inductive CustomLabel where
  | value (text : String)
  /-- A function of the tags, which may raise. -/
  | resolver (resolve : Tags ⊕ PublishedTags → Option String)

/-- `PrometheusRecorder`. -/
structure PrometheusRecorder where
  appName : String := ""
  /-- `_custom_label_resolvers`. -/
  customLabels : List CustomLabel := []
  includeBusMetrics : Bool := true

namespace PrometheusRecorder

variable (r : PrometheusRecorder)

/-- `_resolve_custom_values`; `none` if a resolver raises. -/
def resolveCustomValues (tags : Tags ⊕ PublishedTags) : Option (List String) :=
  r.customLabels.mapM fun
    | .value text => some text
    | .resolver resolve => resolve tags

/-- `_consume_values`. -/
def consumeValues (tags : Tags) : Option (List String) :=
  (r.resolveCustomValues (.inl tags)).map fun custom =>
    [r.appName, brokerSystem, tags.subscriber] ++ custom

/-- `_publish_values`. -/
def publishValues (tags : PublishedTags) : Option (List String) :=
  (r.resolveCustomValues (.inr tags)).map fun custom =>
    [r.appName, brokerSystem, tags.queue] ++ custom

/-- `_record_bus_consume`. -/
def recordBusConsume (event : Event) (tags : Tags) (consumeBase : List String) :
    List Sample :=
  match event with
  | .dispatched =>
    [⟨.receivedTotal, consumeBase, .inc 1⟩] ++
      (tags.sizeBytes.toList.map fun size => ⟨.receivedSize, consumeBase, .observe size⟩) ++
      [⟨.inProcess, consumeBase, .inc 1⟩]
  | .acked | .nackedRetried | .nackedTerminal =>
    [⟨.processedTotal, consumeBase ++ [event.status], .inc 1⟩] ++
      (match tags.durationSeconds with
        | some duration =>
          [⟨.inProcess, consumeBase, .dec⟩, ⟨.processedDuration, consumeBase, .observe duration⟩]
        | none => []) ++
      tags.exceptionType.toList.map fun exc =>
        ⟨.processedExceptions, consumeBase ++ [exc], .inc 1⟩
  | .leaseLost =>
    [⟨.processedTotal, consumeBase ++ ["error"], .inc 1⟩] ++
      if tags.durationSeconds.isSome then [⟨.inProcess, consumeBase, .dec⟩] else []
  | .dispatchAbandoned =>
    if tags.durationSeconds.isSome then [⟨.inProcess, consumeBase, .dec⟩] else []
  | _ => []

/-- `_record_published`. -/
def recordPublished (tags : PublishedTags) : List Sample :=
  match r.publishValues tags with
  | none => []
  | some publishBase =>
    (if tags.status = "error" then
      -- an error lands no message, and is one failed publish
      [⟨.publishedTotal, publishBase ++ [tags.status], .inc 1⟩]
    else if 0 < tags.count then
      [⟨.publishedTotal, publishBase ++ [tags.status], .inc tags.count⟩]
    else []) ++
      [⟨.publishedDuration, publishBase, .observe tags.durationSeconds⟩] ++
      tags.exceptionType.toList.map fun exc =>
        ⟨.publishedExceptions, publishBase ++ [exc], .inc 1⟩

/-- The series with no upstream equivalent. A tag that is missing is a `KeyError`. -/
def recordOutbox (event : Event) (tags : Tags) (consumeBase : List String) : List Sample :=
  match event with
  | .nackedTerminal =>
    tags.reason.toList.map fun reason =>
      ⟨.terminalReason, consumeBase ++ [reason.text], .inc 1⟩
  | .leaseLost =>
    tags.phase.toList.map fun phase => ⟨.leaseLost, consumeBase ++ [phase.text], .inc 1⟩
  | .dlqWritten =>
    tags.failureReason.toList.map fun reason =>
      ⟨.dlqWritten, consumeBase ++ [reason.text], .inc 1⟩
  | .drainTimeout => [⟨.drainTimeout, consumeBase, .inc 1⟩]
  | _ => []

/-- `__call__`. -/
def call (e : Emission) : List Sample :=
  match e with
  | .published tags => if r.includeBusMetrics then r.recordPublished tags else []
  | .event event tags =>
    match r.consumeValues tags with
    | none => []
    | some consumeBase =>
      match event with
      | .fetched =>
        [⟨.fetchBatches, consumeBase ++ [if tags.count.getD 0 ≠ 0 then "true" else "false"],
          .inc 1⟩]
      | _ =>
        (if r.includeBusMetrics then recordBusConsume event tags consumeBase else []) ++
          recordOutbox event tags consumeBase

end PrometheusRecorder

/-- The value of a gauge: the increments less the decrements. -/
def gauge (series : Series) (labels : List String) (samples : List Sample) : Int :=
  (samples.map fun s =>
    if s.series = series ∧ s.labels = labels then
      match s.update with
      | .inc amount => (amount : Int)
      | .dec => -1
      | .observe _ => 0
    else 0).sum

/-! ## OpenTelemetry -/

/-- The instruments of `OpenTelemetryRecorder`. -/
inductive Instrument where
  | processDuration
  | publishDuration
  | processMessages
  | publishMessages
  | fetchBatches
  | leaseLost
  | dlqWritten
  | drainTimeout
deriving DecidableEq, Repr

/-- The attributes of a measurement; `none` where the key is not set. -/
structure Attrs where
  /-- `messaging.destination.name`. -/
  destination : String
  /-- `messaging.operation`. -/
  operation : String
  /-- `messaging.outbox.handler`. -/
  handler : Option String := none
  /-- `messaging.outbox.status`. -/
  status : Option String := none
  /-- `messaging.outbox.terminal_reason`. -/
  terminalReason : Option String := none
  /-- `messaging.outbox.lease_phase`. -/
  leasePhase : Option String := none
  /-- `messaging.outbox.dlq_reason`. -/
  dlqReason : Option String := none
  /-- `error.type`. -/
  errorType : Option String := none
deriving DecidableEq, Repr

/-- `instrument.add(value, attrs)`, or `instrument.record(value, attrs)`. -/
structure Measurement where
  instrument : Instrument
  value : Int
  attrs : Attrs
deriving DecidableEq, Repr

/-- `OpenTelemetryRecorder`. -/
structure OpenTelemetryRecorder where
  includeMessagesCounters : Bool := false
  includeBusMetrics : Bool := true

namespace OpenTelemetryRecorder

variable (r : OpenTelemetryRecorder)

/-- `_attrs`, of an event of a subscriber. -/
def consumeAttrs (tags : Tags) (operation : String) : Attrs :=
  { destination := tags.queue
    operation := operation
    -- if handler
    handler := if tags.subscriber = "" then none else some tags.subscriber }

/-- What an outcome records. -/
def recordOutcome (event : Event) (tags : Tags) (terminalReason : Option String) :
    List Measurement :=
  let attrs : Attrs :=
    { consumeAttrs tags "process" with
      status := some event.status
      terminalReason := terminalReason
      errorType := tags.exceptionType }
  (tags.durationSeconds.toList.map fun duration => ⟨.processDuration, duration, attrs⟩) ++
    if r.includeMessagesCounters then [⟨.processMessages, 1, attrs⟩] else []

/-- What a `published` records. -/
def recordPublished (tags : PublishedTags) : List Measurement :=
  let attrs : Attrs :=
    { destination := tags.queue
      operation := "publish"
      status := some tags.status
      errorType := tags.exceptionType }
  [⟨.publishDuration, tags.durationSeconds, attrs⟩] ++
    if r.includeMessagesCounters ∧ tags.count ≠ 0 then
      [⟨.publishMessages, tags.count, attrs⟩]
    else []

/-- `__call__`. A tag that is missing is a `KeyError`. -/
def call (e : Emission) : List Measurement :=
  match e with
  | .published tags => if r.includeBusMetrics then r.recordPublished tags else []
  | .event .fetched tags => [⟨.fetchBatches, 1, consumeAttrs tags "receive"⟩]
  | .event .dispatched _ => []
  | .event .nackedTerminal tags =>
    if r.includeBusMetrics then
      tags.reason.toList.flatMap fun reason =>
        r.recordOutcome .nackedTerminal tags (some reason.text)
    else []
  | .event .acked tags => if r.includeBusMetrics then r.recordOutcome .acked tags none else []
  | .event .nackedRetried tags =>
    if r.includeBusMetrics then r.recordOutcome .nackedRetried tags none else []
  | .event .leaseLost tags =>
    tags.phase.toList.map fun phase =>
      ⟨.leaseLost, 1, { consumeAttrs tags "process" with
        leasePhase := some phase.text
        errorType := some "lease_lost" }⟩
  | .event .dlqWritten tags =>
    tags.failureReason.toList.map fun reason =>
      ⟨.dlqWritten, 1, { consumeAttrs tags "process" with
        dlqReason := some reason.text
        errorType := tags.exceptionType }⟩
  | .event .drainTimeout tags => [⟨.drainTimeout, 1, consumeAttrs tags "process"⟩]
  -- an unknown event is ignored
  | .event .dispatchAbandoned _ => []

end OpenTelemetryRecorder

/-! ## Subscribers -/

/-- The call of the recorder a note of the log stands for. -/
def Note.emission : Note → Option Emission
  | .metric _ event tags => some (.event event tags)
  | _ => none

end Outbox
