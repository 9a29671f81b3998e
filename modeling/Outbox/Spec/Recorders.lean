import Outbox.ForStd.Matching
import Outbox.Native.Producer
import Outbox.Spec.DispatchClosed
import Outbox.Spec.MetricTruth

/-!
# What the recorders make of a run

The in-process gauge goes up with a `dispatched` and down with each event that has a
duration. Both carry the labels of their claim, as long as no label depends on anything but
the tags they share, so the gauge counts the dispatches that are open. The two adapters
record the same facts, each in its own terms.

## Key results

- `in_process_gauge`: the gauge is the number of open dispatches with its labels
- `recorders_agree`: what one adapter records of a run, the other records as well, and which
  samples with the status `error` it has besides
-/

namespace Outbox

open List

/-! ## Labels -/

/-- The label depends on the tags that a `dispatched` and what closes it have in common. -/
def CustomLabel.Stable : CustomLabel → Prop
  | .value _ => True
  | .resolver resolve => ∀ tags tags' : Tags, tags.queue = tags'.queue →
    tags.subscriber = tags'.subscriber → tags.deliveriesCount = tags'.deliveriesCount →
    resolve (.inl tags) = resolve (.inl tags')

namespace PrometheusRecorder

variable (r : PrometheusRecorder)

/-- So do all labels. -/
def Stable : Prop := ∀ label ∈ r.customLabels, label.Stable

/-- What a log makes of the registry. -/
def samples (log : List Note) : List Sample := (log.filterMap Note.emission).flatMap r.call

variable {r}

/-- Two events of one claim have the same labels. -/
theorem Stable.consumeValues (h : r.Stable) {cfg : SubscriberConfig} {row : Row}
    {tags tags' : Tags} (hnames : Names cfg row tags) (hnames' : Names cfg row tags') :
    r.consumeValues tags = r.consumeValues tags' := by
  have hqueue : tags.queue = tags'.queue := hnames.queue.trans hnames'.queue.symm
  have hsubscriber : tags.subscriber = tags'.subscriber :=
    hnames.subscriber.trans hnames'.subscriber.symm
  have hdeliveries : tags.deliveriesCount = tags'.deliveriesCount :=
    hnames.deliveries.trans hnames'.deliveries.symm
  have hcustom : r.resolveCustomValues (.inl tags) = r.resolveCustomValues (.inl tags') := by
    unfold resolveCustomValues
    unfold Stable at h
    generalize r.customLabels = labels at h
    induction labels with
    | nil => rfl
    | cons label labels ih =>
      have hlabel := h label mem_cons_self
      have hrest := ih fun label' hmem => h label' (mem_cons_of_mem label hmem)
      rw [mapM_cons, mapM_cons, hrest]
      cases label with
      | value text => rfl
      | resolver resolve =>
        have hsame := hlabel tags tags' hqueue hsubscriber hdeliveries
        simp only [hsame]
  unfold PrometheusRecorder.consumeValues
  rw [hcustom, hsubscriber]

end PrometheusRecorder

/-! ## The gauge of a log -/

section Gauge

variable (series : Series) (labels : List String)

@[simp] theorem gauge_nil : gauge series labels [] = 0 := rfl

@[simp] theorem gauge_append (samples samples' : List Sample) :
    gauge series labels (samples ++ samples') =
      gauge series labels samples + gauge series labels samples' := by
  simp [gauge]

theorem gauge_perm {samples samples' : List Sample} (h : samples.Perm samples') :
    gauge series labels samples = gauge series labels samples' :=
  (h.map _).sum_eq

end Gauge

namespace PrometheusRecorder

variable (r : PrometheusRecorder) (labels : List String)

@[simp] theorem samples_nil : r.samples [] = [] := rfl

theorem samples_append (log log' : List Note) :
    r.samples (log ++ log') = r.samples log ++ r.samples log' := by
  simp [samples]

/-- The claim that a `dispatched` with the labels opens. -/
def opens : Note → Option ClaimKey
  | .metric key .dispatched tags => if r.consumeValues tags = some labels then key else none
  | _ => none

/-- The claim that an event with a duration and the labels closes. -/
def closes : Note → Option ClaimKey
  | .metric key _ tags =>
    if tags.durationSeconds.isSome ∧ r.consumeValues tags = some labels then key else none
  | _ => none

/-- The dispatches with the labels that the log leaves open. -/
def openDispatches (log : List Note) : Nat :=
  log.countP fun n => (r.opens labels n).any fun c => marks .closed c log = 0

variable {r labels}

/-- What one event does to the gauge. -/
theorem gauge_call (hbus : r.includeBusMetrics = true) (event : Event) (tags : Tags)
    (hclosing : tags.durationSeconds.isSome → event.Closing) :
    gauge .inProcess labels (r.call (.event event tags)) =
      (if event = .dispatched ∧ r.consumeValues tags = some labels then 1 else 0) -
        if tags.durationSeconds.isSome ∧ r.consumeValues tags = some labels then 1 else 0 := by
  cases hvalues : r.consumeValues tags with
  | none => simp [call, hvalues]
  | some base =>
    by_cases hlabels : base = labels
    · subst hlabels
      cases hduration : tags.durationSeconds with
      | none =>
        -- nothing is closed
        cases event <;>
          simp [call, hvalues, hbus, recordBusConsume, recordOutbox, gauge, hduration,
            Function.comp_def]
      | some duration =>
        have hevent : event.Closing := hclosing (by simp [hduration])
        obtain rfl | rfl | rfl | rfl | rfl := hevent <;>
          simp [call, hvalues, hbus, recordBusConsume, recordOutbox, gauge, hduration,
            Function.comp_def]
    · -- these are other series
      cases event <;> cases hduration : tags.durationSeconds <;>
        simp [call, hvalues, hbus, recordBusConsume, recordOutbox, gauge, hduration, hlabels,
          Function.comp_def]

/-- What one note of a log does to the gauge. -/
theorem gauge_note (hbus : r.includeBusMetrics = true) {log : List Note} {n : Note}
    (hn : n.Follows log) : gauge .inProcess labels (r.samples [n]) =
      (if (r.opens labels n).isSome then 1 else 0) -
        if (r.closes labels n).isSome then 1 else 0 := by
  cases n with
  | metric key event tags =>
    obtain ⟨hkeyed, hclosing⟩ := hn
    have hsamples : r.samples [.metric key event tags] = r.call (.event event tags) := by
      simp [samples, Note.emission]
    rw [hsamples, gauge_call hbus event tags fun hduration => (hclosing hduration).1]
    congr 1
    · cases event with
      | dispatched =>
        obtain ⟨c, rfl⟩ := Option.isSome_iff_exists.mp (hkeyed rfl)
        by_cases hvalues : r.consumeValues tags = some labels <;> simp [opens, hvalues]
      | _ => simp [opens]
    · by_cases hclosed : tags.durationSeconds.isSome ∧ r.consumeValues tags = some labels
      · obtain ⟨_, c, rfl, _⟩ := hclosing hclosed.1
        simp only [closes, if_pos hclosed, Option.isSome_some, if_true]
      · simp only [closes, if_neg hclosed, Option.isSome_none, Bool.false_eq_true, if_false]
  | _ => rfl

/-- The gauge is what was opened less what was closed. -/
theorem gauge_samples (hbus : r.includeBusMetrics = true) {log : List Note}
    (hlog : Ordered log) : gauge .inProcess labels (r.samples log) =
      (log.countP fun n => (r.opens labels n).isSome : Nat) -
        (log.countP fun n => (r.closes labels n).isSome : Nat) := by
  induction log using reverseRecOn with
  | nil => rfl
  | append_singleton log n ih =>
    have hn : n.Follows log := hlog log n [] rfl
    rw [samples_append, gauge_append, ih hlog.of_append, gauge_note hbus hn, countP_append,
      countP_append, countP_singleton, countP_singleton]
    split <;> split <;> push_cast <;> omega

end PrometheusRecorder

/-! ## The gauge of a run -/

/-- Two metrics of one claim are about one row. -/
structure Subscriber.Named (s : Subscriber) : Prop where
  names : ∀ c event event' tags tags', .metric (some c) event tags ∈ s.log →
    .metric (some c) event' tags' ∈ s.log → ∃ row, Names s.cfg row tags ∧ Names s.cfg row tags'

theorem System.run_named (b : Backend) (start : Int) (cfgs : List SubscriberConfig)
    (acts : List Act) (index : Nat) (sub : Subscriber)
    (hsub : ((init start cfgs).run b acts).subscribers[index]? = some sub) : sub.Named where
  names c event event' tags tags' hmem hmem' := by
    have hlog := (run_honest b start cfgs acts index sub hsub).log
    obtain ⟨m, hclaimed, hkey, hnames, _⟩ := hlog _ hmem
    obtain ⟨m', hclaimed', hkey', hnames', _⟩ := hlog _ hmem'
    obtain ⟨e, he, _, hreturns⟩ := hclaimed.known
    obtain ⟨e', he', _, hreturns'⟩ := hclaimed'.known
    -- a claim is of one row
    have hkeys : m.key = m'.key := hkey.trans hkey'.symm
    have hrow : m.row = m'.row := (run_inv b start cfgs acts).returned_unique he he' hreturns
      hreturns' (congrArg Prod.fst hkeys) (congrArg Prod.snd hkeys)
    exact ⟨m.row, hnames, hrow ▸ hnames'⟩

namespace PrometheusRecorder

variable {r : PrometheusRecorder} {labels : List String} {log : List Note}

/-- A log opens no more under some labels than in all. -/
theorem tally_opens_le (c : ClaimKey) : tally (r.opens labels) c log ≤ marks .dispatched c log := by
  induction log with
  | nil => exact Nat.le_refl _
  | cons n log ih =>
    have hhit : hit (r.opens labels n) c ≤ hit (n.mark .dispatched) c := by
      cases n with
      | metric key event tags =>
        cases event <;> by_cases hvalues : r.consumeValues tags = some labels <;>
          simp [opens, Note.mark, hvalues]
      | _ => simp [opens]
    rw [tally_cons, marks_cons]
    omega

/-- ... and closes no more. -/
theorem tally_closes_le (c : ClaimKey) : tally (r.closes labels) c log ≤ marks .closed c log := by
  induction log with
  | nil => exact Nat.le_refl _
  | cons n log ih =>
    have hhit : hit (r.closes labels n) c ≤ hit (n.mark .closed) c := by
      cases n with
      | metric key event tags =>
        by_cases hvalues : r.consumeValues tags = some labels <;>
          cases hduration : tags.durationSeconds <;>
          simp [closes, Note.mark, hvalues, hduration]
      | _ => simp [closes]
    rw [tally_cons, marks_cons]
    omega

section Named

variable {s : Subscriber} (hnamed : s.Named) (hstable : r.Stable) (hlog : ∀ n ∈ log, n ∈ s.log)
  {c : ClaimKey} {event : Event} {tags : Tags} (hmem : Note.metric (some c) event tags ∈ log)
  (hvalues : r.consumeValues tags = some labels)
include hnamed hstable hlog hmem hvalues

/-- Every metric of the claim has the labels. -/
theorem values_of_named {event' : Event} {tags' : Tags}
    (hmem' : Note.metric (some c) event' tags' ∈ log) : r.consumeValues tags' = some labels := by
  obtain ⟨row, hnames, hnames'⟩ := hnamed.names c event event' tags tags' (hlog _ hmem)
    (hlog _ hmem')
  rw [← hstable.consumeValues hnames hnames', hvalues]

/-- So what is opened of the claim is opened under them. -/
theorem tally_opens_eq : tally (r.opens labels) c log = marks .dispatched c log := by
  refine congrArg sum (map_congr_left fun n hn => ?_)
  cases n with
  | metric key event' tags' =>
    by_cases hkey : key = some c
    · subst hkey
      have hsame := values_of_named hnamed hstable hlog hmem hvalues hn
      cases event' <;> simp [opens, Note.mark, hsame]
    · have hmiss : hit key c = 0 := if_neg hkey
      cases event' <;> by_cases hvalues' : r.consumeValues tags' = some labels <;>
        simp [opens, Note.mark, hvalues', hmiss]
  | _ => simp [opens, Note.mark]

/-- ... and what is closed of it is closed under them. -/
theorem tally_closes_eq : tally (r.closes labels) c log = marks .closed c log := by
  refine congrArg sum (map_congr_left fun n hn => ?_)
  cases n with
  | metric key event' tags' =>
    by_cases hkey : key = some c
    · subst hkey
      have hsame := values_of_named hnamed hstable hlog hmem hvalues hn
      simp [closes, Note.mark, hsame]
    · have hmiss : hit key c = 0 := if_neg hkey
      by_cases hvalues' : r.consumeValues tags' = some labels <;>
        cases hduration : tags'.durationSeconds <;>
        simp [closes, Note.mark, hvalues', hduration, hmiss]
  | _ => simp [closes, Note.mark]

end Named

theorem opens_eq_some {n : Note} {c : ClaimKey} (h : r.opens labels n = some c) :
    ∃ tags, n = .metric (some c) .dispatched tags ∧ r.consumeValues tags = some labels := by
  unfold opens at h
  split at h
  · split at h
    · exact ⟨_, by rw [h], ‹_›⟩
    · cases h
  · cases h

theorem closes_eq_some {n : Note} {c : ClaimKey} (h : r.closes labels n = some c) :
    ∃ event tags, n = .metric (some c) event tags ∧ r.consumeValues tags = some labels := by
  unfold closes at h
  split at h
  · split at h
    · rename_i hclosed
      exact ⟨_, _, by rw [h], hclosed.2⟩
    · cases h
  · cases h

/-- **The gauge of a log is the number of its open dispatches.** -/
theorem gauge_eq_openDispatches (hbus : r.includeBusMetrics = true) {s : Subscriber}
    (hnamed : s.Named) (hstable : r.Stable) (hordered : Ordered log)
    (hlog : ∀ n ∈ log, n ∈ s.log) (honce : ∀ c, marks .dispatched c log ≤ 1) :
    gauge .inProcess labels (r.samples log) = (r.openDispatches labels log : Nat) := by
  have hclosed : ∀ c, tally (r.closes labels) c log ≤ tally (r.opens labels) c log := by
    intro c
    by_cases hzero : tally (r.closes labels) c log = 0
    · omega
    · -- what is closed under the labels was opened under them
      obtain ⟨n, hn, hcloses⟩ := tally_pos_iff.mp (Nat.pos_of_ne_zero hzero)
      obtain ⟨event, tags, rfl, hvalues⟩ := closes_eq_some hcloses
      have hopens := tally_opens_eq hnamed hstable hlog hn hvalues
      have hle : tally (r.closes labels) c log ≤ marks .closed c log := tally_closes_le c
      have hordered := hordered.closed_le c
      omega
  have hcount := countP_opens_eq (fun c => Nat.le_trans (tally_opens_le c) (honce c)) hclosed
  have hopen : r.openDispatches labels log =
      log.countP fun n => (r.opens labels n).any fun c => tally (r.closes labels) c log = 0 := by
    refine countP_congr fun n hn => ?_
    cases hopens : r.opens labels n with
    | none => simp
    | some c =>
      obtain ⟨tags, rfl, hvalues⟩ := opens_eq_some hopens
      have hcloses := tally_closes_eq hnamed hstable hlog hn hvalues
      simp [hcloses]
  rw [gauge_samples hbus hordered, hopen]
  omega

end PrometheusRecorder

/-- The dispatches with the labels whose `consume()` a `CancelledError` ended. -/
def PrometheusRecorder.interruptedDispatches (r : PrometheusRecorder) (labels : List String)
    (log : List Note) : Nat :=
  log.countP fun n => (r.opens labels n).any fun c => 0 < marks .interrupted c log

/-- **The in-process gauge counts the open dispatches.** Where every custom label depends only
    on the tags that the events of a claim share, the gauge is, at every point of a subscriber's
    log and for all labels, the number of dispatches with those labels that no event has closed
    yet; so it is never negative. Once the workers are done, what is left of it are the
    dispatches that a `CancelledError` ended. The gauge of a recorder that all subscribers
    share is the sum, however their events came in. -/
theorem in_process_gauge (b : Backend) (start : Int) (cfgs : List SubscriberConfig)
    (acts : List Act) (r : PrometheusRecorder) (hbus : r.includeBusMetrics = true)
    (hstable : r.Stable) (labels : List String) :
    let s := (System.init start cfgs).run b acts
    (∀ sub ∈ s.subscribers, ∀ log, log <+: sub.log →
      gauge .inProcess labels (r.samples log) = (r.openDispatches labels log : Nat)) ∧
    (∀ sub ∈ s.subscribers, sub.workersDone = true →
      gauge .inProcess labels (r.samples sub.log) = (r.interruptedDispatches labels sub.log : Nat)) ∧
    ∀ notes, notes.Perm (s.subscribers.flatMap Subscriber.log) →
      gauge .inProcess labels (r.samples notes) =
        ((s.subscribers.map fun sub => r.openDispatches labels sub.log).sum : Nat) := by
  intro s
  have hgauge : ∀ sub ∈ s.subscribers, ∀ log, log <+: sub.log →
      gauge .inProcess labels (r.samples log) = (r.openDispatches labels log : Nat) := by
    intro sub hmem log hprefix
    obtain ⟨index, hsub⟩ := mem_iff_getElem?.mp hmem
    have hinv := (System.run_inv b start cfgs acts).subscribers index sub hsub
    obtain ⟨rest, heq⟩ := hprefix
    have hordered : Ordered log := Ordered.of_append (heq ▸ hinv.log_ordered)
    refine PrometheusRecorder.gauge_eq_openDispatches hbus
      (System.run_named b start cfgs acts index sub hsub) hstable hordered
      (fun n hn => heq ▸ mem_append.mpr (.inl hn)) fun c => ?_
    have hone := hinv.dispatched_le_one c
    rw [← heq, marks_append] at hone
    omega
  refine ⟨hgauge, fun sub hmem hdone => ?_, fun notes hperm => ?_⟩
  · -- a dispatch that is not closed was interrupted
    obtain ⟨index, hsub⟩ := mem_iff_getElem?.mp hmem
    have hinv := (System.run_inv b start cfgs acts).subscribers index sub hsub
    rw [hgauge sub hmem sub.log (prefix_refl _)]
    refine congrArg Nat.cast (countP_congr fun n hn => ?_)
    cases hopens : r.opens labels n with
    | none => simp
    | some c =>
      obtain ⟨tags, rfl, _⟩ := PrometheusRecorder.opens_eq_some hopens
      have hall := hinv.closed_or_interrupted hdone c
      have hle := hinv.dispatched_le_one c
      have hpos : 0 < marks .dispatched c sub.log :=
        tally_pos_iff.mpr ⟨_, hn, by simp [Note.mark]⟩
      simp only [Option.any_some, decide_eq_true_eq]
      omega
  · have hsamples : (r.samples notes).Perm (r.samples (s.subscribers.flatMap Subscriber.log)) :=
      (hperm.filterMap _).flatMap_right _
    rw [gauge_perm .inProcess labels hsamples]
    generalize s.subscribers = subs at hgauge
    induction subs with
    | nil => rfl
    | cons sub subs ih =>
      rw [flatMap_cons, PrometheusRecorder.samples_append, gauge_append,
        hgauge sub mem_cons_self _ (prefix_refl _),
        ih fun sub' hmem => hgauge sub' (mem_cons_of_mem sub hmem)]
      simp

/-- A recorder with the queue as a custom label. -/
def queueRecorder : PrometheusRecorder :=
  { appName := "checkout"
    customLabels := [.resolver fun tags => some (tags.elim Tags.queue PublishedTags.queue)] }

theorem in_process_gauge_consumingRun :
    (∀ sub ∈ ((System.init 0 [plainConfig]).run .postgres consumingActs).subscribers,
      ∀ log, log <+: sub.log →
        gauge .inProcess ["checkout", "outbox", "handler", "orders"] (queueRecorder.samples log) =
          (queueRecorder.openDispatches ["checkout", "outbox", "handler", "orders"] log : Nat)) ∧
    ((System.init 0 [plainConfig]).run .postgres consumingActs).subscribers.map (fun sub =>
      gauge .inProcess ["checkout", "outbox", "handler", "orders"]
        (queueRecorder.samples sub.log)) = [1] := by
  have hstable : queueRecorder.Stable := by
    intro label hmem
    obtain rfl := mem_singleton.mp hmem
    intro tags tags' hqueue _ _
    exact congrArg some hqueue
  exact ⟨(in_process_gauge .postgres 0 [plainConfig] consumingActs queueRecorder rfl hstable _).1,
    by decide⟩

/-! ## Two recorders -/

/-- What both adapters record, in terms of neither. -/
inductive Observation where
  /-- An outcome, of a handler: `acked` or `nacked`. -/
  | processed (handler status : String)
  | duration (handler : String) (value : Int)
  | exception (handler typeName : String)
  | terminal (handler reason : String)
  | leaseLost (handler phase : String)
  | dlqWritten (handler reason : String)
  | drainTimeout (handler : String)
  | fetched (handler : String)
  /-- Messages that were published to a destination. -/
  | published (destination : String) (count : Nat)
  | publishDuration (destination : String) (value : Int)
  | publishException (destination typeName : String)
deriving DecidableEq, Repr

/-- A sample, as the adapters have it in common. Its labels are the application, the broker,
    the handler or the destination, the custom ones, and one of its own for some series. -/
def Sample.observation (s : Sample) : Option Observation :=
  match s.labels with
  | _ :: _ :: name :: rest =>
    let own := rest.getLast?.getD ""
    match s.series, s.update with
    | .processedTotal, _ => if own = "error" then none else some (.processed name own)
    | .processedDuration, .observe value => some (.duration name value)
    | .processedExceptions, _ => some (.exception name own)
    | .terminalReason, _ => some (.terminal name own)
    | .leaseLost, _ => some (.leaseLost name own)
    | .dlqWritten, _ => some (.dlqWritten name own)
    | .drainTimeout, _ => some (.drainTimeout name)
    | .fetchBatches, _ => some (.fetched name)
    | .publishedTotal, .inc count =>
      if own = "error" then none else some (.published name count)
    | .publishedDuration, .observe value => some (.publishDuration name value)
    | .publishedExceptions, _ => some (.publishException name own)
    | _, _ => none
  | _ => none

/-- A measurement, as the adapters have it in common. The counter of outcomes tells the status,
    the exception and the reason of each in its attributes. -/
def Measurement.observations (m : Measurement) : List Observation :=
  let handler := m.attrs.handler.getD ""
  match m.instrument with
  | .processMessages =>
    (m.attrs.status.toList.map fun status => .processed handler status) ++
      (m.attrs.errorType.toList.map fun exc => .exception handler exc) ++
      m.attrs.terminalReason.toList.map fun reason => .terminal handler reason
  | .processDuration => [.duration handler m.value]
  | .leaseLost => m.attrs.leasePhase.toList.map fun phase => .leaseLost handler phase
  | .dlqWritten => m.attrs.dlqReason.toList.map fun reason => .dlqWritten handler reason
  | .drainTimeout => [.drainTimeout handler]
  | .fetchBatches => [.fetched handler]
  | .publishMessages => [.published m.attrs.destination m.value.toNat]
  | .publishDuration =>
    .publishDuration m.attrs.destination m.value ::
      m.attrs.errorType.toList.map fun exc => .publishException m.attrs.destination exc

/-- What an event tells. -/
def Emission.observations : Emission → List Observation
  | .event .fetched tags => [.fetched tags.subscriber]
  | .event .drainTimeout tags => [.drainTimeout tags.subscriber]
  | .event .leaseLost tags =>
    tags.phase.toList.map fun phase => .leaseLost tags.subscriber phase.text
  | .event .dlqWritten tags =>
    tags.failureReason.toList.map fun reason => .dlqWritten tags.subscriber reason.text
  | .event .dispatched _ | .event .dispatchAbandoned _ => []
  | .event outcome tags =>
    ([.processed tags.subscriber outcome.status] ++
      tags.durationSeconds.toList.map fun value => .duration tags.subscriber value) ++
    ((tags.exceptionType.toList.map fun exc => .exception tags.subscriber exc) ++
      if outcome = .nackedTerminal then
        tags.reason.toList.map fun reason => .terminal tags.subscriber reason.text
      else [])
  | .published tags =>
    (if tags.count ≠ 0 then [.published tags.queue tags.count] else []) ++
      .publishDuration tags.queue tags.durationSeconds ::
        tags.exceptionType.toList.map fun exc => .publishException tags.queue exc

/-- What Prometheus counts under the status `error`, and how often. The other adapter counts
    it under no status of its own. -/
inductive Failure where
  /-- A handler's outcome that was not written: its lease was lost. -/
  | processed (handler : String) (count : Nat)
  /-- A publish that raised. -/
  | published (destination : String) (count : Nat)
deriving DecidableEq, Repr

def Sample.failure (s : Sample) : Option Failure :=
  match s.labels with
  | _ :: _ :: name :: rest =>
    if rest.getLast?.getD "" = "error" then
      match s.series, s.update with
      | .processedTotal, .inc count => some (.processed name count)
      | .publishedTotal, .inc count => some (.published name count)
      | _, _ => none
    else none
  | _ => none

/-- The leases that were lost have an instrument, and the duration of a failed publish its
    status. -/
def Measurement.failure (m : Measurement) : Option Failure :=
  match m.instrument with
  | .leaseLost => some (.processed (m.attrs.handler.getD "") 1)
  | .publishDuration =>
    if m.attrs.status = some "error" then some (.published m.attrs.destination 1) else none
  | _ => none

/-- The failure that an event tells. -/
def Emission.failures : Emission → List Failure
  | .event .leaseLost tags => [.processed tags.subscriber 1]
  | .published tags => if tags.status = "error" then [.published tags.queue 1] else []
  | _ => []

/-- The event has the tags that its recorders look up. -/
def Emission.Complete : Emission → Prop
  | .event .nackedTerminal tags => tags.reason.isSome
  | .event .leaseLost tags => tags.phase.isSome
  -- an error lands nothing
  | .published tags => tags.status = "error" → tags.count = 0
  | _ => True

/-- No resolver raises. -/
def PrometheusRecorder.Resolves (r : PrometheusRecorder) : Prop :=
  ∀ tags, (r.resolveCustomValues tags).isSome

namespace PrometheusRecorder

variable {r : PrometheusRecorder}

/-- Then the labels of an event are there. -/
theorem Resolves.consumeValues (h : r.Resolves) (tags : Tags) : ∃ custom : List String,
    r.consumeValues tags = some ([r.appName, brokerSystem, tags.subscriber] ++ custom) := by
  obtain ⟨custom, hcustom⟩ := Option.isSome_iff_exists.mp (h (.inl tags))
  exact ⟨custom, by simp [PrometheusRecorder.consumeValues, hcustom]⟩

theorem Resolves.publishValues (h : r.Resolves) (tags : PublishedTags) : ∃ custom : List String,
    r.publishValues tags = some ([r.appName, brokerSystem, tags.queue] ++ custom) := by
  obtain ⟨custom, hcustom⟩ := Option.isSome_iff_exists.mp (h (.inr tags))
  exact ⟨custom, by simp [PrometheusRecorder.publishValues, hcustom]⟩

variable (hbus : r.includeBusMetrics = true) (hresolves : r.Resolves) {e : Emission}
  (he : e.Complete)
include hbus hresolves he

/-- **The Prometheus adapter records what an event tells.** -/
theorem call_observations : (r.call e).filterMap Sample.observation = e.observations := by
  cases e with
  | published tags =>
    obtain ⟨custom, hvalues⟩ := hresolves.publishValues tags
    by_cases herror : tags.status = "error"
    · have hzero : tags.count = 0 := he herror
      simp [call, hbus, recordPublished, hvalues, herror, hzero, filterMap_map, Function.comp_def,
        Emission.observations, Sample.observation]
    · by_cases hcount : tags.count = 0 <;>
        simp [call, hbus, recordPublished, hvalues, herror, hcount, Nat.pos_iff_ne_zero,
          filterMap_map, Function.comp_def, Emission.observations, Sample.observation]
  | event event tags =>
    obtain ⟨custom, hvalues⟩ := hresolves.consumeValues tags
    cases event with
    | fetched => simp [call, hvalues, Emission.observations, Sample.observation]
    | dispatched =>
      cases hsize : tags.sizeBytes <;>
        simp [call, hvalues, hbus, recordBusConsume, recordOutbox, hsize, Emission.observations,
          Sample.observation]
    | acked | nackedRetried =>
      cases hduration : tags.durationSeconds <;>
        simp [call, hvalues, hbus, recordBusConsume, recordOutbox, hduration, filterMap_cons,
          filterMap_map, Function.comp_def, Emission.observations, Sample.observation,
          Event.status]
    | nackedTerminal =>
      obtain ⟨reason, hreason⟩ := Option.isSome_iff_exists.mp he
      cases hduration : tags.durationSeconds <;>
        simp [call, hvalues, hbus, recordBusConsume, recordOutbox, hduration, hreason,
          filterMap_cons, filterMap_map, Function.comp_def, Emission.observations,
          Sample.observation, Event.status]
    | leaseLost =>
      cases hduration : tags.durationSeconds <;>
        simp [call, hvalues, hbus, recordBusConsume, recordOutbox, hduration, filterMap_cons,
          filterMap_map, Function.comp_def, Emission.observations, Sample.observation]
    | dispatchAbandoned =>
      cases hduration : tags.durationSeconds <;>
        simp [call, hvalues, hbus, recordBusConsume, recordOutbox, hduration,
          Emission.observations, Sample.observation]
    | dlqWritten | drainTimeout =>
      simp [call, hvalues, recordBusConsume, recordOutbox, filterMap_map, Function.comp_def,
        Emission.observations, Sample.observation]

/-- ... and counts the failure it tells under the status `error`. -/
theorem call_failures : (r.call e).filterMap Sample.failure = e.failures := by
  cases e with
  | published tags =>
    obtain ⟨custom, hvalues⟩ := hresolves.publishValues tags
    by_cases herror : tags.status = "error" <;> by_cases hcount : tags.count = 0 <;>
      simp [call, hbus, recordPublished, hvalues, herror, hcount, Nat.pos_iff_ne_zero,
        filterMap_map, Function.comp_def, Emission.failures, Sample.failure]
  | event event tags =>
    obtain ⟨custom, hvalues⟩ := hresolves.consumeValues tags
    cases event with
    | fetched => simp [call, hvalues, Emission.failures, Sample.failure]
    | dispatched =>
      cases hsize : tags.sizeBytes <;>
        simp [call, hvalues, hbus, recordBusConsume, recordOutbox, hsize, Emission.failures,
          Sample.failure]
    | acked | nackedRetried | nackedTerminal | dispatchAbandoned =>
      cases hduration : tags.durationSeconds <;>
        simp [call, hvalues, hbus, recordBusConsume, recordOutbox, hduration, filterMap_map,
          Function.comp_def, Emission.failures, Sample.failure, Event.status]
    | leaseLost =>
      -- the other label of the lost lease is its phase, which is no `error`
      obtain ⟨phase, hphase⟩ := Option.isSome_iff_exists.mp he
      cases hduration : tags.durationSeconds <;>
        simp [call, hvalues, hbus, recordBusConsume, recordOutbox, hduration, hphase,
          Emission.failures, Sample.failure]
    | dlqWritten | drainTimeout =>
      simp [call, hvalues, recordBusConsume, recordOutbox, filterMap_map, Function.comp_def,
        Emission.failures, Sample.failure]

end PrometheusRecorder

/-- **The OpenTelemetry adapter records what an event tells.** -/
theorem OpenTelemetryRecorder.call_observations {r : OpenTelemetryRecorder}
    (hbus : r.includeBusMetrics = true) (hcounters : r.includeMessagesCounters = true)
    {e : Emission} (he : e.Complete) :
    ((r.call e).flatMap Measurement.observations).Perm e.observations := by
  have hhandler : ∀ subscriber : String,
      (if subscriber = "" then none else some subscriber).getD "" = subscriber := by
    intro subscriber
    by_cases hempty : subscriber = "" <;> simp [hempty]
  -- the duration is recorded before the outcome is counted
  have houtcome : ∀ event tags terminalReason,
      ((r.recordOutcome event tags terminalReason).flatMap Measurement.observations).Perm
        (([.processed tags.subscriber event.status] ++
          tags.durationSeconds.toList.map fun value => .duration tags.subscriber value) ++
        ((tags.exceptionType.toList.map fun exc => .exception tags.subscriber exc) ++
          terminalReason.toList.map fun reason => .terminal tags.subscriber reason)) := by
    intro event tags terminalReason
    have heq : (r.recordOutcome event tags terminalReason).flatMap Measurement.observations =
        ((tags.durationSeconds.toList.map fun value => .duration tags.subscriber value) ++
          [.processed tags.subscriber event.status]) ++
        ((tags.exceptionType.toList.map fun exc => .exception tags.subscriber exc) ++
          terminalReason.toList.map fun reason => .terminal tags.subscriber reason) := by
      cases hduration : tags.durationSeconds <;>
        simp [recordOutcome, hcounters, consumeAttrs, hhandler, hduration,
          Measurement.observations]
    rw [heq]
    exact perm_append_comm.append_right _
  cases e with
  | published tags =>
    by_cases hcount : tags.count = 0
    · simp [call, hbus, recordPublished, hcount, Emission.observations, Measurement.observations]
    · have heq : (r.call (.published tags)).flatMap Measurement.observations =
          (.publishDuration tags.queue tags.durationSeconds ::
            tags.exceptionType.toList.map fun exc => .publishException tags.queue exc) ++
          [.published tags.queue tags.count] := by
        simp [call, hbus, hcounters, recordPublished, hcount, Measurement.observations]
      rw [heq, Emission.observations, if_pos hcount]
      exact perm_append_comm
  | event event tags =>
    cases event with
    | acked | nackedRetried =>
      simpa [call, hbus, Emission.observations] using houtcome _ tags none
    | nackedTerminal =>
      obtain ⟨reason, hreason⟩ := Option.isSome_iff_exists.mp he
      simpa [call, hbus, Emission.observations, hreason] using
        houtcome .nackedTerminal tags (some reason.text)
    | leaseLost =>
      cases hphase : tags.phase <;>
        simp [call, consumeAttrs, hhandler, hphase, Emission.observations,
          Measurement.observations]
    | dlqWritten =>
      cases hreason : tags.failureReason <;>
        simp [call, consumeAttrs, hhandler, hreason, Emission.observations,
          Measurement.observations]
    | _ =>
      simp [call, consumeAttrs, hhandler, Emission.observations, Measurement.observations]

/-- ... and so is the failure it tells. -/
theorem OpenTelemetryRecorder.call_failures {r : OpenTelemetryRecorder}
    (hbus : r.includeBusMetrics = true) {e : Emission} (he : e.Complete) :
    (r.call e).filterMap Measurement.failure = e.failures := by
  have houtcome : ∀ event tags terminalReason,
      (r.recordOutcome event tags terminalReason).filterMap Measurement.failure = [] := by
    intro event tags terminalReason
    cases hduration : tags.durationSeconds <;> by_cases hcounters : r.includeMessagesCounters <;>
      simp [recordOutcome, hduration, hcounters, Measurement.failure]
  cases e with
  | published tags =>
    by_cases hcounted : r.includeMessagesCounters = true ∧ tags.count ≠ 0 <;>
      by_cases herror : tags.status = "error" <;>
      simp [call, hbus, recordPublished, hcounted, herror, Emission.failures, Measurement.failure]
  | event event tags =>
    cases event with
    | acked | nackedRetried => simp [call, hbus, houtcome, Emission.failures]
    | nackedTerminal =>
      obtain ⟨reason, hreason⟩ := Option.isSome_iff_exists.mp he
      simp [call, hbus, hreason, houtcome, Emission.failures]
    | leaseLost =>
      obtain ⟨phase, hphase⟩ := Option.isSome_iff_exists.mp he
      by_cases hsubscriber : tags.subscriber = "" <;>
        simp [call, consumeAttrs, hphase, hsubscriber, Emission.failures, Measurement.failure]
    | dlqWritten =>
      cases hreason : tags.failureReason <;>
        simp [call, hreason, Emission.failures, Measurement.failure]
    | _ => simp [call, Emission.failures, Measurement.failure]

/-! ## The events of a run -/

/-- Only `fetched` and `drain_timeout` are about no claim. -/
def Note.Keyed : Note → Prop
  | .metric none event _ => event = .fetched ∨ event = .drainTimeout
  | _ => True

theorem Note.keyed_of_own {n : Note} (h : n.aside = false) : n.Keyed := by
  unfold Note.Keyed
  split
  · cases h
  · trivial

namespace Subscriber

variable {known : Row → Prop} {s s' : Subscriber}

theorem afterDrain_keyed (h : ∀ n ∈ s.log, n.Keyed) (call : Nat) (passedLock timedOut : Bool) :
    ∀ n ∈ (s.afterDrain call passedLock timedOut).log, n.Keyed := by
  intro n hn
  have hn : n ∈ s.log ++ _ := hn
  rw [mem_append] at hn
  cases hn with
  | inl hold => exact h n hold
  | inr hnew =>
    split at hnew
    · rw [mem_singleton.mp hnew]
      exact .inr rfl
    · cases hnew

theorem step_keyed (hinv : s.Inv known) (h : ∀ n ∈ s.log, n.Keyed) {act : SubscriberAct}
    {orphan : Option Stmt} (hstep : s.step act = some (s', orphan)) : ∀ n ∈ s'.log, n.Keyed := by
  cases step_stepped hstep with
  | worker hw hout =>
    have hown := (afterWorker_inv hinv hw hout).2.2.2
    intro n hn
    have hn : n ∈ s.log ++ _ := hn
    rw [mem_append] at hn
    cases hn with
    | inl hold => exact h n hold
    | inr hnew => exact Note.keyed_of_own (hown n hnew)
  | stopRan hmoved =>
    cases hmoved with
    | empty _ _ _ => exact afterDrain_keyed h _ _ _
    | woken _ _ => exact afterDrain_keyed h _ _ _
    | returned _ _ =>
      intro n hn
      have hn : n ∈ s.log ++ _ := hn
      rw [mem_append, mem_map] at hn
      obtain hold | ⟨m, _, rfl⟩ := hn
      · exact h n hold
      · trivial
    | _ => exact h
  | lockTimedOut _ => exact afterDrain_keyed h _ _ _
  | joinTimedOut _ => exact afterDrain_keyed h _ _ _
  | notified =>
    intro n hn
    have hn : n ∈ s.log ++ [.notified] := hn
    rw [mem_append, mem_singleton] at hn
    obtain hold | rfl := hn
    · exact h n hold
    · trivial
  | fetch hout =>
    intro n hn
    have hn : n ∈ s.log ++ _ := hn
    rw [mem_append] at hn
    cases hn with
    | inl hold => exact h n hold
    | inr hnew =>
      cases FetchTask.step_stepped hout with
      | claimed _ _ =>
        rw [mem_singleton.mp hnew]
        trivial
      | queued _ _ =>
        rw [mem_append, mem_map, mem_singleton] at hnew
        obtain ⟨m, _, rfl⟩ | rfl := hnew
        · trivial
        · exact .inl rfl
      | other _ _ _ hnotes _ _ =>
        rw [hnotes] at hnew
        cases hnew
  | _ => exact h

end Subscriber

/-- The events of a run have the tags their recorders look up. -/
theorem System.run_complete (b : Backend) (start : Int) (cfgs : List SubscriberConfig)
    (acts : List Act) (index : Nat) (sub : Subscriber)
    (hsub : ((init start cfgs).run b acts).subscribers[index]? = some sub) {n : Note}
    (hn : n ∈ sub.log) {e : Emission} (he : n.emission = some e) : e.Complete := by
  have hkeyed : ∀ n ∈ sub.log, n.Keyed :=
    run_subscribers (P := fun sub => ∀ n ∈ sub.log, n.Keyed) (fun _ _ _ hn => (nomatch hn)) acts
      (fun _ _ _ _ _ _ _ hinv h hstep => Subscriber.step_keyed hinv h hstep)
      (fun _ _ _ _ h _ => h) (fun _ _ h => h) index sub hsub
  cases n with
  | metric key event tags =>
    obtain rfl := Option.some_inj.mp he
    cases key with
    | none => obtain rfl | rfl := hkeyed _ hn <;> trivial
    | some key =>
      obtain ⟨_, _, _, _, hshows⟩ := System.run_shows b start cfgs acts index sub hsub _ _ _ hn
      cases event with
      | nackedTerminal =>
        obtain ⟨reason, hreason, _⟩ := hshows
        exact Option.isSome_of_eq_some hreason
      | leaseLost =>
        obtain ⟨_, _, _, _, hphase⟩ := hshows
        exact Option.isSome_of_eq_some hphase
      | _ => trivial
  | _ => cases he

/-- A publish that raises counts nothing. -/
theorem OutboxProducer.publish_complete {β : Type}
    (encodeMessage : β → Except PyException (Bytes × Option String)) (repr : String → String)
    (typeName : PublishError → String) (b : Backend) (s : System) (cmd : OutboxPublishCommand β)
    (now : Int) (generated : String) (durationSeconds : Int) :
    (Emission.published (OutboxProducer.publish encodeMessage repr typeName b s cmd now generated
      durationSeconds).tags).Complete := by
  unfold OutboxProducer.publish
  split
  · exact fun _ => rfl
  · split
    · intro herror
      simp [OutboxProducer.successTags] at herror
    · exact fun _ => rfl
    · exact fun _ => rfl

theorem OutboxProducer.publishBatch_complete {β : Type}
    (encodeMessage : β → Except PyException (Bytes × Option String)) (repr : String → String)
    (typeName : PublishError → String) (b : Backend) (s : System) (cmd : OutboxPublishCommand β)
    (now : Int) (generated : Nat → String) (durationSeconds : Int) :
    (Emission.published (OutboxProducer.publishBatch encodeMessage repr typeName b s cmd now
      generated durationSeconds).tags).Complete := by
  unfold OutboxProducer.publishBatch
  dsimp only
  split
  · exact fun _ => rfl
  · split
    · exact fun _ => rfl
    · intro herror
      simp [OutboxProducer.successTags] at herror

/-- What a recorder of the application is called with: the events of its subscribers, and
    those of its publishes. -/
inductive System.Emits (s : System) : Emission → Prop where
  | note {index : Nat} {sub : Subscriber} {n : Note} {e : Emission}
      (hsub : s.subscribers[index]? = some sub) (hn : n ∈ sub.log) (he : n.emission = some e) :
      s.Emits e
  | publish {β : Type} (encodeMessage : β → Except PyException (Bytes × Option String))
      (repr : String → String) (typeName : PublishError → String) (b : Backend) (before : System)
      (cmd : OutboxPublishCommand β) (now : Int) (generated : String) (durationSeconds : Int) :
      s.Emits (.published (OutboxProducer.publish encodeMessage repr typeName b before cmd now
        generated durationSeconds).tags)
  | publishBatch {β : Type} (encodeMessage : β → Except PyException (Bytes × Option String))
      (repr : String → String) (typeName : PublishError → String) (b : Backend) (before : System)
      (cmd : OutboxPublishCommand β) (now : Int) (generated : Nat → String)
      (durationSeconds : Int) :
      s.Emits (.published (OutboxProducer.publishBatch encodeMessage repr typeName b before cmd
        now generated durationSeconds).tags)

/-- **The two recorders agree.** Called with the same events of a run and its publishes, in
    any order and number, a Prometheus recorder none of whose resolvers raises and an
    OpenTelemetry recorder, both with all their series, record the same observations, as often.
    What Prometheus counts under the status `error` besides is one outcome for each lease the
    other counts as lost, and one publish for each it times with that status. -/
theorem recorders_agree (b : Backend) (start : Int) (cfgs : List SubscriberConfig)
    (acts : List Act) {p : PrometheusRecorder} (hbus : p.includeBusMetrics = true)
    (hresolves : p.Resolves) {o : OpenTelemetryRecorder} (hbus' : o.includeBusMetrics = true)
    (hcounters : o.includeMessagesCounters = true) (emissions : List Emission)
    (hemits : ∀ e ∈ emissions, ((System.init start cfgs).run b acts).Emits e) :
    ((emissions.flatMap p.call).filterMap Sample.observation).Perm
      ((emissions.flatMap o.call).flatMap Measurement.observations) ∧
    (emissions.flatMap p.call).filterMap Sample.failure =
      (emissions.flatMap o.call).filterMap Measurement.failure := by
  have hcomplete : ∀ e ∈ emissions, e.Complete := by
    intro e he
    cases hemits e he with
    | note hsub hn hemission =>
      exact System.run_complete b start cfgs acts _ _ hsub hn hemission
    | publish _ _ _ _ _ _ _ _ _ => exact OutboxProducer.publish_complete _ _ _ _ _ _ _ _ _
    | publishBatch _ _ _ _ _ _ _ _ _ =>
      exact OutboxProducer.publishBatch_complete _ _ _ _ _ _ _ _ _
  clear hemits
  induction emissions with
  | nil => exact ⟨.nil, rfl⟩
  | cons e emissions ih =>
    obtain ⟨hobservations, hfailures⟩ := ih fun e' he' => hcomplete e' (mem_cons_of_mem e he')
    simp only [flatMap_cons, filterMap_append, flatMap_append]
    have he := hcomplete e mem_cons_self
    -- both record what the event tells
    have hhead := p.call_observations hbus hresolves he
    have hhead' := o.call_observations hbus' hcounters he
    rw [hhead, p.call_failures hbus hresolves he, o.call_failures hbus' he, hfailures]
    exact ⟨hhead'.symm.append hobservations, rfl⟩

/-- The events of an acknowledged row. -/
def ackedEmissions : List Emission :=
  ((System.init 0 [plainConfig]).run .postgres ackedActs).subscribers.flatMap fun sub =>
    sub.log.filterMap Note.emission

theorem recorders_agree_ackedRun :
    ((ackedEmissions.flatMap queueRecorder.call).filterMap Sample.observation).Perm
      ((ackedEmissions.flatMap ({ includeMessagesCounters := true } : OpenTelemetryRecorder).call
        ).flatMap Measurement.observations) ∧
    (ackedEmissions.flatMap queueRecorder.call).filterMap Sample.observation =
      [.fetched "handler", .processed "handler" "acked", .duration "handler" 0] := by
  refine ⟨(recorders_agree .postgres 0 [plainConfig] ackedActs rfl (fun _ => rfl) rfl rfl _
    ?_).1, by decide⟩
  intro e he
  obtain ⟨sub, hsub, he⟩ := mem_flatMap.mp he
  obtain ⟨index, hindex⟩ := mem_iff_getElem?.mp hsub
  obtain ⟨n, hn, hemission⟩ := mem_filterMap.mp he
  exact .note hindex hn hemission

end Outbox
