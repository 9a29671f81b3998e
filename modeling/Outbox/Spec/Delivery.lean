import Outbox.Native.Producer
import Outbox.Spec.EnvelopeRoundTrip
import Outbox.Spec.NoRowLost

/-!
# Messages are delivered as they were published

Between the INSERT of a publish and a handler lie claims, retries, expired leases and
other subscribers. None of them touches the contents of a row: only an `extend` of its timer
does. So whoever claims the row, and however often, parses the message that was published,
and so does whoever reads its dead letter.

## Key results

- `RowStep.contents_eq`: an operation that does not extend a row keeps its contents
- `System.run_delivers`: so does every run
- `delivered_as_published`: from `publish` to `parse_message`
-/

namespace Outbox

open List

/-! ## Contents -/

/-- What a publish sends of a row. -/
structure Contents where
  queue : String
  timerId : Option String
  payload : Bytes
  headers : Option Headers

def Row.contents (r : Row) : Contents :=
  { queue := r.queue, timerId := r.timerId, payload := r.payload, headers := r.headers }

def DlqRow.contents (d : DlqRow) : Contents :=
  { queue := d.queue, timerId := d.timerId, payload := d.payload, headers := d.headers }

@[simp] theorem dlqProjection_contents (r : Row) (now : Int) (reason : String)
    (exc : Option String) : (dlqProjection r now reason exc).contents = r.contents := rfl

@[simp] theorem claimSet_contents (r : Row) (now : Int) (token : UUID) :
    (OutboxClient.claimSet r now token).contents = r.contents := rfl

/-- The operation is a publish that may extend a timer with the queue and the id. -/
def Op.Extends (op : Op) (queue : String) (timerId : Option String) : Prop :=
  match op with
  | .insert _ args => args.timerConflict = .extend ∧ args.timerId.isSome ∧ args.queue = queue ∧
    args.timerId = timerId
  | _ => False

/-- Only an `extend` of its timer changes the contents of a row. -/
theorem RowStep.contents_eq {id nextId : Nat} {now : Int} {op : Op} {reply : Reply} {r r' : Row}
    (h : RowStep id nextId now op reply (some r) (some r'))
    (hop : ¬op.Extends r.queue r.timerId) : r'.contents = r.contents := by
  generalize hr : some r = before at h
  generalize hr' : some r' = after at h
  cases h with
  | same _ _ _ =>
    rw [← hr'] at hr
    cases hr
    rfl
  | inserted _ => cases hr
  | insertedBatch _ _ => cases hr
  | extended hmode _ hqueue htimer hkeyed _ =>
    cases hr
    exact absurd ⟨hmode, hkeyed, hqueue.symm, htimer.symm⟩ hop
  | claimed _ _ =>
    cases hr
    cases hr'
    rfl
  | rescheduled _ =>
    cases hr
    cases hr'
    rfl
  | deleted _ => cases hr'
  | deletedBatch _ _ _ => cases hr'
  | cancelled _ _ => cases hr'

/-! ## Runs -/

/-- Whatever there is of the id has the contents: the row, the claims of it, its dead letters. -/
structure Delivers (id : Nat) (c : Contents) (w : World) (executed : List Executed) : Prop where
  drawn : id < w.store.nextId
  live : ∀ row, w.store.row? id = some row → row.contents = c
  claimed : ∀ e ∈ executed, ∀ row, e.Returns row → row.id = id → row.contents = c
  archived : ∀ d ∈ w.store.dlqRows, d.originalId = id → d.contents = c

/-- The act is a publish that may extend such a timer. -/
def Act.Extends (act : Act) (queue : String) (timerId : Option String) : Prop :=
  match act with
  | .external op => op.Extends queue timerId
  | _ => False

namespace System

variable {b : Backend} {s s' : System} {id : Nat} {c : Contents}

/-- What an operation archives of the row has the contents of the row. -/
theorem archivedBy_contents {w : World} (hwf : w.store.WF) {op : Op} {reply : Reply} {d : DlqRow}
    (hd : d ∈ w.archivedBy op reply) :
    ∃ r, w.store.row? d.originalId = some r ∧ d.contents = r.contents := by
  unfold World.archivedBy at hd
  split at hd
  · obtain ⟨r, hr, rfl⟩ := mem_map.mp hd
    have hr := Option.mem_toList.mp hr
    have hid := ((Store.row?_eq_some_iff hwf).mp hr).2
    exact ⟨r, (show w.store.row? r.id = some r from hid ▸ hr), rfl⟩
  · cases hd

/-- An operation that extends no such timer. -/
theorem ran_delivers (hinv : s.Inv b) (h : Delivers id c s.world s.executed) (source : Source)
    (op : Op) (hop : ¬op.Extends c.queue c.timerId) :
    Delivers id c (s.world.step b op).2 (s.executed ++ [s.ran b source op]) := by
  have hrow := ran_rowStep hinv source op id
  have hlive : ∀ row, (s.world.step b op).2.store.row? id = some row → row.contents = c := by
    intro row hafter
    have hafter' : (s.ran b source op).entry.after.store.row? id = some row := hafter
    rw [hafter'] at hrow
    cases hbefore : s.world.store.row? id with
    | none =>
      -- the id is drawn, so no row comes to it
      rw [hbefore] at hrow
      cases (hrow.stays_gone h.drawn).1
    | some r =>
      rw [hbefore] at hrow
      have hcontents := h.live r hbefore
      have hqueue : r.queue = c.queue := congrArg Contents.queue hcontents
      have htimer : r.timerId = c.timerId := congrArg Contents.timerId hcontents
      exact (hrow.contents_eq (by rwa [hqueue, htimer])).trans hcontents
  refine ⟨Nat.lt_of_lt_of_le h.drawn (World.apply_nextId_le hinv.wf b op), hlive, ?_, ?_⟩
  · intro e he row hreturns hid
    rw [mem_append, mem_singleton] at he
    cases he with
    | inl hold => exact h.claimed e hold row hreturns hid
    | inr hnew =>
      subst hnew
      exact hlive row (hid ▸ (ran_returns hinv source op hreturns).1)
  · intro d hd hid
    have hdlq : (s.world.step b op).2.store.dlqRows = s.world.store.dlqRows ++
      s.world.archivedBy op (s.world.step b op).1 := World.apply_dlqRows hinv.wf b op
    rw [hdlq, mem_append] at hd
    cases hd with
    | inl hold => exact h.archived d hold hid
    | inr hnew =>
      obtain ⟨r, hr, hcontents⟩ := archivedBy_contents hinv.wf hnew
      exact hcontents.trans (h.live r (hid ▸ hr))

/-- A step on an act that extends no such timer. -/
theorem step_delivers (hinv : s.Inv b) (h : Delivers id c s.world s.executed) {act : Act}
    (hact : ¬act.Extends c.queue c.timerId) (hstep : s.step b act = some s') :
    Delivers id c s'.world s'.executed := by
  -- no statement of a subscriber is a publish
  have hstmt : ∀ (stmt : Stmt) (locked : List Nat),
      ¬(stmt.op locked).Extends c.queue c.timerId := by
    intro stmt locked hextends
    cases stmt <;> exact hextends
  cases step_stepped hstep with
  | external _ => exact ran_delivers hinv h .external _ hact
  | subscriber _ _ _ => exact h
  | @appliedWorker index _ _ _ stmt _ _ _ =>
    exact ran_delivers hinv h (.subscriber index stmt) _ (hstmt stmt [])
  | @appliedFetch index locked _ stmt _ _ =>
    exact ran_delivers hinv h (.subscriber index stmt) _ (hstmt stmt locked)
  | @appliedOrphan _ index locked stmt _ =>
    exact ran_delivers hinv h (.subscriber index stmt) _ (hstmt stmt locked)

/-- **A run keeps the contents of a row, its claims and its dead letters.** -/
theorem run_delivers (hinv : s.Inv b) (h : Delivers id c s.world s.executed) {acts : List Act}
    (hacts : ∀ act ∈ acts, ¬act.Extends c.queue c.timerId) :
    Delivers id c (s.run b acts).world (s.run b acts).executed :=
  (run_induction (P := fun t => t.Inv b ∧ Delivers id c t.world t.executed) ⟨hinv, h⟩ acts
    fun _ act hact _ ht hstep =>
      ⟨step_inv ht.1 hstep, step_delivers ht.1 ht.2 (hacts act hact) hstep⟩).2

end System

/-! ## Publishing -/

section

variable {β : Type} (encodeMessage : β → Except PyException (Bytes × Option String))
  (repr : String → String) (typeName : PublishError → String)

namespace OutboxProducer

variable {b : Backend} {s : System} {cmd : OutboxPublishCommand β} {now : Int}
  {generated : String} {durationSeconds : Int}

/-- The contents a command gives a row. -/
def contents (cmd : OutboxPublishCommand β) (payload : Bytes) (headers : Dict) : Contents :=
  { queue := cmd.queue.text
    timerId := cmd.timerId
    payload := payload
    headers := some (Headers.ofDict headers) }

/-- A publish that returns a row id has inserted, and counts one message. -/
theorem publish_eq_ok {rowId : Option Nat}
    (h : (publish encodeMessage repr typeName b s cmd now generated durationSeconds).result =
      .ok rowId) : ∃ payload headers,
    encodePayload encodeMessage repr cmd.body (some cmd.headers) cmd.correlationId generated =
      .ok (payload, headers) ∧
    (s.world.step b (.insert now (insertArgs cmd payload headers))).1 = .inserted (.ok rowId) ∧
    publish encodeMessage repr typeName b s cmd now generated durationSeconds =
      { result := .ok rowId
        tags := successTags cmd (if rowId.isNone then 0 else 1) payload.length durationSeconds
        after := (s.execute b .external (.insert now (insertArgs cmd payload headers))).2 } := by
  unfold publish at h ⊢
  cases hencoded : encodePayload encodeMessage repr cmd.body (some cmd.headers)
      cmd.correlationId generated with
  | error e =>
    rw [hencoded] at h
    cases h
  | ok encoded =>
    obtain ⟨payload, headers⟩ := encoded
    rw [hencoded] at h
    dsimp only at h ⊢
    refine ⟨payload, headers, rfl, ?_⟩
    have hreply : (s.world.step b (.insert now (insertArgs cmd payload headers))).1 =
        (s.execute b .external (.insert now (insertArgs cmd payload headers))).1 := rfl
    obtain ⟨landed, hlanded⟩ : ∃ landed,
        (s.execute b .external (.insert now (insertArgs cmd payload headers))).1 =
          .inserted landed := ⟨_, rfl⟩
    rw [hreply]
    generalize s.execute b .external (.insert now (insertArgs cmd payload headers)) = out
      at h hlanded ⊢
    obtain ⟨reply, after⟩ := out
    subst hlanded
    cases landed with
    | error e => cases h
    | ok landed =>
      cases h
      exact ⟨rfl, rfl⟩

/-- The row a publish has just inserted has its contents, and nothing else has its id. -/
theorem publish_delivers (hinv : s.Inv b) (hlineage : Lineage s.world s.executed)
    (harchive : Archive s.world s.executed) {id : Nat}
    (h : (publish encodeMessage repr typeName b s cmd now generated durationSeconds).result =
      .ok (some id)) (hnew : s.world.store.row? id = none) : ∃ payload headers,
    encodePayload encodeMessage repr cmd.body (some cmd.headers) cmd.correlationId generated =
      .ok (payload, headers) ∧
    let after := (publish encodeMessage repr typeName b s cmd now generated durationSeconds).after
    after.Inv b ∧ Delivers id (contents cmd payload headers) after.world after.executed := by
  obtain ⟨payload, headers, hencoded, hreply, heq⟩ := publish_eq_ok encodeMessage repr typeName h
  refine ⟨payload, headers, hencoded, ?_⟩
  rw [heq]
  intro after
  have hrow := System.ran_rowStep hinv .external (.insert now (insertArgs cmd payload headers)) id
  have hout : (s.ran b .external (.insert now (insertArgs cmd payload headers))).entry.output =
      .inserted (.ok (some id)) := hreply
  rw [hout, hnew] at hrow
  have hafter : (s.ran b .external (.insert now (insertArgs cmd payload headers))).entry.after =
      after.world := rfl
  rw [hafter] at hrow
  -- the id was drawn for it
  obtain ⟨hfresh, row, hlive, hcontents⟩ : s.world.store.nextId ≤ id ∧ ∃ row,
      after.world.store.row? id = some row ∧ row.contents = contents cmd payload headers := by
    generalize after.world.store.row? id = found at hrow
    cases hrow with
    | same _ _ hinserted => exact absurd rfl hinserted
    | inserted hfresh => exact ⟨hfresh, _, rfl, rfl⟩
  have hinvafter : after.Inv b := System.external_inv hinv rfl
  refine ⟨hinvafter, ?_, ?_, ?_, ?_⟩
  · refine Nat.lt_of_not_le fun hle => ?_
    rw [hinvafter.wf.row?_of_le hle] at hlive
    cases hlive
  · intro row' hrow'
    rw [hlive] at hrow'
    cases hrow'
    exact hcontents
  · intro e he row' hreturns hid
    have he : e ∈ s.executed ++ [_] := he
    rw [mem_append, mem_singleton] at he
    cases he with
    | inl hold =>
      -- what was returned before has an id that was drawn before
      obtain ⟨_, _, _, _, _, _, _, _, _, _, _, _, _, hstored⟩ := hinv.of_returns hold hreturns
      have hlt := hinv.drawn_of_after hold hstored
      have hle := (hlineage.drawn e hold).2
      omega
    | inr hnew =>
      obtain ⟨rows, hrows, _⟩ := hreturns
      rw [hnew] at hrows
      cases hrows.symm.trans hout
  · intro d hd hid
    have hdlq := World.apply_dlqRows hinv.wf b (.insert now (insertArgs cmd payload headers))
    have hsame : after.world.store.dlqRows = s.world.store.dlqRows :=
      hdlq.trans (append_nil _)
    have hnone := harchive.fresh id hfresh
    rw [hsame] at hd
    have hmem : d ∈ s.world.store.dlqRowsOf id := mem_filter.mpr ⟨hd, decide_eq_true hid⟩
    rw [hnone] at hmem
    cases hmem

end OutboxProducer

/-- What is encoded is the payload of the encoder, under the headers of the envelope. -/
theorem encodePayload_eq_ok {body : β} {payload payload' : Bytes} {contentType : Option String}
    (henc : encodeMessage body = .ok (payload, contentType)) {headers : Option Dict}
    {correlationId : Option String} {generated : String} {stored : Dict}
    (h : encodePayload encodeMessage repr body headers correlationId generated =
      .ok (payload', stored)) :
    payload' = payload ∧ stored = enveloped (headers.getD ∅) contentType correlationId generated := by
  rw [encodePayload_eq encodeMessage repr henc] at h
  split at h
  · cases h
  · cases h
  · cases h
    exact ⟨rfl, rfl⟩

/-- The command of a publish. -/
theorem OutboxPublishCommand.init_eq_ok {body : β} {bodies : List β} {args : PublishArgs}
    {headers : Option Dict} {correlationId : Option String} {cmd : OutboxPublishCommand β}
    (h : OutboxPublishCommand.init repr body bodies args headers correlationId = .ok cmd) :
    cmd =
      { args with
        body := body
        extraBodies := bodies
        headers := headers.getD ∅
        correlationId := correlationId } := by
  unfold OutboxPublishCommand.init at h
  split at h
  · cases h
  · split at h
    · cases h
    · exact (Except.ok.inj h).symm

/-- **A message is delivered as it was published.** Once `broker.publish` has inserted a new
    row, every claim of the row that any subscriber is returned, at any point of any run that
    extends no timer with its queue and id, parses to the body and the content type the
    encoder gave, the correlation id that was passed, carried by the headers or drawn, the
    other headers as they were given, and the row's own id and queue; and a dead letter of the
    row has the same payload and headers. -/
theorem delivered_as_published (b : Backend) (start : Int) (cfgs : List SubscriberConfig)
    (acts acts' : List Act) {body : β} {args : PublishArgs} {headers : Option Dict}
    {correlationId : Option String} {now : Int} {generated : String} {durationSeconds : Int}
    {p : Publication (Option Nat)} (hgen : generated ≠ "") (stream : StreamMessage)
    (hpublish : OutboxBroker.publish encodeMessage repr typeName b
      ((System.init start cfgs).run b acts) body args headers correlationId now generated
      durationSeconds = .ok p) {id : Nat} (hresult : p.result = .ok (some id))
    (hnew : ((System.init start cfgs).run b acts).world.store.row? id = none)
    (hacts : ∀ act ∈ acts', ¬act.Extends args.queue.text args.timerId) :
    ∃ payload contentType, encodeMessage body = .ok (payload, contentType) ∧
      let s := p.after.run b acts'
      (∀ (index : Nat) (m : OutboxInnerMessage), s.known index m.row → m.row.id = id →
        ReadsBack (headers.getD ∅) contentType correlationId generated payload
            (parseMessage stream m) ∧
          (parseMessage stream m).messageId = toString id ∧
          (parseMessage stream m).replyTo = args.queue.text) ∧
      ∀ d ∈ s.world.store.dlqRows, d.originalId = id → d.payload = payload ∧
        d.headers = some (Headers.ofDict
          (enveloped (headers.getD ∅) contentType correlationId generated)) := by
  unfold OutboxBroker.publish at hpublish
  cases hcmd : OutboxPublishCommand.init repr body [] args headers correlationId with
  | error e =>
    rw [hcmd] at hpublish
    cases hpublish
  | ok cmd =>
    rw [hcmd] at hpublish
    obtain rfl := Except.ok.inj hpublish
    obtain ⟨payload', stored, hencoded, hinv, hdelivers⟩ := OutboxProducer.publish_delivers
      encodeMessage repr typeName (System.run_inv b start cfgs acts)
      (System.run_lineage b start cfgs acts) (System.run_archive b start cfgs acts) hresult hnew
    obtain rfl := OutboxPublishCommand.init_eq_ok repr hcmd
    cases henc : encodeMessage body with
    | error e =>
      rw [encodePayload_of_encoder encodeMessage repr henc] at hencoded
      cases hencoded
    | ok encoded =>
      obtain ⟨payload, contentType⟩ := encoded
      obtain ⟨rfl, rfl⟩ := encodePayload_eq_ok encodeMessage repr henc hencoded
      refine ⟨payload', contentType, rfl, ?_⟩
      have hrun := System.run_delivers hinv hdelivers hacts
      constructor
      · intro index m hknown hid
        obtain ⟨e, he, _, hreturns⟩ := hknown
        have hcontents := hrun.claimed e he m.row hreturns hid
        have hqueue : m.row.queue = args.queue.text := congrArg Contents.queue hcontents
        have hstores : m.row.Stores payload'
            (enveloped (headers.getD ∅) contentType correlationId generated) :=
          Row.stores_ofDict (congrArg Contents.payload hcontents)
            (congrArg Contents.headers hcontents)
        exact ⟨parseMessage_readsBack stream hgen hstores, by rw [← hid]; rfl, hqueue⟩
      · intro d hd hid
        have hcontents := hrun.archived d hd hid
        exact ⟨congrArg Contents.payload hcontents, congrArg Contents.headers hcontents⟩

end

/-- The encoder of a body that is bytes. -/
def encodeBytes (body : Bytes) : Except PyException (Bytes × Option String) := .ok (body, none)

/-- A publish of one byte. -/
def plainPublish : Except Error (Publication (Option Nat)) :=
  OutboxBroker.publish encodeBytes id (fun _ => "") .postgres
    ((System.init 0 [plainConfig]).run .postgres startActs) [1] { queue := .str "orders" } none
    (some "c-1") 0 "drawn" 0

theorem delivered_as_published_plain : ∃ p, plainPublish = .ok p ∧ p.result = .ok (some 1) ∧
    ((p.after.run .postgres (fetchActs 7)).subscribers.map fun sub =>
      marks .returned (1, some 7) sub.log) = [1] ∧
    ∀ (index : Nat) (m : OutboxInnerMessage),
      (p.after.run .postgres (fetchActs 7)).known index m.row → m.row.id = 1 →
      (parseMessage drawingStream m).body = [1] ∧
        (parseMessage drawingStream m).correlationId = "c-1" := by
  have hacts : ∀ act ∈ fetchActs 7, ¬act.Extends "orders" none := by
    intro act hact hextends
    simp only [fetchActs, mem_cons, not_mem_nil, or_false] at hact
    obtain rfl | rfl | rfl := hact <;> exact hextends
  obtain ⟨p, hpublish, hresult, hclaimed⟩ : ∃ p, plainPublish = .ok p ∧
      p.result = .ok (some 1) ∧ ((p.after.run .postgres (fetchActs 7)).subscribers.map fun sub =>
        marks .returned (1, some 7) sub.log) = [1] := ⟨_, rfl, rfl, by decide⟩
  refine ⟨p, hpublish, hresult, hclaimed, ?_⟩
  intro index m hknown hid
  obtain ⟨payload, contentType, hencoded, hclaims, _⟩ :=
    delivered_as_published encodeBytes id (fun _ => "") .postgres 0 [plainConfig] startActs
      (fetchActs 7) (by decide) drawingStream hpublish hresult rfl hacts
  cases hencoded
  obtain ⟨hreads, _⟩ := hclaims index m hknown hid
  exact ⟨hreads.body, hreads.correlationId⟩

end Outbox
