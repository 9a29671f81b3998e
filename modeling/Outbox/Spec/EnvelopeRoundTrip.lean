import Outbox.Native.Envelope

/-!
# The envelope round trip

What `encodePayload` writes, `parseMessage` reads back: each of the two managed headers has
three sources, and writer and reader resolve them alike. A stored row is a fixed point:
encoding its payload bytes again under its own headers gives the same payload and headers.

`encodePayload` is stated on the contents of dicts. `encodePayloadOn` runs the same
statements on dict objects, which shows whose objects they change: none that was there.

## Key results

- `encodePayload_of_conflict` / `encodePayload_of_agree`: what the encoding gives
- `encodePayloadOn_eq` / `keeps_encodePayloadOn`: the objects hold just that, and no older
  object is changed
- `envelope_round_trip`: encode, parse, and encode again
-/

namespace Outbox

theorem truthy_eq_some_iff {s : Option String} {v : String} :
    truthy s = some v ↔ s = some v ∧ v ≠ "" := by
  simp [truthy, Option.filter_eq_some_iff]

theorem truthy_of_ne {v : String} (h : v ≠ "") : truthy (some v) = some v :=
  truthy_eq_some_iff.mpr ⟨rfl, h⟩

/-- A check `if a != b: raise ...`. -/
private theorem ite_bne_eq_none_iff {a b : String} {e : Error} :
    (if a != b then some e else none) = none ↔ a = b := by
  by_cases hsame : a = b
  · rw [hsame, bne_self_eq_false]
    exact ⟨fun _ => rfl, fun _ => rfl⟩
  · rw [bne_iff_ne.mpr hsame]
    exact ⟨fun h => absurd h (Option.some_ne_none e), fun h => absurd h hsame⟩

theorem correlationIdHeader_ne : correlationIdHeader ≠ contentTypeHeader := by decide

/-! ## Conflicts -/

/-- The headers carry a content type that is not the encoder's. -/
def ContentTypeDiffers (headers : Dict) (contentType : Option String) : Prop :=
  ∃ given encoded, headers.get? contentTypeHeader = some given ∧
    contentType = some encoded ∧ encoded ≠ "" ∧ given ≠ encoded

/-- The headers carry a correlation id that is not the argument. -/
def CorrelationIdDiffers (headers : Dict) (correlationId : Option String) : Prop :=
  ∃ given argument, headers.get? correlationIdHeader = some given ∧
    correlationId = some argument ∧ given ≠ argument

section

variable (repr : String → String) (headers : Dict)

theorem contentTypeConflict_eq_none_iff (contentType : Option String) :
    contentTypeConflict repr headers contentType = none ↔
      ¬ContentTypeDiffers headers contentType := by
  unfold contentTypeConflict ContentTypeDiffers
  cases hgiven : headers.get? contentTypeHeader with
  | none => simp
  | some given =>
    cases hencoded : truthy contentType with
    | none =>
      refine ⟨fun _ ⟨_, encoded, _, hct, hne, _⟩ => ?_, fun _ => rfl⟩
      rw [truthy_eq_some_iff.mpr ⟨hct, hne⟩] at hencoded
      cases hencoded
    | some encoded =>
      obtain ⟨rfl, hne⟩ := truthy_eq_some_iff.mp hencoded
      have hdiffers : (∃ given' encoded', some given = some given' ∧ some encoded = some encoded' ∧
          encoded' ≠ "" ∧ given' ≠ encoded') ↔ given ≠ encoded := by
        constructor
        · rintro ⟨_, _, ⟨⟩, ⟨⟩, _, hsame⟩
          exact hsame
        · intro hsame
          exact ⟨given, encoded, rfl, rfl, hne, hsame⟩
      rw [hdiffers, not_ne_iff]
      exact ite_bne_eq_none_iff

theorem correlationIdConflict_eq_none_iff (correlationId : Option String) :
    correlationIdConflict repr headers correlationId = none ↔
      ¬CorrelationIdDiffers headers correlationId := by
  unfold correlationIdConflict CorrelationIdDiffers
  cases correlationId with
  | none => simp
  | some argument =>
    cases headers.get? correlationIdHeader with
    | none => simp
    | some given =>
      have hdiffers : (∃ given' argument', some given = some given' ∧
          some argument = some argument' ∧ given' ≠ argument') ↔ given ≠ argument := by
        constructor
        · rintro ⟨_, _, ⟨⟩, ⟨⟩, hsame⟩
          exact hsame
        · intro hsame
          exact ⟨given, argument, rfl, rfl, hsame⟩
      rw [hdiffers, not_ne_iff]
      exact ite_bne_eq_none_iff.trans eq_comm

end

/-! ## What the encoding writes -/

/-- The headers with the encoder's content type. -/
def labelled (headers : Dict) (contentType : Option String) : Dict :=
  match truthy contentType with
  | some contentType => headers.set contentTypeHeader contentType
  | none => headers

/-- The headers `_encode_payload` returns. -/
def enveloped (headers : Dict) (contentType correlationId : Option String)
    (generated : String) : Dict :=
  (labelled headers contentType).set correlationIdHeader
    (((truthy correlationId).or (truthy (headers.get? correlationIdHeader))).getD generated)

theorem get?_labelled_of_ne (headers : Dict) (contentType : Option String) {key : String}
    (h : key ≠ contentTypeHeader) : (labelled headers contentType).get? key = headers.get? key := by
  unfold labelled
  split
  · exact PyDict.get?_set_of_ne headers h _
  · rfl

theorem get?_labelled_contentType (headers : Dict) (contentType : Option String) :
    (labelled headers contentType).get? contentTypeHeader =
      (truthy contentType).or (headers.get? contentTypeHeader) := by
  unfold labelled
  split
  · rename_i ct hct
    simp [hct]
  · rename_i hct
    simp [hct]

section

variable (headers : Dict) (contentType correlationId : Option String) (generated : String)

theorem get?_enveloped_correlationId :
    (enveloped headers contentType correlationId generated).get? correlationIdHeader =
      some (((truthy correlationId).or (truthy (headers.get? correlationIdHeader))).getD
        generated) :=
  PyDict.get?_set_self _ _ _

theorem get?_enveloped_contentType :
    (enveloped headers contentType correlationId generated).get? contentTypeHeader =
      (truthy contentType).or (headers.get? contentTypeHeader) := by
  unfold enveloped
  rw [PyDict.get?_set_of_ne _ correlationIdHeader_ne.symm, get?_labelled_contentType]

theorem get?_enveloped_of_not_managed {key : String} (h : key ∉ envelopeManagedHeaders) :
    (enveloped headers contentType correlationId generated).get? key = headers.get? key := by
  simp only [envelopeManagedHeaders, List.mem_cons, List.not_mem_nil, or_false, not_or] at h
  unfold enveloped
  rw [PyDict.get?_set_of_ne _ h.2, get?_labelled_of_ne headers contentType h.1]

/-- The correlation id written is never empty. -/
theorem enveloped_correlationId_ne (hgen : generated ≠ "") :
    ((truthy correlationId).or (truthy (headers.get? correlationIdHeader))).getD generated ≠
      "" := by
  cases hargument : truthy correlationId with
  | some argument => exact (truthy_eq_some_iff.mp hargument).2
  | none =>
    cases hgiven : truthy (headers.get? correlationIdHeader) with
    | some given => exact (truthy_eq_some_iff.mp hgiven).2
    | none => exact hgen

end

/-! ## The encoding -/

section

variable {β : Type} (encodeMessage : β → Except PyException (Bytes × Option String))
  (repr : String → String) {body : β} {payload : Bytes} {contentType : Option String}

theorem encodePayload_of_encoder {e : PyException} (henc : encodeMessage body = .error e)
    (headers : Option Dict) (correlationId : Option String) (generated : String) :
    encodePayload encodeMessage repr body headers correlationId generated =
      .error (.encoder e) := by
  unfold encodePayload
  rw [henc]

/-- The second check looks at the headers as given: the first wrote another key. -/
theorem correlationIdConflict_labelled (contentType : Option String) (headers : Dict)
    (correlationId : Option String) :
    correlationIdConflict repr (labelled headers contentType) correlationId =
      correlationIdConflict repr headers correlationId := by
  unfold correlationIdConflict
  rw [get?_labelled_of_ne headers contentType correlationIdHeader_ne]

/-- Two checks of the headers as given, then the envelope. -/
theorem encodePayload_eq (henc : encodeMessage body = .ok (payload, contentType))
    (headers : Option Dict) (correlationId : Option String) (generated : String) :
    encodePayload encodeMessage repr body headers correlationId generated =
      match contentTypeConflict repr (headers.getD ∅) contentType,
        correlationIdConflict repr (headers.getD ∅) correlationId with
      | some e, _ => .error (.raised e)
      | none, some e => .error (.raised e)
      | none, none => .ok (payload,
          enveloped (headers.getD ∅) contentType correlationId generated) := by
  have hgiven := get?_labelled_of_ne (headers.getD ∅) contentType correlationIdHeader_ne
  have hchecked := correlationIdConflict_labelled repr contentType (headers.getD ∅) correlationId
  unfold encodePayload enveloped
  simp only [henc]
  rw [← hgiven, ← hchecked]
  cases contentTypeConflict repr (headers.getD ∅) contentType with
  | some e => rfl
  | none =>
    unfold labelled
    cases truthy contentType with
    | none => cases correlationIdConflict repr (headers.getD ∅) correlationId <;> rfl
    | some contentType =>
      cases correlationIdConflict repr ((headers.getD ∅).set contentTypeHeader contentType)
        correlationId <;> rfl

theorem encodePayload_of_conflict (henc : encodeMessage body = .ok (payload, contentType))
    (headers : Option Dict) {correlationId : Option String}
    (hdiffers : ContentTypeDiffers (headers.getD ∅) contentType ∨
      CorrelationIdDiffers (headers.getD ∅) correlationId) (generated : String) :
    ∃ e, encodePayload encodeMessage repr body headers correlationId generated =
      .error (.raised e) := by
  rw [encodePayload_eq encodeMessage repr henc]
  cases hct : contentTypeConflict repr (headers.getD ∅) contentType with
  | some e => exact ⟨e, rfl⟩
  | none =>
    cases hcid : correlationIdConflict repr (headers.getD ∅) correlationId with
    | some e => exact ⟨e, rfl⟩
    | none =>
      have hnot := (contentTypeConflict_eq_none_iff repr _ _).mp hct
      have hnot' := (correlationIdConflict_eq_none_iff repr _ _).mp hcid
      exact absurd hdiffers (not_or.mpr ⟨hnot, hnot'⟩)

theorem encodePayload_of_agree (henc : encodeMessage body = .ok (payload, contentType))
    (headers : Option Dict) {correlationId : Option String}
    (hct : ¬ContentTypeDiffers (headers.getD ∅) contentType)
    (hcid : ¬CorrelationIdDiffers (headers.getD ∅) correlationId) (generated : String) :
    encodePayload encodeMessage repr body headers correlationId generated =
      .ok (payload, enveloped (headers.getD ∅) contentType correlationId generated) := by
  rw [encodePayload_eq encodeMessage repr henc,
    (contentTypeConflict_eq_none_iff repr _ _).mpr hct,
    (correlationIdConflict_eq_none_iff repr _ _).mpr hcid]

/-- The encoding raises iff the encoder does or a managed header conflicts. -/
theorem encodePayload_error_iff (body : β) (headers : Option Dict)
    (correlationId : Option String) (generated : String) :
    (∃ e, encodePayload encodeMessage repr body headers correlationId generated = .error e) ↔
      (∃ e, encodeMessage body = .error e) ∨
        ∃ payload contentType, encodeMessage body = .ok (payload, contentType) ∧
          (ContentTypeDiffers (headers.getD ∅) contentType ∨
            CorrelationIdDiffers (headers.getD ∅) correlationId) := by
  cases henc : encodeMessage body with
  | error e =>
    rw [encodePayload_of_encoder encodeMessage repr henc]
    simp
  | ok encoded =>
    obtain ⟨payload, contentType⟩ := encoded
    by_cases hdiffers : ContentTypeDiffers (headers.getD ∅) contentType ∨
        CorrelationIdDiffers (headers.getD ∅) correlationId
    · obtain ⟨e, hout⟩ := encodePayload_of_conflict encodeMessage repr henc headers hdiffers
        generated
      exact ⟨fun _ => .inr ⟨payload, contentType, rfl, hdiffers⟩, fun _ => ⟨_, hout⟩⟩
    · obtain ⟨hct, hcid⟩ := not_or.mp hdiffers
      rw [encodePayload_of_agree encodeMessage repr henc headers hct hcid]
      simp [hct, hcid]

/-! ## The objects -/

/-- The statements on the objects compute what `encodePayload` says of their contents, into
    a dict of their own. -/
theorem encodePayloadOn_eq (h : Heap Dict) (body : β) (headers : Option Nat)
    (correlationId : Option String) (generated : String) :
    match encodePayload encodeMessage repr body (headers.bind h.get?) correlationId generated with
    | .error e => (encodePayloadOn encodeMessage repr h body headers correlationId
        generated).1 = .error e
    | .ok (payload, stored) => ∃ ref,
        (encodePayloadOn encodeMessage repr h body headers correlationId generated).1 =
          .ok (payload, ref) ∧
        (encodePayloadOn encodeMessage repr h body headers correlationId generated).2.get? ref =
          some stored := by
  unfold encodePayload encodePayloadOn
  cases encodeMessage body with
  | error e => rfl
  | ok encoded =>
    obtain ⟨payload, contentType⟩ := encoded
    simp only [Heap.get?_new_self, Option.getD_some]
    cases contentTypeConflict repr ((headers.bind h.get?).getD ∅) contentType with
    | some e => rfl
    | none =>
      cases truthy contentType with
      | none =>
        simp only [Heap.get?_new_self, Option.getD_some]
        cases correlationIdConflict repr ((headers.bind h.get?).getD ∅) correlationId with
        | some e => rfl
        | none => exact ⟨_, rfl, by simp⟩
      | some ct =>
        simp only [Heap.get?_modify_self, Heap.get?_new_self, Option.map_some, Option.getD_some]
        cases correlationIdConflict repr
            (((headers.bind h.get?).getD ∅).set contentTypeHeader ct) correlationId with
        | some e => rfl
        | none => exact ⟨_, rfl, by simp⟩

/-- Whatever the outcome, the dicts that were there hold what they held. -/
theorem keeps_encodePayloadOn (h : Heap Dict) (body : β) (headers : Option Nat)
    (correlationId : Option String) (generated : String) :
    h.Keeps (encodePayloadOn encodeMessage repr h body headers correlationId generated).2 := by
  unfold encodePayloadOn
  cases encodeMessage body with
  | error e => exact Heap.Keeps.refl h
  | ok encoded =>
    obtain ⟨payload, contentType⟩ := encoded
    have hnew := h.keeps_new ((headers.bind h.get?).getD ∅)
    have hfresh := h.get?_new_fst ((headers.bind h.get?).getD ∅)
    simp only
    split
    · exact hnew
    · have hlabelled : h.Keeps (match truthy contentType with
          | some contentType =>
            (h.new ((headers.bind h.get?).getD ∅)).2.modify
              (h.new ((headers.bind h.get?).getD ∅)).1
              fun d => d.set contentTypeHeader contentType
          | none => (h.new ((headers.bind h.get?).getD ∅)).2) := by
        split
        · exact hnew.modify hfresh _
        · exact hnew
      split
      · exact hlabelled
      · exact hlabelled.modify hfresh _

end

/-! ## Rows -/

/-- A dict is read back from the headers it is stored as. -/
theorem Headers.toDict_ofDict (d : Dict) : (Headers.ofDict d).toDict = d := by
  unfold Headers.toDict Headers.ofDict
  rw [List.filterMap_map]
  have hentries : (d.entries.filterMap fun entry => some entry) = d.entries :=
    List.filterMap_some
  exact (congrArg PyDict.ofList hentries).trans (PyDict.ofList_entries d)

/-- The row holds the payload and the headers: JSONB keeps every key, but no order. -/
def Row.Stores (row : Row) (payload : Bytes) (headers : Dict) : Prop :=
  row.payload = payload ∧ ∃ stored, row.headers = some stored ∧
    ∀ key, stored.toDict.get? key = headers.get? key

theorem Row.stores_ofDict {row : Row} {payload : Bytes} {headers : Dict}
    (hpayload : row.payload = payload) (hheaders : row.headers = some (Headers.ofDict headers)) :
    row.Stores payload headers :=
  ⟨hpayload, _, hheaders, fun key => by rw [Headers.toDict_ofDict]⟩

theorem get?_parseMessage_headers (stream : StreamMessage) {msg : OutboxInnerMessage}
    {payload : Bytes} {headers : Dict} (hstores : msg.row.Stores payload headers)
    (key : String) : (parseMessage stream msg).headers.get? key = headers.get? key := by
  obtain ⟨-, stored, hstored, hget⟩ := hstores
  simp only [parseMessage, hstored, Option.map_some, Option.getD_some]
  exact hget key

/-- The message reads back what was published: of each managed header the value its
    sources resolve to, and the other headers as given. -/
structure ReadsBack (given : Dict) (contentType correlationId : Option String)
    (generated : String) (payload : Bytes) (message : OutboxMessage) : Prop where
  body : message.body = payload
  contentType : message.contentType = (truthy contentType).or (given.get? contentTypeHeader)
  correlationId : message.correlationId =
    ((truthy correlationId).or (truthy (given.get? correlationIdHeader))).getD generated
  rest : ∀ key, key ∉ envelopeManagedHeaders → message.headers.get? key = given.get? key

theorem parseMessage_readsBack (stream : StreamMessage) {msg : OutboxInnerMessage}
    {payload : Bytes} {given : Dict} {contentType correlationId : Option String}
    {generated : String} (hgen : generated ≠ "")
    (hstores : msg.row.Stores payload (enveloped given contentType correlationId generated)) :
    ReadsBack given contentType correlationId generated payload (parseMessage stream msg) where
  body := hstores.1
  contentType := by
    show (parseMessage stream msg).headers.get? contentTypeHeader = _
    rw [get?_parseMessage_headers stream hstores, get?_enveloped_contentType]
  correlationId := by
    show stream.correlationId
      (((parseMessage stream msg).headers.get? correlationIdHeader).getD _) = _
    rw [get?_parseMessage_headers stream hstores, get?_enveloped_correlationId, Option.getD_some]
    -- what a row stores is not empty, so the constructor keeps it
    exact stream.correlationId_of_ne (enveloped_correlationId_ne given correlationId generated hgen)
  rest := by
    intro key hkey
    rw [get?_parseMessage_headers stream hstores, get?_enveloped_of_not_managed _ _ _ _ hkey]

/-! ## Encoding again -/

section

variable {β : Type} {encodeMessage : β → Except PyException (Bytes × Option String)}
  (repr : String → String) {ofBytes : Bytes → β}

/-- Headers that carry a correlation id are a fixed point, passed along or not. -/
theorem encodePayload_stored (hbytes : ∀ bytes, encodeMessage (ofBytes bytes) = .ok (bytes, none))
    (payload : Bytes) {headers : Dict} {cid : String}
    (hcid : headers.get? correlationIdHeader = some cid) (hne : cid ≠ "")
    {correlationId : Option String} (hsame : correlationId = none ∨ correlationId = some cid)
    (generated : String) :
    encodePayload encodeMessage repr (ofBytes payload) (some headers) correlationId generated =
      .ok (payload, headers) := by
  have hct : ¬ContentTypeDiffers headers none := by
    intro ⟨_, _, _, hnone, _⟩
    cases hnone
  have hagree : ¬CorrelationIdDiffers headers correlationId := by
    intro ⟨given, argument, hgiven, hargument, hdiffers⟩
    rw [hcid] at hgiven
    cases hgiven
    cases hsame with
    | inl hnone => simp [hnone] at hargument
    | inr hsome =>
      rw [hsome] at hargument
      exact hdiffers (Option.some_inj.mp hargument)
  -- the id that is written is the one that is there
  have hkept : ((truthy correlationId).or (truthy (headers.get? correlationIdHeader))).getD
      generated = cid := by
    rw [hcid, truthy_of_ne hne]
    cases hsame with
    | inl hnone => rw [hnone]; rfl
    | inr hsome => rw [hsome, truthy_of_ne hne]; rfl
  rw [encodePayload_of_agree encodeMessage repr (hbytes payload) (some headers) hct hagree]
  show Except.ok (payload, headers.set correlationIdHeader _) = _
  rw [Option.getD_some, hkept, PyDict.set_eq_self hcid]

variable (encodeMessage ofBytes) in
/-- Publishing the message's body again under its headers, with or without its correlation
    id, gives the same payload and headers, in a dict of its own. -/
def Republishes (message : OutboxMessage) : Prop :=
  ∀ correlationId, correlationId = none ∨ correlationId = some message.correlationId →
    ∀ (h : Heap Dict) (ref : Nat) (generated : String), h.get? ref = some message.headers →
      ∃ ref',
        (encodePayloadOn encodeMessage repr h (ofBytes message.body) (some ref) correlationId
          generated).1 = .ok (message.body, ref') ∧
        (encodePayloadOn encodeMessage repr h (ofBytes message.body) (some ref) correlationId
          generated).2.get? ref' = some message.headers

theorem republishes_of_carries
    (hbytes : ∀ bytes, encodeMessage (ofBytes bytes) = .ok (bytes, none))
    {message : OutboxMessage}
    (hcid : message.headers.get? correlationIdHeader = some message.correlationId)
    (hne : message.correlationId ≠ "") : Republishes encodeMessage repr ofBytes message := by
  intro correlationId hsame h ref generated href
  have hstored := encodePayload_stored repr hbytes message.body hcid hne hsame generated
  have hobjects := encodePayloadOn_eq encodeMessage repr h (ofBytes message.body) (some ref)
    correlationId generated
  rw [Option.bind_some, href, hstored] at hobjects
  exact hobjects

/-- **The envelope round trip.** Encoding changes no dict that was there. It raises iff the
    encoder does, or a managed header conflicts with the encoder's content type or with the
    argument. Otherwise a message parsed off a row that holds the result has the resolved
    content type and correlation id and the other headers as given, and republishing it is
    idempotent. -/
theorem envelope_round_trip
    (hbytes : ∀ bytes, encodeMessage (ofBytes bytes) = .ok (bytes, none)) (h : Heap Dict)
    (body : β) (headers : Option Nat) (correlationId : Option String) {generated : String}
    (hgen : generated ≠ "") (stream : StreamMessage) :
    let given := (headers.bind h.get?).getD ∅
    let out := encodePayloadOn encodeMessage repr h body headers correlationId generated
    h.Keeps out.2 ∧
      ((∃ e, out.1 = .error e) ↔
        (∃ e, encodeMessage body = .error e) ∨
          ∃ payload contentType, encodeMessage body = .ok (payload, contentType) ∧
            (ContentTypeDiffers given contentType ∨
              CorrelationIdDiffers given correlationId)) ∧
      ∀ payload ref, out.1 = .ok (payload, ref) →
        ∃ contentType stored, encodeMessage body = .ok (payload, contentType) ∧
          out.2.get? ref = some stored ∧
          ∀ msg : OutboxInnerMessage, msg.row.Stores payload stored →
            ReadsBack given contentType correlationId generated payload
                (parseMessage stream msg) ∧
              Republishes encodeMessage repr ofBytes (parseMessage stream msg) := by
  intro given out
  have hobjects := encodePayloadOn_eq encodeMessage repr h body headers correlationId generated
  have hraises := encodePayload_error_iff encodeMessage repr body (headers.bind h.get?)
    correlationId generated
  refine ⟨keeps_encodePayloadOn encodeMessage repr h body headers correlationId generated,
    ?_, ?_⟩
  · rw [← hraises]
    cases hout : encodePayload encodeMessage repr body (headers.bind h.get?) correlationId
        generated with
    | error e =>
      rw [hout] at hobjects
      exact ⟨fun _ => ⟨e, rfl⟩, fun _ => ⟨e, hobjects⟩⟩
    | ok encoded =>
      rw [hout] at hobjects
      obtain ⟨ref, hok, -⟩ := hobjects
      simp [out, hok]
  · intro payload ref hok
    cases hout : encodePayload encodeMessage repr body (headers.bind h.get?) correlationId
        generated with
    | error e =>
      rw [hout] at hobjects
      have herror : out.1 = .error e := hobjects
      rw [hok] at herror
      cases herror
    | ok encoded =>
      obtain ⟨payload', stored⟩ := encoded
      rw [hout] at hobjects
      obtain ⟨ref', hok', hstored⟩ := hobjects
      have hsame : Except.ok (payload, ref) = Except.ok (payload', ref') := hok.symm.trans hok'
      cases hsame
      -- nothing raised, so nothing conflicts
      have hquiet : ¬∃ e, encodePayload encodeMessage repr body (headers.bind h.get?)
          correlationId generated = .error e := by
        rw [hout]
        simp
      rw [hraises, not_or] at hquiet
      cases henc : encodeMessage body with
      | error e => exact absurd ⟨e, henc⟩ hquiet.1
      | ok result =>
        obtain ⟨payload', contentType⟩ := result
        have hagree : ¬ContentTypeDiffers given contentType ∧
            ¬CorrelationIdDiffers given correlationId :=
          not_or.mp fun hdiffers => hquiet.2 ⟨payload', contentType, henc, hdiffers⟩
        rw [encodePayload_of_agree encodeMessage repr henc _ hagree.1 hagree.2] at hout
        cases hout
        refine ⟨contentType, _, rfl, hstored, fun msg hstores => ?_⟩
        have hreads := parseMessage_readsBack stream hgen hstores
        refine ⟨hreads, republishes_of_carries repr hbytes ?_ ?_⟩
        · rw [get?_parseMessage_headers stream hstores, get?_enveloped_correlationId,
            hreads.correlationId]
        · rw [hreads.correlationId]
          exact enveloped_correlationId_ne given correlationId generated hgen

end

/-- A body: nothing, bytes, a text with its UTF-8 bytes, or a value with its JSON. -/
inductive Body where
  | empty
  | bytes (b : Bytes)
  | text (utf8 : Bytes)
  | json (dumped : Bytes)
deriving DecidableEq, Repr

/-- `encode_message` on these. -/
def Body.encodeMessage : Body → Except PyException (Bytes × Option String)
  | .empty => .ok ([], none)
  | .bytes b => .ok (b, none)
  | .text utf8 => .ok (utf8, some "text/plain")
  | .json dumped => .ok (dumped, some "application/json")

/-- `repr` of a text without quotes or escapes. -/
def quoted (s : String) : String := "'" ++ s ++ "'"

/-- The constructor, where it draws the id `drawn`. -/
def drawingStream : StreamMessage where
  correlationId given := if given = "" then "drawn" else given
  correlationId_of_ne h := if_neg h
  correlationId_ne given := by
    split
    · decide
    · assumption

/-- A caller's headers. -/
def tenantHeaders : Heap Dict := ⟨[PyDict.ofList [("x-tenant", "acme")]]⟩

/-- `{}` as JSON: the follow-on dict is a new object, and the row reads back as published. -/
theorem envelope_round_trip_tenantHeaders :
    let out := encodePayloadOn Body.encodeMessage quoted tenantHeaders (.json [123, 125]) (some 0)
      none "c-1"
    ∃ stored, out.2.get? 1 = some stored ∧ tenantHeaders.Keeps out.2 ∧
      ∀ msg : OutboxInnerMessage, msg.row.Stores [123, 125] stored →
        (parseMessage drawingStream msg).contentType = some "application/json" ∧
          (parseMessage drawingStream msg).correlationId = "c-1" ∧
          (parseMessage drawingStream msg).headers.get? "x-tenant" = some "acme" := by
  intro out
  have hbytes : ∀ b, Body.encodeMessage (Body.bytes b) = .ok (b, none) := fun _ => rfl
  have hgen : "c-1" ≠ "" := by decide
  obtain ⟨hkeeps, -, hparsed⟩ := envelope_round_trip quoted hbytes tenantHeaders
    (Body.json [123, 125]) (some 0) none hgen drawingStream
  obtain ⟨contentType, stored, henc, hstored, hall⟩ := hparsed [123, 125] 1 rfl
  refine ⟨stored, hstored, hkeeps, fun msg hstores => ?_⟩
  cases henc
  obtain ⟨hreads, -⟩ := hall msg hstores
  refine ⟨hreads.contentType.trans ?_, hreads.correlationId.trans ?_,
    (hreads.rest "x-tenant" (by decide)).trans ?_⟩
  · decide
  · decide
  · decide

end Outbox
