import Outbox.Spec.SubscriberSteps
import Outbox.Spec.WorkerLedger

/-!
# Workers keep their books

One lemma for each function a worker runs between two awaits, each a sequence of the moves
of `WorkerLedger`, and from them the step of a worker.

## Key results

- `Worker.step_sound`: a step of a worker keeps the books, and leaves a justified statement
-/

namespace Outbox

open List

/-- The statement of a `WriteKind`. -/
def WriteKind.stmt (cfg : SubscriberConfig) (m : OutboxInnerMessage) (token : UUID) :
    WriteKind → Stmt
  | .terminal _ _ payload => .deleteWithLease m token cfg.dlqTable payload
  | .retry _ delay => .markPendingWithLease m token delay

/-- The event and the tags of a `WriteKind`. -/
def WriteKind.metric : WriteKind → Event × Tags
  | .terminal event tags _ => (event, tags)
  | .retry tags _ => (.nackedRetried, tags)

/-- What the locals of a suspended worker look like. -/
def WorkerPc.Legit (known : Row → Prop) (cfg : SubscriberConfig) : WorkerPc → Prop
  | .consuming m _ => m.Claimed known ∧ m.Admitted cfg ∧ m.Untouched
  | .writing m token kind _ =>
    (kind.stmt cfg m token).Justified known cfg ∧ kind.metric.1.Closing ∧
      kind.metric.2.durationSeconds = m.handlerDurationSeconds
  | _ => True

/-- The claims a statement writes. -/
def Stmt.keys : Stmt → List ClaimKey
  | .fetch _ _ _ _ => []
  | .deleteWithLease m _ _ _ => [m.key]
  | .markPendingWithLease m _ _ => [m.key]
  | .deleteBatchWithLease pending => pending.map fun p => p.row.key

/-- The claims of the statement a worker has issued. -/
def WorkerPc.carried (buffer : List PendingFlush) : WorkerPc → List ClaimKey
  | .writing m _ _ _ => [m.key]
  | .flushing _ _ => buffer.map fun p => p.row.key
  | _ => []

/-- How many writes of the claim were issued. -/
def writes (c : ClaimKey) (log : List Note) : Nat :=
  marks .writeIssued c log + marks .batchIssued c log

/-- A longer log tells of no fewer writes. -/
theorem writes_le_append (c : ClaimKey) (log notes : List Note) :
    writes c log ≤ writes c (log ++ notes) := by
  simp only [writes, marks_append]
  omega

/-- A stretch that ends at an await with the books kept. -/
structure Sound (known : Row → Prop) (cfg : SubscriberConfig) (L : Ledger)
    (out : Frame × WorkerPc) : Prop where
  books : Books known cfg L out.1 out.2.hold
  legit : out.2.Legit known cfg
  issued : ∀ c, tally some c (out.2.carried out.1.buffer) ≤ writes c (L.log ++ out.1.notes)

namespace Worker

variable {known : Row → Prop} {cfg : SubscriberConfig} {L : Ledger} {f : Frame}

/-! ## Leaving -/

/-- An await with nothing in hand and nothing issued. -/
theorem sound_of_out {pc : WorkerPc} (b : Books known cfg L f .out) (hhold : pc.hold = .out)
    (hlegit : pc.Legit known cfg) (hcarried : pc.carried f.buffer = []) :
    Sound known cfg L (f, pc) where
  books := by
    show Books known cfg L f pc.hold
    rw [hhold]
    exact b
  legit := hlegit
  issued c := by
    show tally some c (pc.carried f.buffer) ≤ _
    rw [hcarried]
    exact Nat.zero_le _

theorem afterClose_sound (b : Books known cfg L f .out) (why : Exit) :
    Sound known cfg L (f, afterClose why) := by
  cases why <;> exact sound_of_out b rfl trivial rfl

theorem leave_sound (b : Books known cfg L f .out) (why : Exit) :
    Sound known cfg L (leave cfg f why) := by
  unfold leave
  split
  · exact sound_of_out b rfl trivial rfl
  · exact afterClose_sound b why

/-- What follows a flush finds an empty buffer. -/
theorem resume_sound (b : Books known cfg L f .out) (next : AfterFlush) :
    Sound known cfg L (resume cfg f next) := by
  cases next with
  | get => exact sound_of_out b rfl trivial rfl
  | stale => exact sound_of_out b rfl trivial rfl
  | exit why => exact leave_sound b why
  | loop =>
    exact ⟨b.back, trivial, fun c => Nat.zero_le _⟩

theorem flushBuffer_sound (b : Books known cfg L f .idle) (next : AfterFlush) :
    Sound known cfg L (flushBuffer cfg f next) := by
  unfold flushBuffer
  split
  · rename_i hempty
    have hbuffer : f.buffer = [] := isEmpty_iff.mp hempty
    exact resume_sound (b.free hbuffer (.inr (.inl rfl)) (.inl rfl)) next
  · refine ⟨b.batchIssued, trivial, fun c => ?_⟩
    show tally some c (f.buffer.map fun p => p.row.key) ≤
      writes c (L.log ++ (f.notes ++ f.buffer.map fun p => .batchIssued p.row.key))
    have hnew : marks .batchIssued c (f.buffer.map fun p => .batchIssued p.row.key) =
        tally (fun p => some p.row.key) c f.buffer := tally_map _ _ _ _
    simp only [writes, marks_append, hnew, tally_map]
    omega

theorem unwind_sound (b : Books known cfg L f .idle) (why : Exit) :
    Sound known cfg L (unwind cfg f why) :=
  flushBuffer_sound b (.exit why)

/-! ## Metrics of a claim in hand -/

/-- A closing event with the duration of the message closes its `dispatched`, if it has one. -/
theorem close_books {m : OutboxInnerMessage} {isSealed : Bool}
    (b : Books known cfg L f (.busy m.key m.handlerDurationSeconds.isSome isSealed))
    {event : Event} {tags : Tags} (hevent : event.Closing)
    (hduration : tags.durationSeconds = m.handlerDurationSeconds) :
    Books known cfg L (f.emitMetric m event tags) (.busy m.key false isSealed) := by
  have hne : event ≠ .dispatched := by
    intro h
    simp [h, Event.Closing] at hevent
  cases hd : m.handlerDurationSeconds with
  | none =>
    rw [hd] at b
    exact b.metric (by simp) hne (hduration.trans hd)
  | some duration =>
    rw [hd] at b
    exact b.closed hevent (by rw [hduration, hd]; rfl)

theorem abandon_books {m : OutboxInnerMessage} {isSealed : Bool}
    (b : Books known cfg L f (.busy m.key m.handlerDurationSeconds.isSome isSealed)) :
    Books known cfg L (f.emitDispatchAbandoned cfg m) (.busy m.key false isSealed) := by
  unfold Frame.emitDispatchAbandoned
  split
  · rename_i hd
    rw [hd] at b
    exact b
  · rename_i duration hd
    exact close_books b (by simp [Event.Closing]) hd.symm

theorem leaseLost_books {m : OutboxInnerMessage} {isSealed : Bool}
    (b : Books known cfg L f (.busy m.key m.handlerDurationSeconds.isSome isSealed))
    (phase : Phase) :
    Books known cfg L (f.emitLeaseLost cfg m phase) (.busy m.key false isSealed) :=
  close_books b (by simp [Event.Closing]) rfl

/-! ## Flushing the buffer -/

theorem closePending_books {p : PendingFlush} {rest : List PendingFlush}
    (b : Books known cfg L { f with buffer := p :: rest } .flushing)
    (deleted : Finset (Nat × UUID)) :
    Books known cfg L { closePending cfg deleted f p with buffer := rest } .flushing := by
  have hp := b.buffer p mem_cons_self
  unfold closePending
  dsimp only
  split
  · have hevent : p.event.Closing := by
      obtain h | h := hp.tagged.event <;> rw [h] <;> simp [Event.Closing]
    exact b.pendingDone hevent hp.tagged.duration
  · exact b.pendingDone (by simp [Event.Closing]) rfl

theorem flushed_books {buffer : List PendingFlush}
    (b : Books known cfg L { f with buffer := buffer } .flushing)
    (deleted : Finset (Nat × UUID)) :
    Books known cfg L { buffer.foldl (closePending cfg deleted) f with buffer := [] }
      .flushing := by
  induction buffer generalizing f with
  | nil => exact b
  | cons p rest ih => exact ih (closePending_books b deleted)

theorem flushed_sound (b : Books known cfg L f .flushing) (deleted : Finset (Nat × UUID))
    (next : AfterFlush) : Sound known cfg L (flushed cfg f deleted next) :=
  resume_sound ((flushed_books b deleted).free rfl (.inr (.inr rfl)) (.inl rfl)) next

theorem abandonPending_books {p : PendingFlush} {rest : List PendingFlush}
    (b : Books known cfg L { f with buffer := p :: rest } .flushing) :
    Books known cfg L { (f.emitDispatchAbandoned cfg p.row).taskDone with buffer := rest }
      .flushing := by
  unfold Frame.emitDispatchAbandoned
  split
  · rename_i hd
    exact b.pendingSkipped hd
  · rename_i duration hd
    exact b.pendingDone (by simp [Event.Closing]) hd.symm

theorem abandoned_books {buffer : List PendingFlush}
    (b : Books known cfg L { f with buffer := buffer } .flushing) :
    Books known cfg L
      { buffer.foldl (fun f p => (f.emitDispatchAbandoned cfg p.row).taskDone) f with
        buffer := [] } .flushing := by
  induction buffer generalizing f with
  | nil => exact b
  | cons p rest ih => exact ih (abandonPending_books b)

theorem flushRaised_sound (b : Books known cfg L f .flushing) (next : AfterFlush) (why : Exit) :
    Sound known cfg L (flushRaised cfg f next why) := by
  have hout := (abandoned_books b).free rfl (.inr (.inr rfl)) (.inl rfl)
  have hidle := (abandoned_books b).free rfl (.inr (.inr rfl)) (.inr (.inl rfl))
  unfold flushRaised
  split
  · exact leave_sound hout _
  · exact unwind_sound hidle why

/-! ## Dispatching -/

/-- After a dispatch, the buffer is flushed if it is due. -/
theorem flushIfDue_sound (b : Books known cfg L f .idle) (due : Bool) :
    Sound known cfg L (if due then flushBuffer cfg f .loop else (f, .loop)) := by
  split
  · exact flushBuffer_sound b .loop
  · exact ⟨b, trivial, fun c => Nat.zero_le _⟩

theorem afterDispatch_inline {m : OutboxInnerMessage} {isSealed : Bool}
    (b : Books known cfg L f (.busy m.key false isSealed)) (r : Reading) :
    Sound known cfg L (afterDispatch cfg r f m false) :=
  flushIfDue_sound b.ended _

theorem afterDispatch_buffered {m : OutboxInnerMessage} {event : Event} {tags : Tags}
    (b : Books known cfg L f (.busy m.key m.handlerDurationSeconds.isSome false))
    (hp : Batchable known cfg { row := m, event := event, tags := tags }) (r : Reading) :
    Sound known cfg L (afterDispatch cfg r
      { f with buffer := f.buffer ++ [{ row := m, event := event, tags := tags }] } m true) :=
  flushIfDue_sound (Books.buffered (p := { row := m, event := event, tags := tags }) b hp) _

theorem dispatchRaised_sound {m : OutboxInnerMessage} {isSealed : Bool}
    (b : Books known cfg L f (.busy m.key false isSealed)) (why : Exit) :
    Sound known cfg L (dispatchRaised cfg f m why) :=
  unwind_sound b.ended why

theorem writeRaised_sound {m : OutboxInnerMessage} {isSealed : Bool}
    (b : Books known cfg L f (.busy m.key m.handlerDurationSeconds.isSome isSealed))
    (r : Reading) : Sound known cfg L (writeRaised cfg r f m) := by
  unfold writeRaised
  dsimp only
  split
  · exact dispatchRaised_sound (abandon_books b) .error
  · exact afterDispatch_inline (abandon_books b) r

/-- A worker that issues the write of its claim. -/
theorem writing_sound {m : OutboxInnerMessage} {token : UUID} {kind : WriteKind}
    (b : Books known cfg L f (.busy m.key m.handlerDurationSeconds.isSome false))
    (hstmt : (kind.stmt cfg m token).Justified known cfg) (hevent : kind.metric.1.Closing)
    (hduration : kind.metric.2.durationSeconds = m.handlerDurationSeconds) :
    Sound known cfg L (f.note (.writeIssued m.key), .writing m token kind none) where
  books := b.sealed (.inl rfl)
  legit := ⟨hstmt, hevent, hduration⟩
  issued c := by
    show hit (some m.key) c + 0 ≤ writes c (L.log ++ (f.notes ++ [.writeIssued m.key]))
    simp only [writes, marks_append, marks_cons, Note.mark]
    omega

theorem flushOrBuffer_sound {m : OutboxInnerMessage} {event : Event} {tags : Tags}
    (b : Books known cfg L f (.busy m.key m.handlerDurationSeconds.isSome false))
    (hclaimed : m.Claimed known) (hsettled : m.Settled cfg) (hdeletes : m.Deletes)
    (htagged : Tagged m event tags) (r : Reading) (useBuffer : Bool) :
    Sound known cfg L (flushOrBuffer cfg r f m event tags useBuffer) := by
  unfold flushOrBuffer
  split
  · rename_i hbatch
    have hunarchived : terminalHasDlq cfg m = false := by
      simp only [Bool.and_eq_true, Bool.not_eq_true'] at hbatch
      exact hbatch.2
    exact afterDispatch_buffered b ⟨hclaimed, hsettled, hdeletes, hunarchived, htagged⟩ r
  · split
    · -- a claimed row has a token
      rename_i hnone
      have hleased := hclaimed.leased
      rw [hnone] at hleased
      cases hleased
    · rename_i token htoken
      split
      · exact writeRaised_sound b r
      · rename_i payload hpayload
        have hevent : event.Closing := by
          obtain h | h := htagged.event <;> rw [h] <;> simp [Event.Closing]
        exact writing_sound b ⟨hclaimed, htoken, hsettled, hdeletes, rfl, hpayload⟩ hevent
          htagged.duration

theorem writeOutcome_sound {m : OutboxInnerMessage} (b : Books known cfg L f
      (.busy m.key true false)) (hduration : m.handlerDurationSeconds.isSome)
    (hclaimed : m.Claimed known) (hrecorded : m.Recorded cfg) (r : Reading) (useBuffer : Bool) :
    Sound known cfg L (writeOutcome cfg r f m useBuffer) := by
  unfold writeOutcome
  split
  · -- the shutdown race
    have hsealed := b.sealed (n := .leftToLease m.key) (.inr rfl)
    rw [← hduration] at hsealed
    exact afterDispatch_inline (abandon_books hsealed) r
  · obtain ⟨hadmitted, hattempted, hrow, hkept⟩ := assertStateSet_recorded hrecorded r
    dsimp only
    generalize m.assertStateSet r = m' at hadmitted hattempted hrow hkept
    have hkey : m'.key = m.key := by simp only [OutboxInnerMessage.key, hrow]
    have hclaimed' : m'.Claimed known := by
      refine ⟨?_, ?_⟩
      · rw [hrow]; exact hclaimed.known
      · rw [hrow]; exact hclaimed.leased
    have b' : Books known cfg L f
        (.busy m'.key m'.handlerDurationSeconds.isSome false) := by
      rw [hkey, hkept, hduration]
      exact b
    split
    · rename_i reason hout
      exact flushOrBuffer_sound b' hclaimed' (.inl ⟨hadmitted, hattempted⟩)
        (.inr ⟨reason, hout⟩) ⟨.inr rfl, rfl⟩ r useBuffer
    · rename_i delay hout
      split
      · rename_i hnone
        have hleased := hclaimed'.leased
        rw [hnone] at hleased
        cases hleased
      · rename_i token htoken
        exact writing_sound b' ⟨hclaimed', htoken, hadmitted, hattempted, hout⟩
          (.inr (.inl rfl)) rfl
    · -- neither terminal nor a retry: an ack
      rename_i hterminal hretry
      have hack : m'.outcome = some .ack := by
        obtain ⟨o, ho, _⟩ := hattempted.outcome
        cases o with
        | ack => exact ho
        | retry delay => exact absurd ho (hretry delay)
        | terminal reason => exact absurd ho (hterminal reason)
      exact flushOrBuffer_sound b' hclaimed' (.inl ⟨hadmitted, hattempted⟩) (.inl hack)
        ⟨.inl rfl, rfl⟩ r useBuffer

/-- `allow_delivery` on a message off the queue: capped, or admitted as it is. -/
theorem allowDelivery_spec {m m' : OutboxInnerMessage} (hfresh : m.Fresh) {allowed : Bool}
    (h : OutboxInnerMessage.allowDelivery { m with retryStrategy := cfg.retryStrategy }
      cfg.maxDeliveries = (allowed, m')) :
    (allowed = false ∧ m'.Capped cfg ∨ allowed = true ∧ m'.Admitted cfg ∧ m'.Untouched) ∧
    m'.row = m.row ∧ m'.handlerDurationSeconds = none := by
  unfold OutboxInnerMessage.allowDelivery at h
  split at h
  · rename_i hcap
    obtain ⟨rfl, rfl⟩ := Prod.mk.inj h
    cases hmax : cfg.maxDeliveries with
    | none => simp [hmax] at hcap
    | some cap =>
      have hlt : cap < m.row.deliveriesCount := by simpa [hmax] using hcap
      exact ⟨.inl ⟨rfl, hfresh.attempts, rfl, hfresh.exception, hfresh.duration, cap, hmax, hlt⟩,
        rfl, hfresh.duration⟩
  · rename_i hcap
    obtain ⟨rfl, rfl⟩ := Prod.mk.inj h
    refine ⟨.inr ⟨rfl, ⟨rfl, fun cap hmax => ?_⟩,
      hfresh.attempts, hfresh.first, hfresh.last, hfresh.outcome⟩, rfl, hfresh.duration⟩
    simpa [hmax] using hcap

theorem dispatchOne_sound {m : OutboxInnerMessage} (b : Books known cfg L f (.taken m.key))
    (hclaimed : m.Claimed known) (hfresh : m.Fresh) (r : Reading) :
    Sound known cfg L (dispatchOne cfg r f m) := by
  unfold dispatchOne
  dsimp only
  cases hallow : OutboxInnerMessage.allowDelivery { m with retryStrategy := cfg.retryStrategy }
    cfg.maxDeliveries with
  | mk allowed m' =>
  obtain ⟨hcases, hrow, hduration⟩ := allowDelivery_spec hfresh hallow
  have hkey : m'.key = m.key := by simp only [OutboxInnerMessage.key, hrow]
  have hclaimed' : m'.Claimed known :=
    ⟨by rw [hrow]; exact hclaimed.known, by rw [hrow]; exact hclaimed.leased⟩
  have b' : Books known cfg L f (.taken m'.key) := by
    rw [hkey]
    exact b
  obtain ⟨rfl, hcapped⟩ | ⟨rfl, hadmitted, huntouched⟩ := hcases
  · -- past the cap: a terminal delete without a `dispatched`
    have hover : Books known cfg L (f.note (.capped m'))
        (.busy m'.key m'.handlerDurationSeconds.isSome false) := by
      rw [hduration]
      exact b'.overCap rfl hclaimed' hcapped
    exact flushOrBuffer_sound hover hclaimed' (.inr hcapped) (.inr ⟨_, hcapped.outcome⟩)
      ⟨.inr rfl, hduration.symm⟩ r true
  · simp only [Bool.not_true, Bool.false_eq_true, if_false]
    split
    · exact ⟨b'.invoking rfl rfl hclaimed' hadmitted, ⟨hclaimed', hadmitted, huntouched⟩,
        fun c => Nat.zero_le _⟩
    · -- consume() returned at once, with nothing recorded
      have hopen := b'.dispatched
        { baseTags cfg m.row.queue with
          deliveriesCount := some m.row.deliveriesCount
          sizeBytes := some m'.row.payload.length } rfl
      exact writeOutcome_sound (m := { m' with handlerDurationSeconds := some 0 }) hopen rfl
        ⟨hclaimed'.known, hclaimed'.leased⟩
        ⟨⟨hadmitted.strategy, hadmitted.cap⟩,
          .inl ⟨huntouched.attempts, huntouched.first, huntouched.last, huntouched.outcome⟩⟩ r true

theorem handle_sound {m : OutboxInnerMessage} (b : Books known cfg L f (.taken m.key))
    (hm : m.Claimed known ∧ m.Fresh) (hroom : L.shared.inflight.length ≤ cfg.fetchBatchSize)
    (r : Reading) (generation : Nat) : Sound known cfg L (handle cfg r generation f m) := by
  unfold handle
  split
  · exact flushBuffer_sound (b.putBack hroom hm) .stale
  · exact dispatchOne_sound b.signalled hm.1 hm.2 r

theorem consumeEnded_sound {m : OutboxInnerMessage} {startPerf : Int}
    (b : Books known cfg L f (.busy m.key true false))
    (hlegit : (WorkerPc.consuming m startPerf).Legit known cfg) {how : ConsumeEnd}
    (hmay : how = .cancelledError → f.notes = [] ∧ 0 < L.interrupts)
    (acts : List HandlerAct) (r : Reading) :
    Sound known cfg L (consumeEnded cfg how acts r f m startPerf) := by
  obtain ⟨hclaimed, hadmitted, huntouched⟩ := hlegit
  obtain ⟨hrecorded, hrow⟩ :=
    HandlerAct.foldl_recorded (m := m) acts ⟨hadmitted, .inl huntouched⟩
  unfold consumeEnded
  dsimp only
  generalize acts.foldl (fun m a => a.run m) m = m' at hrecorded hrow
  -- the handler does not touch the row, so the claim is the same
  have hkey : m'.key = m.key := by simp only [OutboxInnerMessage.key, hrow]
  rw [← hkey] at b
  have hclaimed' : m'.Claimed known :=
    ⟨by rw [hrow]; exact hclaimed.known, by rw [hrow]; exact hclaimed.leased⟩
  -- the measured duration changes nothing else
  have htimed : ∀ duration, OutboxInnerMessage.Recorded cfg
      { m' with handlerDurationSeconds := some duration } := by
    intro duration
    refine ⟨⟨hrecorded.1.strategy, hrecorded.1.cap⟩, ?_⟩
    cases hrecorded.2 with
    | inl hun => exact .inl ⟨hun.attempts, hun.first, hun.last, hun.outcome⟩
    | inr hat => exact .inr ⟨hat.attempts, hat.outcome, hat.stamped, hat.granted⟩
  have hwrite : ∀ duration useBuffer, Sound known cfg L
      (writeOutcome cfg r f { m' with handlerDurationSeconds := some duration } useBuffer) :=
    fun duration useBuffer => writeOutcome_sound
      (m := { m' with handlerDurationSeconds := some duration }) b rfl
      ⟨hclaimed'.known, hclaimed'.leased⟩ (htimed duration) r useBuffer
  cases how with
  | returned => exact hwrite _ true
  | stopConsume => exact hwrite _ true
  | configError => exact hwrite _ false
  | exception =>
    -- the claim is given up to its lease
    have hsealed := b.sealed (n := .leftToLease m'.key) (.inr rfl)
    exact afterDispatch_inline
      (abandon_books (m := { m' with handlerDurationSeconds := some _ }) hsealed) r
  | cancelledError =>
    obtain ⟨hnotes, hpos⟩ := hmay rfl
    exact dispatchRaised_sound (b.interrupted hnotes hpos) .cancelled

theorem writeReplied_sound {m : OutboxInnerMessage} {token : UUID} {kind : WriteKind}
    {stale : Option Reply}
    (b : Books known cfg L f (.busy m.key m.handlerDurationSeconds.isSome true))
    (hlegit : (WorkerPc.writing m token kind stale).Legit known cfg) {r : Reading} {reply : Reply}
    {out : Frame × WorkerPc} (h : writeReplied cfg r f m kind reply = some out) :
    Sound known cfg L out := by
  obtain ⟨hstmt, hevent, hduration⟩ := hlegit
  unfold writeReplied at h
  split at h
  · rename_i event tags payload
    obtain rfl := Option.some_inj.mp h
    -- `dlq_written` comes first, and carries no duration
    have b' : Books known cfg L (if payload.isSome then
        f.emitMetric m .dlqWritten
          (withExceptionType
            { baseTags cfg m.row.queue with
              deliveriesCount := some m.row.deliveriesCount
              failureReason := m.terminalFailureReason } m)
        else f) (.busy m.key m.handlerDurationSeconds.isSome true) := by
      split
      · exact b.metric (by simp) (by simp) rfl
      · exact b
    exact afterDispatch_inline (close_books b' hevent hduration) r
  · obtain rfl := Option.some_inj.mp h
    exact afterDispatch_inline (leaseLost_books b .terminal) r
  · obtain rfl := Option.some_inj.mp h
    exact writeRaised_sound b r
  · obtain rfl := Option.some_inj.mp h
    exact afterDispatch_inline (close_books b hevent hduration) r
  · obtain rfl := Option.some_inj.mp h
    exact afterDispatch_inline (leaseLost_books b .retry) r
  · cases h

/-! ## Steps -/

theorem cancelAt_sound {pc : WorkerPc} (b : Books known cfg L f pc.hold)
    (hpc : ∀ m startPerf, pc ≠ .consuming m startPerf) :
    Sound known cfg L (cancelAt cfg f pc) := by
  have hunwind : ∀ {g : Frame}, Books known cfg L g .out →
      Sound known cfg L (unwind cfg g .cancelled) := fun b => unwind_sound b.back .cancelled
  cases pc with
  | loop => exact unwind_sound b .cancelled
  | getting => exact hunwind b
  | invalidating => exact hunwind b
  | writing m token kind reply => exact dispatchRaised_sound (abandon_books b) .cancelled
  | flushing next reply => exact flushRaised_sound b next .cancelled
  | consuming m startPerf => exact absurd rfl (hpc m startPerf)
  | _ => exact sound_of_out b rfl trivial rfl

/-- The statement a worker awaits is justified, and writes the claims it has issued. -/
theorem pending_justified {w : Worker} (hbuffer : ∀ p ∈ w.buffer, Batchable known cfg p)
    (hlegit : w.pc.Legit known cfg) {stmt : Stmt} (h : w.pending cfg = some stmt) :
    stmt.Justified known cfg ∧ stmt.keys = w.pc.carried w.buffer := by
  unfold pending at h
  split at h
  · rename_i m token event tags payload hpc
    rw [hpc] at hlegit ⊢
    obtain rfl := Option.some_inj.mp h
    exact ⟨hlegit.1, rfl⟩
  · rename_i m token tags delay hpc
    rw [hpc] at hlegit ⊢
    obtain rfl := Option.some_inj.mp h
    exact ⟨hlegit.1, rfl⟩
  · rename_i next hpc
    rw [hpc]
    obtain rfl := Option.some_inj.mp h
    exact ⟨hbuffer, rfl⟩
  · cases h

/-- How many `consume()` calls the act ends by `CancelledError`. -/
def interrupts : WorkerAct → Nat
  | .consumed .cancelledError _ _ _ => 1
  | _ => 0

/-- **A step of a worker keeps the books.** -/
theorem step_sound {w : Worker}
    (b : Books known cfg L { shared := L.shared, buffer := w.buffer } w.pc.hold)
    (hlegit : w.pc.Legit known cfg) (hroom : L.shared.inflight.length ≤ cfg.fetchBatchSize)
    {act : WorkerAct} (hmay : interrupts act ≤ L.interrupts) {out : StepOut}
    (h : step cfg L.shared w act = some out) :
    Sound known cfg L (out.frame, out.pc) := by
  cases step_stepped h with
  | connects hpc _ | ends hpc _ | openFailed hpc | closeFailed hpc | retries hpc =>
    rw [hpc] at b
    exact sound_of_out b rfl trivial rfl
  | enters hpc _ | opened hpc =>
    rw [hpc] at b
    exact ⟨b.back, trivial, fun c => Nat.zero_le _⟩
  | stops hpc _ =>
    rw [hpc] at b
    exact unwind_sound b .normal
  | idles hpc _ =>
    rw [hpc] at b
    exact flushBuffer_sound b .get
  | @took _ m _ hpc hqueue =>
    rw [hpc] at b
    exact handle_sound (b.take hqueue) (b.queue m (hqueue ▸ mem_cons_self)) hroom _ _
  | @awaited _ m _ hpc hqueue =>
    rw [hpc] at b
    exact handle_sound (b.back.take hqueue) (b.queue m (hqueue ▸ mem_cons_self)) hroom _ _
  | consumed hpc =>
    rw [hpc] at b hlegit
    refine consumeEnded_sound b hlegit (fun hhow => ⟨rfl, ?_⟩) _ _
    subst hhow
    exact hmay
  | wrote hpc hnext =>
    rw [hpc] at b hlegit
    exact writeReplied_sound b hlegit hnext
  | writeFailed hpc =>
    rw [hpc] at b
    exact writeRaised_sound b _
  -- the batch is in the buffer until its reply is handled
  | @deleted _ next pairs hpc =>
    rw [hpc] at b
    exact flushed_sound b pairs next
  | @flushFailed _ next _ hpc =>
    rw [hpc] at b
    exact flushRaised_sound b next .error
  | invalidated hpc =>
    rw [hpc] at b
    exact unwind_sound b.back .stale
  | invalidateFailed hpc =>
    rw [hpc] at b
    exact unwind_sound b.back .error
  | @closed why hpc =>
    rw [hpc] at b
    exact afterClose_sound b why
  | cancelled hconsuming _ _ => exact cancelAt_sound b hconsuming

/-- A step abandons no statement but the one the worker awaits. -/
theorem step_orphan {sh : Shared} {w : Worker} {act : WorkerAct} {out : StepOut}
    (h : step cfg sh w act = some out) {stmt : Stmt} (horphan : out.orphan = some stmt) :
    w.pending cfg = some stmt := by
  cases step_stepped h with
  | writeFailed _ | flushFailed _ | cancelled _ _ _ => exact horphan
  | _ => cases horphan

end Worker

end Outbox
