import Outbox.ForStd.Tally
import Outbox.Spec.Messages

/-!
# The books of a worker

Every claim a fetch returned is somewhere: on the in-flight queue, in a worker's hand, in
its buffer, or done with. `Books` states this for one worker in the middle of a stretch of
code, the other workers' shares being a fixed part of the ledger: what each claim has been
through (counted in the log), what the unfinished count of the queue is made of, which
`dispatched` is open, and what the messages on the way look like.

This module has the moves the code is made of, one lemma a move. Each of them changes the
log, the hold and the buffer in one way, and keeps the books.

## Key results

- `Books`: the invariant
- `Books.ended`, `Books.buffered`, `Books.closed`, ...: the moves
-/

namespace Outbox

open List

/-! ## The log -/

/-- What the log can say about a claim. -/
inductive Mark where
  | returned
  | dispatched
  | capped
  | invoked
  /-- An event with `duration_seconds`. -/
  | closed
  | interrupted
  | leftToLease
  | writeIssued
  | ended
  | buffered
  | batchIssued
  | discarded

/-- The claim for which a note says so. -/
def Note.mark (mk : Mark) (n : Note) : Option ClaimKey :=
  match mk, n with
  | .returned, .returned key => some key
  | .dispatched, .metric key event _ => if event = .dispatched then key else none
  | .capped, .capped m => some m.key
  | .invoked, .invoked m => some m.key
  | .closed, .metric key _ tags => if tags.durationSeconds.isSome then key else none
  | .interrupted, .interrupted key => some key
  | .leftToLease, .leftToLease key => some key
  | .writeIssued, .writeIssued key => some key
  | .ended, .ended key => some key
  | .buffered, .buffered key => some key
  | .batchIssued, .batchIssued key => some key
  | .discarded, .discarded key => some key
  | _, _ => none

/-- A metric that is about no claim says nothing of one. -/
@[simp] theorem Note.mark_metric_none (event : Event) (tags : Tags) (mk : Mark) :
    (Note.metric none event tags).mark mk = none := by
  cases mk <;> simp [Note.mark]

/-- A note of the fetch loop, of `_on_notify` or of `stop()`. -/
def Note.aside : Note → Bool
  | .metric none _ _ | .notified | .fetchIssued | .returned _ | .discarded _ => true
  | _ => false

/-- How often the log says so of a claim. -/
def marks (mk : Mark) (c : ClaimKey) (log : List Note) : Nat := tally (Note.mark mk) c log

@[simp] theorem marks_nil (mk : Mark) (c : ClaimKey) : marks mk c [] = 0 := rfl

@[simp] theorem marks_append (mk : Mark) (c : ClaimKey) (log log' : List Note) :
    marks mk c (log ++ log') = marks mk c log + marks mk c log' := tally_append _ _ _ _

@[simp] theorem marks_cons (mk : Mark) (c : ClaimKey) (n : Note) (log : List Note) :
    marks mk c (n :: log) = hit (n.mark mk) c + marks mk c log := rfl

/-- The fetch loop and `stop()` return and discard claims; all else is up to the workers. -/
theorem Note.marks_aside {mk : Mark} {notes : List Note} (h : ∀ n ∈ notes, n.aside = true)
    (hreturned : mk ≠ .returned) (hdiscarded : mk ≠ .discarded) (c : ClaimKey) :
    marks mk c notes = 0 := by
  refine tally_eq_zero fun n hn => ?_
  have haside := h n hn
  cases n with
  | metric key event tags =>
    cases key with
    | none => rw [mark_metric_none]; simp
    | some key => cases haside
  | notified => cases mk <;> simp [mark]
  | fetchIssued => cases mk <;> simp [mark]
  | returned key => cases mk <;> simp [mark] at hreturned ⊢
  | discarded key => cases mk <;> simp [mark] at hdiscarded ⊢
  | _ => cases haside

theorem Note.marks_own {mk : Mark} {notes : List Note} (h : ∀ n ∈ notes, n.aside = false)
    (hmk : mk = .returned ∨ mk = .discarded) (c : ClaimKey) : marks mk c notes = 0 := by
  refine tally_eq_zero fun n hn hmark => ?_
  have hown := h n hn
  cases hmk <;> subst mk <;> cases n <;> first | (cases hown; done) | cases hmark

/-- The events that close a `dispatched`. -/
def Event.Closing (event : Event) : Prop :=
  event = .acked ∨ event = .nackedRetried ∨ event = .nackedTerminal ∨ event = .leaseLost ∨
    event = .dispatchAbandoned

/-- The log may go on with the note: a `dispatched` is about a claim, and an event with a
    duration is a closing one, of a claim whose `dispatched` is open. -/
def Note.Follows (log : List Note) (n : Note) : Prop :=
  match n with
  | .metric key event tags => (event = .dispatched → key.isSome) ∧
    (tags.durationSeconds.isSome → event.Closing ∧ ∃ c, key = some c ∧
      marks .closed c log + marks .interrupted c log < marks .dispatched c log)
  | _ => True

/-- Every note of the log follows what is before it. -/
def Ordered (log : List Note) : Prop :=
  ∀ before n after, log = before ++ n :: after → n.Follows before

theorem Ordered.nil : Ordered [] := by
  intro before n after h
  cases before <;> cases h

theorem Ordered.snoc {log : List Note} (h : Ordered log) {n : Note} (hn : n.Follows log) :
    Ordered (log ++ [n]) := by
  intro before n' after heq
  cases after.eq_nil_or_concat with
  | inl hnil =>
    subst hnil
    obtain ⟨hlog, hlast⟩ := append_inj' heq rfl
    cases hlast
    exact hlog ▸ hn
  | inr hconcat =>
    obtain ⟨after', last, rfl⟩ := hconcat
    rw [concat_eq_append, ← cons_append, ← append_assoc] at heq
    exact h before n' after' (append_inj' heq rfl).1

theorem Ordered.append {log : List Note} (h : Ordered log) (notes : List Note)
    (hnotes : ∀ n ∈ notes, ∀ log, n.Follows log) : Ordered (log ++ notes) := by
  induction notes generalizing log with
  | nil => simpa using h
  | cons n notes ih =>
    rw [append_cons]
    exact ih (h.snoc (hnotes n mem_cons_self log)) fun n' hn' =>
      hnotes n' (mem_cons_of_mem n hn')

/-! ## What a worker holds -/

/-- What a worker holds, apart from its buffer. -/
inductive Hold where
  /-- Nothing, and its buffer is empty. -/
  | out
  | idle
  /-- Nothing; the delete of its buffer is issued. -/
  | flushing
  /-- A claim off the queue whose dispatch has not begun. -/
  | taken (key : ClaimKey)
  /-- A claim in dispatch: whether its `dispatched` is open, and whether its fate is sealed,
      by a write or by leaving it to its lease. -/
  | busy (key : ClaimKey) (opened sealed : Bool)

namespace Hold

@[simp] def held : Hold → Option ClaimKey
  | .taken key | .busy key _ _ => some key
  | _ => none

@[simp] def begun : Hold → Option ClaimKey
  | .busy key _ _ => some key
  | _ => none

@[simp] def opened : Hold → Option ClaimKey
  | .busy key opened _ => if opened then some key else none
  | _ => none

@[simp] def unsealed : Hold → Option ClaimKey
  | .taken key => some key
  | .busy key _ isSealed => if isSealed then none else some key
  | _ => none

/-- Its share of the unfinished count. -/
@[simp] def size : Hold → Nat
  | .taken _ | .busy _ _ _ => 1
  | _ => 0

/-- The slot of the queue it can give back. -/
@[simp] def slot : Hold → Nat
  | .taken _ => 1
  | _ => 0

/-- The buffered claims whose delete is not issued yet. -/
@[simp] def unissued (h : Hold) (buffer : List PendingFlush) (c : ClaimKey) : Nat :=
  match h with
  | .flushing => 0
  | _ => tally (fun p => some p.row.key) c buffer

/-- Nothing is held. -/
def Free (h : Hold) : Prop := h = .out ∨ h = .idle ∨ h = .flushing

section Free

variable {h : Hold} (hh : h.Free)
include hh

theorem Free.held : h.held = none := by obtain rfl | rfl | rfl := hh <;> rfl

theorem Free.begun : h.begun = none := by obtain rfl | rfl | rfl := hh <;> rfl

theorem Free.opened : h.opened = none := by obtain rfl | rfl | rfl := hh <;> rfl

theorem Free.unsealed : h.unsealed = none := by obtain rfl | rfl | rfl := hh <;> rfl

theorem Free.size : h.size = 0 := by obtain rfl | rfl | rfl := hh <;> rfl

theorem Free.slot : h.slot = 0 := by obtain rfl | rfl | rfl := hh <;> rfl

theorem Free.unissued {buffer : List PendingFlush} (hbuffer : buffer = []) (c : ClaimKey) :
    h.unissued buffer c = 0 := by
  subst hbuffer
  obtain rfl | rfl | rfl := hh <;> rfl

end Free

end Hold

/-- The claim, if the message says that its handler ran. -/
def OutboxInnerMessage.timed (m : OutboxInnerMessage) : Option ClaimKey :=
  if m.handlerDurationSeconds.isSome then some m.key else none

/-- What a worker holds at an await. -/
def WorkerPc.hold : WorkerPc → Hold
  | .loop => .idle
  | .consuming m _ => .busy m.key true false
  | .writing m _ _ _ => .busy m.key m.handlerDurationSeconds.isSome true
  | .flushing _ _ => .flushing
  | _ => .out

/-! ## The books -/

/-- What a stretch of a worker starts from: the log and the shared state it finds, and the
    shares of the other workers. -/
structure Ledger where
  log : List Note
  shared : Shared
  held : ClaimKey → Nat
  opened : ClaimKey → Nat
  unissued : ClaimKey → Nat
  unsealed : ClaimKey → Nat
  size : Nat
  /-- How many `consume()` calls the stretch may see ended by `CancelledError`. -/
  interrupts : Nat

/-- The account of one claim. -/
structure Balance (L : Ledger) (f : Frame) (h : Hold) (c : ClaimKey) : Prop where
  interrupts : marks .interrupted c f.notes ≤ L.interrupts
  /-- A returned claim is queued, held, finished, buffered or discarded. -/
  returned : marks .returned c (L.log ++ f.notes) =
    tally (fun m => some m.key) c f.shared.inflight + hit h.held c + L.held c +
      marks .ended c (L.log ++ f.notes) + marks .buffered c (L.log ++ f.notes) +
      marks .discarded c (L.log ++ f.notes)
  /-- A dispatch that has begun is under way, finished or buffered. -/
  begun : marks .dispatched c (L.log ++ f.notes) + marks .capped c (L.log ++ f.notes) =
    hit h.begun c + L.held c + marks .ended c (L.log ++ f.notes) +
      marks .buffered c (L.log ++ f.notes)
  /-- A buffered claim is in a buffer until its delete is issued. -/
  buffered : marks .buffered c (L.log ++ f.notes) =
    marks .batchIssued c (L.log ++ f.notes) + h.unissued f.buffer c + L.unissued c
  /-- A `dispatched` is closed, interrupted, or open in a hand or a buffer. -/
  closing : marks .dispatched c (L.log ++ f.notes) =
    marks .closed c (L.log ++ f.notes) + marks .interrupted c (L.log ++ f.notes) +
      hit h.opened c + tally (fun p => p.row.timed) c f.buffer + L.opened c
  invoked : marks .invoked c (L.log ++ f.notes) ≤ marks .dispatched c (L.log ++ f.notes)
  /-- One claim gets one fate. -/
  fate : marks .leftToLease c (L.log ++ f.notes) + marks .interrupted c (L.log ++ f.notes) +
    marks .writeIssued c (L.log ++ f.notes) + marks .buffered c (L.log ++ f.notes) +
    tally (fun m => some m.key) c f.shared.inflight + hit h.unsealed c + L.unsealed c +
    marks .discarded c (L.log ++ f.notes) ≤ marks .returned c (L.log ++ f.notes)

/-- What a stretch of a worker does to the shared state besides the queue. -/
structure Shared.Advances (sh sh' : Shared) : Prop where
  running : sh'.running = sh.running
  stopping : sh'.stopping = sh.stopping
  fetchGeneration : sh'.fetchGeneration = sh.fetchGeneration
  claimLocked : sh'.claimLocked = sh.claimLocked
  unfinished : sh'.unfinished ≤ sh.unfinished
  finishedSets : sh.finishedSets ≤ sh'.finishedSets
  finished : sh.finishedSets < sh'.finishedSets → sh'.unfinished = 0

/-- The books of a worker in the middle of a stretch. -/
structure Books (known : Row → Prop) (cfg : SubscriberConfig) (L : Ledger) (f : Frame)
    (h : Hold) : Prop where
  balance : ∀ c, Balance L f h c
  /-- Claims are returned and discarded by others. -/
  own : ∀ n ∈ f.notes, n.aside = false
  ordered : Ordered (L.log ++ f.notes)
  unfinished : f.shared.unfinished =
    f.shared.inflight.length + h.size + f.buffer.length + L.size
  fault : f.shared.fault = false
  advances : L.shared.Advances f.shared
  room : f.shared.inflight.length + h.slot ≤ L.shared.inflight.length
  queue : ∀ m ∈ f.shared.inflight, m.Claimed known ∧ m.Fresh
  buffer : ∀ p ∈ f.buffer, Batchable known cfg p
  empty : h = .out → f.buffer = []
  invoked : ∀ m, Note.invoked m ∈ L.log ++ f.notes → m.Claimed known ∧ m.Admitted cfg
  capped : ∀ m, Note.capped m ∈ L.log ++ f.notes → m.Claimed known ∧ m.Capped cfg

namespace Shared

theorem Advances.refl (sh : Shared) : sh.Advances sh where
  running := rfl
  stopping := rfl
  fetchGeneration := rfl
  claimLocked := rfl
  unfinished := Nat.le_refl _
  finishedSets := Nat.le_refl _
  finished hlt := absurd hlt (Nat.lt_irrefl _)

theorem Advances.trans {sh sh' sh'' : Shared} (h : sh.Advances sh') (h' : sh'.Advances sh'') :
    sh.Advances sh'' where
  running := h'.running.trans h.running
  stopping := h'.stopping.trans h.stopping
  fetchGeneration := h'.fetchGeneration.trans h.fetchGeneration
  claimLocked := h'.claimLocked.trans h.claimLocked
  unfinished := Nat.le_trans h'.unfinished h.unfinished
  finishedSets := Nat.le_trans h.finishedSets h'.finishedSets
  finished hlt := by
    by_cases hmid : sh.finishedSets < sh'.finishedSets
    · have hzero := h.finished hmid
      have hle := h'.unfinished
      omega
    · exact h'.finished (by omega)

theorem advances_inflight (sh : Shared) (queue : List OutboxInnerMessage) :
    sh.Advances { sh with inflight := queue } where
  running := rfl
  stopping := rfl
  fetchGeneration := rfl
  claimLocked := rfl
  unfinished := Nat.le_refl _
  finishedSets := Nat.le_refl _
  finished hlt := absurd hlt (Nat.lt_irrefl _)

theorem signalRefill_eq (cfg : SubscriberConfig) (sh : Shared) :
    ∃ event, sh.signalRefill cfg = { sh with notifyEvent := event } := by
  unfold signalRefill
  split
  · exact ⟨true, rfl⟩
  · exact ⟨sh.notifyEvent, rfl⟩

theorem advances_taskDone (sh : Shared) : sh.Advances sh.taskDone where
  running := rfl
  stopping := rfl
  fetchGeneration := rfl
  claimLocked := rfl
  unfinished := Nat.sub_le _ _
  finishedSets := by
    unfold taskDone
    dsimp only
    split <;> omega
  finished hlt := by
    unfold taskDone at hlt ⊢
    dsimp only at hlt ⊢
    split at hlt <;> omega

end Shared

@[simp] theorem Frame.note_notes (f : Frame) (n : Note) : (f.note n).notes = f.notes ++ [n] := rfl

@[simp] theorem Frame.note_shared (f : Frame) (n : Note) : (f.note n).shared = f.shared := rfl

@[simp] theorem Frame.note_buffer (f : Frame) (n : Note) : (f.note n).buffer = f.buffer := rfl

namespace Books

variable {known : Row → Prop} {cfg : SubscriberConfig} {L : Ledger} {f : Frame}

/-! ## Moves that only write the log -/

theorem own_snoc {notes : List Note} (h : ∀ n ∈ notes, n.aside = false) {n : Note}
    (hn : n.aside = false) : ∀ n' ∈ notes ++ [n], n'.aside = false := by
  intro n' hn'
  rw [mem_append, mem_singleton] at hn'
  exact hn'.elim (h n') fun heq => heq ▸ hn

/-- A note that leaves the queue and the buffer alone. -/
theorem noted {h h' : Hold} (b : Books known cfg L f h) {n : Note} (hown : n.aside = false)
    (hfollows : n.Follows (L.log ++ f.notes)) (hsize : h'.size = h.size)
    (hslot : h'.slot ≤ h.slot) (hout : h' ≠ .out)
    (hinvoked : ∀ m, n = .invoked m → m.Claimed known ∧ m.Admitted cfg)
    (hcapped : ∀ m, n = .capped m → m.Claimed known ∧ m.Capped cfg)
    (hbalance : ∀ c, Balance L (f.note n) h' c) : Books known cfg L (f.note n) h' where
  balance := hbalance
  own := own_snoc b.own hown
  ordered := by
    show Ordered (L.log ++ (f.notes ++ [n]))
    rw [← append_assoc]
    exact b.ordered.snoc hfollows
  unfinished := by rw [hsize]; exact b.unfinished
  fault := b.fault
  advances := b.advances
  room := Nat.le_trans (Nat.add_le_add_left hslot _) b.room
  queue := b.queue
  buffer := b.buffer
  empty hh := absurd hh hout
  invoked m hm := by
    have hm : Note.invoked m ∈ L.log ++ (f.notes ++ [n]) := hm
    rw [← append_assoc, mem_append, mem_singleton] at hm
    exact hm.elim (b.invoked m) fun heq => hinvoked m heq.symm
  capped m hm := by
    have hm : Note.capped m ∈ L.log ++ (f.notes ++ [n]) := hm
    rw [← append_assoc, mem_append, mem_singleton] at hm
    exact hm.elim (b.capped m) fun heq => hcapped m heq.symm

variable {key : ClaimKey}

/-- An event without a duration that is not a `dispatched`. -/
theorem metric {h : Hold} (b : Books known cfg L f h) (hout : h ≠ .out) {event : Event}
    {tags : Tags} (hevent : event ≠ .dispatched) (hduration : tags.durationSeconds = none) :
    Books known cfg L (f.note (.metric (some key) event tags)) h := by
  refine b.noted rfl (by simp [Note.Follows, hevent, hduration]) rfl (Nat.le_refl _) hout (by simp)
    (by simp) fun c => ?_
  obtain ⟨hinterrupts, hreturned, hbegun, hbuffered, hclosing, hinvoked, hfate⟩ := b.balance c
  simp at hreturned hbegun hbuffered hclosing hinvoked hfate
  constructor <;> simp [Note.mark, hevent, hduration] <;> omega

/-- The dispatch of a claim off the queue begins. -/
theorem dispatched (b : Books known cfg L f (.taken key)) (tags : Tags)
    (hduration : tags.durationSeconds = none) :
    Books known cfg L (f.note (.metric (some key) .dispatched tags)) (.busy key true false) := by
  refine b.noted rfl (by simp [Note.Follows, hduration]) rfl (Nat.zero_le _) (by simp) (by simp)
    (by simp) fun c => ?_
  obtain ⟨hinterrupts, hreturned, hbegun, hbuffered, hclosing, hinvoked, hfate⟩ := b.balance c
  simp at hreturned hbegun hbuffered hclosing hinvoked hfate
  constructor <;> simp [Note.mark, hduration] <;> omega

/-- ... and the handler is invoked. -/
theorem invoking (b : Books known cfg L f (.taken key)) {tags : Tags}
    (hduration : tags.durationSeconds = none) {m : OutboxInnerMessage} (hkey : m.key = key)
    (hclaimed : m.Claimed known) (hadmitted : m.Admitted cfg) :
    Books known cfg L ((f.note (.metric (some key) .dispatched tags)).note (.invoked m))
      (.busy key true false) := by
  refine (b.dispatched tags hduration).noted rfl trivial rfl (Nat.le_refl _) (by simp)
    (fun m' hm => by cases hm; exact ⟨hclaimed, hadmitted⟩) (by simp) fun c => ?_
  -- the handler is invoked once per `dispatched`, which only the state before both tells
  obtain ⟨hinterrupts, hreturned, hbegun, hbuffered, hclosing, hinvoked, hfate⟩ := b.balance c
  simp at hreturned hbegun hbuffered hclosing hinvoked hfate
  constructor <;> simp [Note.mark, hduration, hkey] <;> omega

/-- A claim off the queue is past the cap. -/
theorem overCap (b : Books known cfg L f (.taken key)) {m : OutboxInnerMessage}
    (hkey : m.key = key) (hclaimed : m.Claimed known) (hcapped : m.Capped cfg) :
    Books known cfg L (f.note (.capped m)) (.busy key false false) := by
  refine b.noted rfl trivial rfl (Nat.zero_le _) (by simp) (by simp)
    (fun m' hm => by cases hm; exact ⟨hclaimed, hcapped⟩) fun c => ?_
  obtain ⟨hinterrupts, hreturned, hbegun, hbuffered, hclosing, hinvoked, hfate⟩ := b.balance c
  simp at hreturned hbegun hbuffered hclosing hinvoked hfate
  constructor <;> simp [Note.mark, hkey] <;> omega

/-- The fate of a claim is sealed: its write is issued, or it is left to its lease. -/
theorem sealed {opened : Bool} (b : Books known cfg L f (.busy key opened false)) {n : Note}
    (hn : n = .writeIssued key ∨ n = .leftToLease key) :
    Books known cfg L (f.note n) (.busy key opened true) := by
  refine b.noted (by cases hn <;> subst n <;> rfl) (by cases hn <;> subst n <;> trivial) rfl
    (Nat.le_refl _) (by simp) (by cases hn <;> subst n <;> simp)
    (by cases hn <;> subst n <;> simp) fun c => ?_
  obtain ⟨hinterrupts, hreturned, hbegun, hbuffered, hclosing, hinvoked, hfate⟩ := b.balance c
  simp at hreturned hbegun hbuffered hclosing hinvoked hfate
  cases hn <;> subst n <;> constructor <;> simp [Note.mark] <;> omega

/-- `CancelledError` ends a `consume()`. -/
theorem interrupted (b : Books known cfg L f (.busy key true false)) (hnotes : f.notes = [])
    (hmay : 0 < L.interrupts) :
    Books known cfg L (f.note (.interrupted key)) (.busy key false true) := by
  refine b.noted rfl trivial rfl (Nat.le_refl _) (by simp) (by simp) (by simp) fun c => ?_
  have hone := hit_le_one (some key) c
  have hfirst : marks .interrupted c f.notes = 0 := by rw [hnotes]; rfl
  obtain ⟨hinterrupts, hreturned, hbegun, hbuffered, hclosing, hinvoked, hfate⟩ := b.balance c
  simp at hreturned hbegun hbuffered hclosing hinvoked hfate
  constructor <;> simp [Note.mark] <;> omega

/-- An open `dispatched` is closed by an event with a duration. -/
theorem closed {isSealed : Bool} (b : Books known cfg L f (.busy key true isSealed))
    {event : Event} {tags : Tags} (hevent : event.Closing)
    (hduration : tags.durationSeconds.isSome) :
    Books known cfg L (f.note (.metric (some key) event tags)) (.busy key false isSealed) := by
  have hne : event ≠ .dispatched := by
    intro h
    simp [h, Event.Closing] at hevent
  refine b.noted rfl ⟨fun _ => rfl, fun _ => ⟨hevent, key, rfl, ?_⟩⟩ rfl (Nat.le_refl _) (by simp)
    (by simp) (by simp) fun c => ?_
  · have hclosing := (b.balance key).closing
    have hopened : hit (Hold.busy key true isSealed).opened key = 1 := hit_self key
    omega
  · obtain ⟨hinterrupts, hreturned, hbegun, hbuffered, hclosing, hinvoked, hfate⟩ := b.balance c
    simp at hreturned hbegun hbuffered hclosing hinvoked hfate
    constructor <;> simp [Note.mark, hne, hduration] <;> omega

/-! ## Moves that end a claim's time in hand -/

/-- The end of a dispatch that left nothing buffered. -/
theorem ended {isSealed : Bool} (b : Books known cfg L f (.busy key false isSealed)) :
    Books known cfg L (f.note (.ended key)).taskDone .idle where
  balance c := by
    obtain ⟨hinterrupts, hreturned, hbegun, hbuffered, hclosing, hinvoked, hfate⟩ := b.balance c
    simp at hreturned hbegun hbuffered hclosing hinvoked hfate
    constructor <;> simp [Note.mark, Frame.taskDone, Shared.taskDone] <;> omega
  own := own_snoc b.own rfl
  ordered := by
    show Ordered (L.log ++ (f.notes ++ [_]))
    rw [← append_assoc]
    exact b.ordered.snoc trivial
  unfinished := by
    have h := b.unfinished
    simp only [Hold.size] at h
    show f.shared.unfinished - 1 = f.shared.inflight.length + 0 + f.buffer.length + L.size
    omega
  fault := by
    have h := b.unfinished
    simp only [Hold.size] at h
    have hpos : f.shared.unfinished ≠ 0 := by omega
    simp [Frame.taskDone, Shared.taskDone, b.fault, hpos]
  advances := b.advances.trans (Shared.advances_taskDone _)
  room := b.room
  queue := b.queue
  buffer := b.buffer
  empty h := by cases h
  invoked m hm := by
    have hm : Note.invoked m ∈ L.log ++ (f.notes ++ [.ended key]) := hm
    exact b.invoked m (by simpa using hm)
  capped m hm := by
    have hm : Note.capped m ∈ L.log ++ (f.notes ++ [.ended key]) := hm
    exact b.capped m (by simpa using hm)

/-- The end of a dispatch that left the claim in the buffer. -/
theorem buffered {p : PendingFlush} (b : Books known cfg L f
      (.busy p.row.key p.row.handlerDurationSeconds.isSome false))
    (hp : Batchable known cfg p) :
    Books known cfg L (({ f with buffer := f.buffer ++ [p] } : Frame).note (.buffered p.row.key))
      .idle where
  balance c := by
    obtain ⟨hinterrupts, hreturned, hbegun, hbuffered, hclosing, hinvoked, hfate⟩ := b.balance c
    -- the claim's open `dispatched` moves to the buffer with it
    have hopened : (Hold.busy p.row.key p.row.handlerDurationSeconds.isSome false).opened =
        p.row.timed := rfl
    rw [hopened] at hclosing
    simp at hreturned hbegun hbuffered hclosing hinvoked hfate
    constructor <;> simp [Note.mark] <;> omega
  own := own_snoc b.own rfl
  ordered := by
    show Ordered (L.log ++ (f.notes ++ [_]))
    rw [← append_assoc]
    exact b.ordered.snoc trivial
  unfinished := by
    have h := b.unfinished
    simp only [Hold.size] at h
    simp
    omega
  fault := b.fault
  advances := b.advances
  room := b.room
  queue := b.queue
  buffer q hq := by
    have hq : q ∈ f.buffer ++ [p] := hq
    rw [mem_append, mem_singleton] at hq
    exact hq.elim (b.buffer q) fun heq => heq ▸ hp
  empty h := by cases h
  invoked m hm := by
    have hm : Note.invoked m ∈ L.log ++ (f.notes ++ [.buffered p.row.key]) := hm
    exact b.invoked m (by simpa using hm)
  capped m hm := by
    have hm : Note.capped m ∈ L.log ++ (f.notes ++ [.buffered p.row.key]) := hm
    exact b.capped m (by simpa using hm)

/-- The batched delete of the buffer is issued. -/
theorem batchIssued (b : Books known cfg L f .idle) :
    Books known cfg L { f with notes := f.notes ++ f.buffer.map fun p => .batchIssued p.row.key }
      .flushing where
  balance c := by
    obtain ⟨hinterrupts, hreturned, hbegun, hbuffered, hclosing, hinvoked, hfate⟩ := b.balance c
    simp at hreturned hbegun hbuffered hclosing hinvoked hfate
    have hquiet : ∀ mk, mk ≠ .batchIssued →
        marks mk c (f.buffer.map fun p => Note.batchIssued p.row.key) = 0 := by
      intro mk hmk
      refine tally_eq_zero fun n hn => ?_
      obtain ⟨p, _, rfl⟩ := mem_map.mp hn
      cases mk <;> simp [Note.mark] at hmk ⊢
    have hissued : marks .batchIssued c (f.buffer.map fun p => Note.batchIssued p.row.key) =
        tally (fun p => some p.row.key) c f.buffer := tally_map _ _ _ _
    constructor <;> simp [hquiet, hissued] <;> omega
  own n hn := by
    have hn : n ∈ f.notes ++ f.buffer.map fun p => .batchIssued p.row.key := hn
    rw [mem_append] at hn
    refine hn.elim (b.own n) fun hnew => ?_
    obtain ⟨p, _, rfl⟩ := mem_map.mp hnew
    rfl
  ordered := by
    show Ordered (L.log ++ (f.notes ++ _))
    rw [← append_assoc]
    refine b.ordered.append _ fun n hn log => ?_
    obtain ⟨p, _, rfl⟩ := mem_map.mp hn
    trivial
  unfinished := b.unfinished
  fault := b.fault
  advances := b.advances
  room := b.room
  queue := b.queue
  buffer := b.buffer
  empty h := by cases h
  invoked m hm := by
    have hm : Note.invoked m ∈ L.log ++ (f.notes ++ f.buffer.map fun p => .batchIssued p.row.key) :=
      hm
    exact b.invoked m (by simpa using hm)
  capped m hm := by
    have hm : Note.capped m ∈ L.log ++ (f.notes ++ f.buffer.map fun p => .batchIssued p.row.key) :=
      hm
    exact b.capped m (by simpa using hm)

/-- `task_done` for a claim of a flush leaves the count of the others. -/
theorem flushing_taskDone {p : PendingFlush} {rest : List PendingFlush}
    (b : Books known cfg L { f with buffer := p :: rest } .flushing) :
    f.shared.taskDone.unfinished = f.shared.inflight.length + 0 + rest.length + L.size ∧
    f.shared.taskDone.fault = false := by
  have h := b.unfinished
  simp only [Hold.size, length_cons] at h
  have hpos : f.shared.unfinished ≠ 0 := by omega
  have hfault : f.shared.fault = false := b.fault
  constructor
  · show f.shared.unfinished - 1 = _
    omega
  · simp [Shared.taskDone, hfault, hpos]

/-- One claim of a flush is done with: its `dispatched`, if it has one, is closed by the
    note, and leaves the unfinished count. -/
theorem pendingDone {p : PendingFlush} {rest : List PendingFlush}
    (b : Books known cfg L { f with buffer := p :: rest } .flushing) {event : Event} {tags : Tags}
    (hevent : event.Closing) (hduration : tags.durationSeconds = p.row.handlerDurationSeconds) :
    Books known cfg L
      { (f.note (.metric (some p.row.key) event tags)).taskDone with buffer := rest }
      .flushing where
  balance c := by
    have hne : event ≠ .dispatched := by
      intro h
      simp [h, Event.Closing] at hevent
    have htimed : p.row.timed = if tags.durationSeconds.isSome then some p.row.key else none := by
      simp [OutboxInnerMessage.timed, hduration]
    obtain ⟨hinterrupts, hreturned, hbegun, hbuffered, hclosing, hinvoked, hfate⟩ := b.balance c
    simp at hreturned hbegun hbuffered hclosing hinvoked hfate
    rw [htimed] at hclosing
    constructor <;> simp [Note.mark, hne, Frame.taskDone, Shared.taskDone] <;> omega
  own := own_snoc b.own rfl
  ordered := by
    show Ordered (L.log ++ (f.notes ++ [_]))
    rw [← append_assoc]
    refine b.ordered.snoc ⟨fun _ => rfl, fun hsome => ⟨hevent, p.row.key, rfl, ?_⟩⟩
    have htimed : p.row.timed = some p.row.key := by
      rw [hduration] at hsome
      exact if_pos hsome
    have hclosing := (b.balance p.row.key).closing
    simp only [tally_cons, htimed, hit_self] at hclosing
    show marks .closed p.row.key (L.log ++ f.notes) + marks .interrupted p.row.key
      (L.log ++ f.notes) < marks .dispatched p.row.key (L.log ++ f.notes)
    omega
  unfinished := b.flushing_taskDone.1
  fault := b.flushing_taskDone.2
  advances := b.advances.trans (Shared.advances_taskDone _)
  room := b.room
  queue := b.queue
  buffer q hq := b.buffer q (mem_cons_of_mem p hq)
  empty h := by cases h
  invoked m hm := by
    have hm : Note.invoked m ∈ L.log ++ (f.notes ++ [.metric (some p.row.key) event tags]) := hm
    exact b.invoked m (by simpa using hm)
  capped m hm := by
    have hm : Note.capped m ∈ L.log ++ (f.notes ++ [.metric (some p.row.key) event tags]) := hm
    exact b.capped m (by simpa using hm)

/-- A claim of a flush without a `dispatched` to close is done with. -/
theorem pendingSkipped {p : PendingFlush} {rest : List PendingFlush}
    (b : Books known cfg L { f with buffer := p :: rest } .flushing)
    (hduration : p.row.handlerDurationSeconds = none) :
    Books known cfg L { f.taskDone with buffer := rest } .flushing where
  balance c := by
    have htimed : p.row.timed = none := by simp [OutboxInnerMessage.timed, hduration]
    obtain ⟨hinterrupts, hreturned, hbegun, hbuffered, hclosing, hinvoked, hfate⟩ := b.balance c
    simp at hreturned hbegun hbuffered hclosing hinvoked hfate
    rw [htimed, hit_none] at hclosing
    constructor <;> simp [Frame.taskDone, Shared.taskDone] <;> omega
  own := b.own
  ordered := b.ordered
  unfinished := b.flushing_taskDone.1
  fault := b.flushing_taskDone.2
  advances := b.advances.trans (Shared.advances_taskDone _)
  room := b.room
  queue := b.queue
  buffer q hq := b.buffer q (mem_cons_of_mem p hq)
  empty h := by cases h
  invoked := b.invoked
  capped := b.capped

/-! ## Moves that write no log -/

/-- With an empty buffer, all ways to hold nothing are one. -/
theorem free {h h' : Hold} (b : Books known cfg L f h) (hbuffer : f.buffer = []) (hh : h.Free)
    (hh' : h'.Free) : Books known cfg L f h' where
  balance c := by
    obtain ⟨hinterrupts, hreturned, hbegun, hbuffered, hclosing, hinvoked, hfate⟩ := b.balance c
    rw [hh.unissued hbuffer, ← hh'.unissued hbuffer] at hbuffered
    rw [hh.held, ← hh'.held] at hreturned
    rw [hh.begun, ← hh'.begun] at hbegun
    rw [hh.opened, ← hh'.opened] at hclosing
    rw [hh.unsealed, ← hh'.unsealed] at hfate
    exact ⟨hinterrupts, hreturned, hbegun, hbuffered, hclosing, hinvoked, hfate⟩
  own := b.own
  ordered := b.ordered
  unfinished := by rw [hh'.size, ← hh.size]; exact b.unfinished
  fault := b.fault
  advances := b.advances
  room := by rw [hh'.slot, ← hh.slot]; exact b.room
  queue := b.queue
  buffer := b.buffer
  empty _ := hbuffer
  invoked := b.invoked
  capped := b.capped

/-- A worker that comes back between connections. -/
theorem back (b : Books known cfg L f .out) : Books known cfg L f .idle :=
  b.free (b.empty rfl) (.inl rfl) (.inr (.inl rfl))

/-- A claim comes off the in-flight queue. -/
theorem take {m : OutboxInnerMessage} {queued : List OutboxInnerMessage}
    (b : Books known cfg L f .idle) (hqueue : f.shared.inflight = m :: queued) :
    Books known cfg L { f with shared := { f.shared with inflight := queued } } (.taken m.key) where
  balance c := by
    obtain ⟨hinterrupts, hreturned, hbegun, hbuffered, hclosing, hinvoked, hfate⟩ := b.balance c
    simp [hqueue] at hreturned hbegun hbuffered hclosing hinvoked hfate
    constructor <;> simp <;> omega
  own := b.own
  ordered := b.ordered
  unfinished := by
    have h := b.unfinished
    simp only [hqueue, length_cons, Hold.size] at h
    show f.shared.unfinished = queued.length + 1 + f.buffer.length + L.size
    omega
  fault := b.fault
  advances := b.advances.trans (Shared.advances_inflight _ _)
  room := by
    have h := b.room
    rw [hqueue, length_cons] at h
    exact h
  queue m' hm' := b.queue m' (hqueue ▸ mem_cons_of_mem m hm')
  buffer := b.buffer
  empty h := by cases h
  invoked := b.invoked
  capped := b.capped

/-- The wake-up event is not in the books. -/
theorem signalled {h : Hold} (b : Books known cfg L f h) :
    Books known cfg L { f with shared := f.shared.signalRefill cfg } h := by
  obtain ⟨event, hevent⟩ := f.shared.signalRefill_eq cfg
  rw [hevent]
  exact {
    balance := fun c => by
      obtain ⟨hinterrupts, hreturned, hbegun, hbuffered, hclosing, hinvoked, hfate⟩ := b.balance c
      exact ⟨hinterrupts, hreturned, hbegun, hbuffered, hclosing, hinvoked, hfate⟩
    own := b.own
    ordered := b.ordered
    unfinished := b.unfinished
    fault := b.fault
    advances := b.advances.trans
      { running := rfl
        stopping := rfl
        fetchGeneration := rfl
        claimLocked := rfl
        unfinished := Nat.le_refl _
        finishedSets := Nat.le_refl _
        finished := fun hlt => absurd hlt (Nat.lt_irrefl _) }
    room := b.room
    queue := b.queue
    buffer := b.buffer
    empty := b.empty
    invoked := b.invoked
    capped := b.capped }

/-- A claim is put back on the in-flight queue, which has room for it. -/
theorem putBack {m : OutboxInnerMessage} (b : Books known cfg L f (.taken m.key))
    (hroom : L.shared.inflight.length ≤ cfg.fetchBatchSize) (hm : m.Claimed known ∧ m.Fresh) :
    Books known cfg L { f with shared := (f.shared.putNowait cfg m).taskDone } .idle := by
  have hslot := b.room
  have hcount := b.unfinished
  simp only [Hold.slot, Hold.size] at hslot hcount
  have hput : f.shared.putNowait cfg m =
      { f.shared with
        inflight := f.shared.inflight ++ [m]
        unfinished := f.shared.unfinished + 1 } := by
    unfold Shared.putNowait
    rw [if_neg (by omega)]
  have hmany : f.shared.unfinished ≠ 0 := by omega
  rw [hput]
  exact {
    balance := fun c => by
      obtain ⟨hinterrupts, hreturned, hbegun, hbuffered, hclosing, hinvoked, hfate⟩ := b.balance c
      simp at hreturned hbegun hbuffered hclosing hinvoked hfate
      constructor <;> simp [Shared.taskDone] <;> omega
    own := b.own
    ordered := b.ordered
    unfinished := by
      simp [Shared.taskDone]
      omega
    fault := by simp [Shared.taskDone, b.fault]
    advances := b.advances.trans
      { running := rfl
        stopping := rfl
        fetchGeneration := rfl
        claimLocked := rfl
        unfinished := by simp [Shared.taskDone]
        finishedSets := by simp [Shared.taskDone, hmany]
        finished := by simp [Shared.taskDone, hmany] }
    room := by
      simp [Shared.taskDone]
      omega
    queue := fun m' hm' => by
      have hm' : m' ∈ f.shared.inflight ++ [m] := hm'
      rw [mem_append, mem_singleton] at hm'
      exact hm'.elim (b.queue m') fun heq => heq ▸ hm
    buffer := b.buffer
    empty := fun h => by cases h
    invoked := b.invoked
    capped := b.capped }

end Books

end Outbox
