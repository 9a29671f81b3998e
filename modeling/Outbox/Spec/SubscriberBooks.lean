import Outbox.Spec.FetchSteps
import Outbox.Spec.SubscriberSteps
import Outbox.Spec.WorkerSteps

/-!
# A subscriber keeps its books

The books of a subscriber are those of a worker that holds nothing, with every worker's
share on the ledger. A step of one worker takes its share off the ledger, moves, and puts
the new share back; the steps of the fetch loop and of `stop()` move the queue and the log.

## Key results

- `Subscriber.Inv`: the invariant
- `Subscriber.step_inv`, `Subscriber.deliverWorker_inv`, `Subscriber.deliverFetch_inv`: it is
  kept by every step, and by every reply
-/

namespace Outbox

open List

/-! ## One share on and off the ledger -/

/-- The ledger with the share of one more worker. -/
def Ledger.close (L : Ledger) (f : Frame) (h : Hold) : Ledger where
  log := L.log ++ f.notes
  shared := f.shared
  held c := hit h.held c + L.held c
  opened c := (hit h.opened c + tally (fun p => p.row.timed) c f.buffer) + L.opened c
  unissued c := h.unissued f.buffer c + L.unissued c
  unsealed c := hit h.unsealed c + L.unsealed c
  size := (h.size + f.buffer.length) + L.size
  interrupts := L.interrupts

/-- The frame of a worker that holds nothing. -/
def Ledger.frame (L : Ledger) : Frame := { shared := L.shared, buffer := [] }

/-- A worker at an await: its dispatch has begun, if it holds a claim. -/
def Hold.Settled (h : Hold) : Prop := h.begun = h.held ∧ h.slot = 0

theorem WorkerPc.hold_settled (pc : WorkerPc) : pc.hold.Settled := by
  cases pc <;> exact ⟨rfl, rfl⟩

namespace Books

variable {known : Row → Prop} {cfg : SubscriberConfig} {L : Ledger} {f : Frame} {h : Hold}

/-- Before the first note of a stretch, its ledger may allow any number of interruptions. -/
theorem allow {buffer : List PendingFlush}
    (b : Books known cfg L { shared := L.shared, buffer := buffer } h) (interrupts : Nat) :
    Books known cfg { L with interrupts := interrupts } { shared := L.shared, buffer := buffer }
      h where
  balance c := by
    obtain ⟨hinterrupts, hreturned, hbegun, hbuffered, hclosing, hinvoked, hfate⟩ :=
      b.balance c
    exact ⟨Nat.zero_le _, hreturned, hbegun, hbuffered, hclosing, hinvoked, hfate⟩
  own n hn := by cases hn
  ordered := b.ordered
  unfinished := b.unfinished
  fault := b.fault
  advances := b.advances
  room := b.room
  queue := b.queue
  buffer := b.buffer
  empty := b.empty
  invoked := b.invoked
  capped := b.capped

/-- A worker's share goes on the ledger. -/
theorem settle (b : Books known cfg L f h) (hh : h.Settled) :
    Books known cfg (L.close f h) (L.close f h).frame .out where
  balance c := by
    obtain ⟨hinterrupts, hreturned, hbegun, hbuffered, hclosing, hinvoked, hfate⟩ := b.balance c
    rw [hh.1] at hbegun
    constructor <;> simp [Ledger.close, Ledger.frame] at * <;> omega
  own n hn := by cases hn
  ordered := by simpa [Ledger.close, Ledger.frame] using b.ordered
  unfinished := by
    have hu := b.unfinished
    show f.shared.unfinished =
      f.shared.inflight.length + 0 + 0 + ((h.size + f.buffer.length) + L.size)
    omega
  fault := b.fault
  advances := .refl _
  room := Nat.le_refl _
  queue := b.queue
  buffer p hp := by cases hp
  empty _ := rfl
  invoked m hm := b.invoked m (by simpa [Ledger.close, Ledger.frame] using hm)
  capped m hm := b.capped m (by simpa [Ledger.close, Ledger.frame] using hm)

/-- A worker's share comes off the ledger. -/
theorem reopen {buffer : List PendingFlush}
    (b : Books known cfg (L.close { shared := L.shared, buffer := buffer } h)
      (L.close { shared := L.shared, buffer := buffer } h).frame .out)
    (hh : h.Settled) (hbuffer : ∀ p ∈ buffer, Batchable known cfg p)
    (hempty : h = .out → buffer = []) :
    Books known cfg L { shared := L.shared, buffer := buffer } h where
  balance c := by
    obtain ⟨hinterrupts, hreturned, hbegun, hbuffered, hclosing, hinvoked, hfate⟩ := b.balance c
    -- between two awaits a claim in the hand has begun
    have hhb : hit h.begun c = hit h.held c := by rw [hh.1]
    constructor <;> simp [Ledger.close, Ledger.frame] at * <;> omega
  own n hn := by cases hn
  ordered := by simpa [Ledger.close, Ledger.frame] using b.ordered
  unfinished := by
    have hu := b.unfinished
    simp [Ledger.close, Ledger.frame] at hu
    simp
    omega
  fault := b.fault
  advances := .refl _
  room := by
    rw [hh.2]
    exact Nat.le_refl _
  queue := b.queue
  buffer := hbuffer
  empty := hempty
  invoked m hm := b.invoked m (by simpa [Ledger.close, Ledger.frame] using hm)
  capped m hm := b.capped m (by simpa [Ledger.close, Ledger.frame] using hm)

/-! ## Moves of the fetch loop and of `stop()` -/

/-- The flags of the shared state are no part of the books. -/
theorem reshared (b : Books known cfg L L.frame .out) (sh : Shared)
    (hinflight : sh.inflight = L.shared.inflight)
    (hunfinished : sh.unfinished = L.shared.unfinished)
    (hfault : sh.fault = L.shared.fault) :
    Books known cfg { L with shared := sh } (Ledger.frame { L with shared := sh }) .out where
  balance c := by
    obtain ⟨hinterrupts, hreturned, hbegun, hbuffered, hclosing, hinvoked, hfate⟩ := b.balance c
    constructor <;> simp [Ledger.frame, hinflight] at * <;> omega
  own n hn := by cases hn
  ordered := b.ordered
  unfinished := by
    have hu := b.unfinished
    simp [Ledger.frame] at hu
    simp [Ledger.frame, hinflight, hunfinished, hu]
  fault := hfault.trans b.fault
  advances := .refl _
  room := Nat.le_refl _
  queue m hm := b.queue m (hinflight ▸ hm)
  buffer := b.buffer
  empty := b.empty
  invoked := b.invoked
  capped := b.capped

/-- Notes that say nothing about a claim are no part of the books. -/
theorem logged (b : Books known cfg L L.frame .out) (notes : List Note)
    (hmarks : ∀ n ∈ notes, ∀ mk, n.mark mk = none) (hfollows : ∀ n ∈ notes, ∀ log, n.Follows log) :
    Books known cfg { L with log := L.log ++ notes } L.frame .out where
  balance c := by
    have hquiet : ∀ mk, marks mk c notes = 0 := fun mk =>
      tally_eq_zero fun n hn => by simp [hmarks n hn mk]
    obtain ⟨hinterrupts, hreturned, hbegun, hbuffered, hclosing, hinvoked, hfate⟩ := b.balance c
    constructor <;> simp [Ledger.frame, hquiet] at * <;> omega
  own n hn := by cases hn
  ordered := by
    have h := b.ordered.append notes hfollows
    simpa [Ledger.frame] using h
  unfinished := b.unfinished
  fault := b.fault
  advances := b.advances
  room := b.room
  queue := b.queue
  buffer := b.buffer
  empty := b.empty
  invoked m hm := by
    have hm : Note.invoked m ∈ L.log ++ notes ++ [] := hm
    rw [append_nil, mem_append] at hm
    refine hm.elim (fun hm => b.invoked m (by simpa [Ledger.frame] using hm)) fun hm => ?_
    exact absurd (hmarks _ hm .invoked) (by simp [Note.mark])
  capped m hm := by
    have hm : Note.capped m ∈ L.log ++ notes ++ [] := hm
    rw [append_nil, mem_append] at hm
    refine hm.elim (fun hm => b.capped m (by simpa [Ledger.frame] using hm)) fun hm => ?_
    exact absurd (hmarks _ hm .capped) (by simp [Note.mark])

/-- A fetch puts a claim on the queue, which has room for it. -/
theorem queued (b : Books known cfg L L.frame .out) {m : OutboxInnerMessage}
    (hroom : L.shared.inflight.length < cfg.fetchBatchSize) (hm : m.Claimed known ∧ m.Fresh) :
    Books known cfg
      { L with log := L.log ++ [.returned m.key], shared := L.shared.putNowait cfg m }
      { shared := L.shared.putNowait cfg m, buffer := [] } .out := by
  have hput : L.shared.putNowait cfg m =
      { L.shared with
        inflight := L.shared.inflight ++ [m]
        unfinished := L.shared.unfinished + 1 } := by
    unfold Shared.putNowait
    rw [if_neg (by omega)]
  rw [hput]
  exact {
    balance := fun c => by
      obtain ⟨hinterrupts, hreturned, hbegun, hbuffered, hclosing, hinvoked, hfate⟩ := b.balance c
      constructor <;> simp [Ledger.frame, Note.mark] at * <;> omega
    own := fun n hn => by cases hn
    ordered := by
      have h := b.ordered.snoc (n := .returned m.key) trivial
      simpa [Ledger.frame] using h
    unfinished := by
      have hu := b.unfinished
      simp [Ledger.frame] at hu
      simp
      omega
    fault := b.fault
    advances := .refl _
    room := Nat.le_refl _
    queue := fun m' hm' => by
      have hm' : m' ∈ L.shared.inflight ++ [m] := hm'
      rw [mem_append, mem_singleton] at hm'
      exact hm'.elim (b.queue m') fun heq => heq ▸ hm
    buffer := b.buffer
    empty := b.empty
    invoked := fun m' hm' => b.invoked m' (by simpa [Ledger.frame] using hm')
    capped := fun m' hm' => b.capped m' (by simpa [Ledger.frame] using hm') }

/-- A fetch puts its claims on the queue. -/
theorem enqueued (b : Books known cfg L L.frame .out) (messages : List OutboxInnerMessage)
    (hroom : L.shared.inflight.length + messages.length ≤ cfg.fetchBatchSize)
    (hm : ∀ m ∈ messages, m.Claimed known ∧ m.Fresh) :
    let sh := messages.foldl (Shared.putNowait cfg) L.shared
    Books known cfg
      { L with log := L.log ++ messages.map (fun m => .returned m.key), shared := sh }
      { shared := sh, buffer := [] } .out ∧
    sh.inflight.length = L.shared.inflight.length + messages.length := by
  induction messages generalizing L with
  | nil =>
    simp only [map_nil, append_nil]
    exact ⟨b, rfl⟩
  | cons m messages ih =>
    simp only [length_cons] at hroom
    have hput : (L.shared.putNowait cfg m).inflight = L.shared.inflight ++ [m] := by
      unfold Shared.putNowait
      rw [if_neg (by omega)]
    have hnext := ih (b.queued (by omega) (hm m mem_cons_self))
      (by simp [hput]; omega) fun m' hm' => hm m' (mem_cons_of_mem m hm')
    simp only [hput, length_append, length_singleton, append_assoc, singleton_append] at hnext
    refine ⟨hnext.1, ?_⟩
    rw [foldl_cons, hnext.2, length_cons]
    omega

/-- `_reset_inflight` drops what is queued, when no worker holds a share. -/
theorem discarded (b : Books known cfg L L.frame .out) (hsize : L.size = 0) :
    Books known cfg
      { L with
        log := L.log ++ L.shared.inflight.map fun m => .discarded m.key
        shared := L.shared.resetInflight }
      { shared := L.shared.resetInflight, buffer := [] } .out where
  balance c := by
    -- each queued claim gets the one mark
    have hquiet : ∀ mk, mk ≠ .discarded →
        marks mk c (L.shared.inflight.map fun m => Note.discarded m.key) = 0 := by
      intro mk hmk
      refine tally_eq_zero fun n hn => ?_
      obtain ⟨p, _, rfl⟩ := mem_map.mp hn
      cases mk <;> simp [Note.mark] at hmk ⊢
    have hdiscarded : marks .discarded c (L.shared.inflight.map fun m => Note.discarded m.key) =
        tally (fun m => some m.key) c L.shared.inflight := tally_map _ _ _ _
    obtain ⟨hinterrupts, hreturned, hbegun, hbuffered, hclosing, hinvoked, hfate⟩ := b.balance c
    constructor <;> simp [Ledger.frame, Shared.resetInflight, hquiet, hdiscarded] at * <;> omega
  own n hn := by cases hn
  ordered := by
    have h := b.ordered.append (L.shared.inflight.map fun m => .discarded m.key)
      fun n hn log => by
        obtain ⟨m, _, rfl⟩ := mem_map.mp hn
        trivial
    simpa [Ledger.frame] using h
  unfinished := by simp [Shared.resetInflight, hsize]
  fault := b.fault
  advances := .refl _
  room := Nat.le_refl _
  queue m hm := by cases hm
  buffer := b.buffer
  empty := b.empty
  invoked m hm := b.invoked m (by simpa [Ledger.frame] using hm)
  capped m hm := b.capped m (by simpa [Ledger.frame] using hm)

/-- Knowing more rows keeps the books. -/
theorem mono {known' : Row → Prop} (b : Books known cfg L f h) (hmono : ∀ r, known r → known' r) :
    Books known' cfg L f h where
  balance := b.balance
  own := b.own
  ordered := b.ordered
  unfinished := b.unfinished
  fault := b.fault
  advances := b.advances
  room := b.room
  queue m hm := ⟨(b.queue m hm).1.mono hmono, (b.queue m hm).2⟩
  buffer p hp := { b.buffer p hp with claimed := (b.buffer p hp).claimed.mono hmono }
  empty := b.empty
  invoked m hm := ⟨(b.invoked m hm).1.mono hmono, (b.invoked m hm).2⟩
  capped m hm := ⟨(b.capped m hm).1.mono hmono, (b.capped m hm).2⟩

end Books

namespace Subscriber

/-- The ledger of a subscriber, with the shares of the given workers. -/
def ledger (s : Subscriber) (workers : List Worker) : Ledger where
  log := s.log
  shared := s.shared
  held c := (workers.map fun w => hit w.pc.hold.held c).sum
  opened c := (workers.map fun w =>
    hit w.pc.hold.opened c + tally (fun p => p.row.timed) c w.buffer).sum
  unissued c := (workers.map fun w => w.pc.hold.unissued w.buffer c).sum
  unsealed c := (workers.map fun w => hit w.pc.hold.unsealed c).sum
  size := (workers.map fun w => w.pc.hold.size + w.buffer.length).sum
  interrupts := 0

/-- The ledger is one worker's share and the others'. -/
theorem ledger_split (s : Subscriber) {workers : List Worker} {i : Nat} {w : Worker}
    (h : workers[i]? = some w) : s.ledger workers =
      (s.ledger (workers.eraseIdx i)).close { shared := s.shared, buffer := w.buffer }
        w.pc.hold := by
  simp only [ledger, Ledger.close, append_nil, Ledger.mk.injEq, true_and, and_true]
  exact ⟨funext fun c => sum_map_split _ h, funext fun c => sum_map_split _ h,
    funext fun c => sum_map_split _ h, funext fun c => sum_map_split _ h, sum_map_split _ h⟩

/-- ... also after that worker took a step. -/
theorem ledger_set (s : Subscriber) {workers : List Worker} {i : Nat} {w : Worker}
    (h : workers[i]? = some w) (w' : Worker) (log : List Note) (f : Frame)
    (hbuffer : w'.buffer = f.buffer) :
    Subscriber.ledger { s with log := log ++ f.notes, shared := f.shared } (workers.set i w') =
      (Subscriber.ledger { s with log := log } (workers.eraseIdx i)).close f w'.pc.hold := by
  simp only [ledger, Ledger.close, Ledger.mk.injEq, true_and, and_true, ← hbuffer]
  exact ⟨funext fun c => sum_map_set _ h w', funext fun c => sum_map_set _ h w',
    funext fun c => sum_map_set _ h w', funext fun c => sum_map_set _ h w', sum_map_set _ h w'⟩

/-- Workers that hold nothing have no share. -/
theorem ledger_of_out (s : Subscriber) {workers : List Worker}
    (h : ∀ w ∈ workers, w.pc.hold = .out ∧ w.buffer = []) : s.ledger workers = s.ledger [] := by
  simp only [ledger, Ledger.mk.injEq, true_and, and_true]
  refine ⟨funext fun c => ?_, funext fun c => ?_, funext fun c => ?_, funext fun c => ?_, ?_⟩ <;>
    refine (sum_map_eq_zero _ fun w hw => ?_) <;>
    simp [(h w hw).1, (h w hw).2]

/-! ## The invariant -/

end Subscriber

/-- A worker at an await. -/
structure Worker.Inv (known : Row → Prop) (cfg : SubscriberConfig) (log : List Note)
    (w : Worker) : Prop where
  buffer : ∀ p ∈ w.buffer, Batchable known cfg p
  empty : w.pc.hold = .out → w.buffer = []
  legit : w.pc.Legit known cfg
  issued : ∀ c, tally some c (w.pc.carried w.buffer) ≤ writes c log

/-- The rows a fetch returns for at most `free` rows under the token. -/
structure Answer (known : Row → Prop) (token : UUID) (free : Nat) (rows : List Row) : Prop where
  length : rows.length ≤ free
  known : ∀ row ∈ rows, known row
  leased : ∀ row ∈ rows, row.acquiredToken = some token
  nodup : (rows.map Row.id).Nodup

/-- The invariant of a subscriber; `known` are the rows its fetches returned. -/
structure Subscriber.Inv (known : Row → Prop) (s : Subscriber) : Prop where
  books : Books known s.cfg (s.ledger s.workers) (s.ledger s.workers).frame .out
  workers : ∀ w ∈ s.workers, w.Inv known s.cfg s.log
  room : s.shared.inflight.length ≤ s.cfg.fetchBatchSize
  /-- The lock is held while a fetch is under way. -/
  locked : s.shared.claimLocked = true ↔
    ∃ token free reply, s.fetch.pc = .fetching token free reply
  /-- What a fetch under way returns finds room, under a token nothing was returned for. -/
  fetching : ∀ token free reply, s.fetch.pc = .fetching token free reply →
    s.shared.inflight.length + free ≤ s.cfg.fetchBatchSize ∧ token ∈ s.drawn ∧
    (∀ id, marks .returned (id, some token) s.log = 0) ∧
    ∀ rows, reply = some (.claimed rows) → Answer known token free rows
  once : ∀ c, marks .returned c s.log ≤ 1
  drawn : ∀ c, 0 < marks .returned c s.log → ∃ token ∈ s.drawn, c.2 = some token

theorem Worker.Inv.mono {known known' : Row → Prop} (hmono : ∀ r, known r → known' r)
    {cfg : SubscriberConfig} {log : List Note} {w : Worker} (h : w.Inv known cfg log) :
    w.Inv known' cfg log where
  buffer p hp := { h.buffer p hp with claimed := (h.buffer p hp).claimed.mono hmono }
  empty := h.empty
  legit := by
    have hlegit := h.legit
    cases hpc : w.pc <;> rw [hpc] at hlegit <;>
      first
        | trivial
        | exact ⟨hlegit.1.mono hmono, hlegit.2⟩
  issued := h.issued

/-- A longer log keeps what it says. -/
theorem Worker.Inv.grow {known : Row → Prop} {cfg : SubscriberConfig} {log : List Note}
    {w : Worker} (h : w.Inv known cfg log) (notes : List Note) :
    w.Inv known cfg (log ++ notes) where
  buffer := h.buffer
  empty := h.empty
  legit := h.legit
  issued c := Nat.le_trans (h.issued c) (writes_le_append c log notes)

theorem Subscriber.Inv.mono {known known' : Row → Prop} (hmono : ∀ r, known r → known' r)
    {s : Subscriber} (h : s.Inv known) : s.Inv known' where
  books := h.books.mono hmono
  workers w hw := (h.workers w hw).mono hmono
  room := h.room
  locked := h.locked
  fetching token free reply hpc := by
    obtain ⟨hroom, hdrawn, hnew, hanswer⟩ := h.fetching token free reply hpc
    refine ⟨hroom, hdrawn, hnew, fun rows hrows => ?_⟩
    have ha := hanswer rows hrows
    exact { ha with known := fun row hrow => hmono row (ha.known row hrow) }
  once := h.once
  drawn := h.drawn

namespace Subscriber

variable {known : Row → Prop} {s s' : Subscriber}

theorem init_inv (known : Row → Prop) (cfg : SubscriberConfig) :
    Inv known { cfg := cfg } where
  books :=
    { balance := fun c => by constructor <;> simp [ledger, Ledger.frame]
      own := fun n hn => by cases hn
      ordered := Ordered.nil
      unfinished := rfl
      fault := rfl
      advances := .refl _
      room := Nat.le_refl _
      queue := fun m hm => by cases hm
      buffer := fun p hp => by cases hp
      empty := fun _ => rfl
      invoked := fun m hm => by cases hm
      capped := fun m hm => by cases hm }
  workers w hw := by cases hw
  room := Nat.zero_le _
  locked := by simp
  fetching token free reply h := by cases h
  once c := Nat.zero_le _
  drawn c h := absurd h (Nat.lt_irrefl 0)

/-! ## Steps of a worker -/

/-- A step of one worker keeps the invariant, and logs what is the workers' to log. -/
theorem afterWorker_inv (h : s.Inv known) {i : Nat} {w : Worker} (hw : s.workers[i]? = some w)
    {act : WorkerAct} {out : Worker.StepOut} (hstep : w.step s.cfg s.shared act = some out) :
    (s.afterWorker i out).Inv known ∧ s.shared.Advances out.frame.shared ∧
      (∀ c, marks .interrupted c out.frame.notes ≤ Worker.interrupts act) ∧
      ∀ n ∈ out.frame.notes, n.aside = false := by
  have hmem : w ∈ s.workers := mem_of_getElem? hw
  have hwinv := h.workers w hmem
  -- take the worker's share off the ledger, move, and put the new share back
  have hbooks := h.books
  rw [s.ledger_split hw] at hbooks
  have hopen := (hbooks.reopen w.pc.hold_settled hwinv.buffer hwinv.empty).allow
    (Worker.interrupts act)
  have hsound := Worker.step_sound hopen hwinv.legit h.room (Nat.le_refl _) hstep
  have hadvances : s.shared.Advances out.frame.shared := hsound.books.advances
  have hlength : out.frame.shared.inflight.length ≤ s.shared.inflight.length :=
    Nat.le_of_add_right_le hsound.books.room
  have hreturned : ∀ c, marks .returned c (s.log ++ out.frame.notes) = marks .returned c s.log := by
    intro c
    rw [marks_append, Note.marks_own hsound.books.own (.inl rfl), Nat.add_zero]
  refine ⟨?_, hadvances, fun c => (hsound.books.balance c).interrupts, hsound.books.own⟩
  exact {
    books := by
      have hset := s.ledger_set hw
        { pc := out.pc
          buffer := out.frame.buffer
          generation := out.generation
          cancelled := out.cancelled } s.log out.frame rfl
      show Books known s.cfg
        (Subscriber.ledger { s with log := s.log ++ out.frame.notes, shared := out.frame.shared }
          (s.workers.set i _)) (Ledger.frame (Subscriber.ledger
          { s with log := s.log ++ out.frame.notes, shared := out.frame.shared }
          (s.workers.set i _))) .out
      rw [hset]
      exact (hsound.books.settle out.pc.hold_settled).allow 0
    workers := fun w' hw' => by
      cases mem_or_eq_of_mem_set hw' with
      | inl hold => exact (h.workers w' hold).grow out.frame.notes
      | inr hnew =>
        rw [hnew]
        exact ⟨hsound.books.buffer, hsound.books.empty, hsound.legit, hsound.issued⟩
    room := Nat.le_trans hlength h.room
    locked := by
      show out.frame.shared.claimLocked = true ↔ _
      rw [hadvances.claimLocked]
      exact h.locked
    fetching := fun token free reply hpc => by
      obtain ⟨hroom, hdrawn, hnew, hanswer⟩ := h.fetching token free reply hpc
      refine ⟨?_, hdrawn, fun id => ?_, hanswer⟩
      · show out.frame.shared.inflight.length + free ≤ s.cfg.fetchBatchSize
        omega
      · exact (hreturned (id, some token)).trans (hnew id)
    once := fun c => by
      show marks .returned c (s.log ++ out.frame.notes) ≤ 1
      rw [hreturned]
      exact h.once c
    drawn := fun c hc => by
      have hc : 0 < marks .returned c (s.log ++ out.frame.notes) := hc
      rw [hreturned] at hc
      exact h.drawn c hc }

/-- A worker that gets its reply keeps the invariant. -/
theorem deliverWorker_inv (h : s.Inv known) {i : Nat} {w : Worker}
    (hw : s.workers[i]? = some w) (reply : Reply) :
    Inv known { s with workers := s.workers.set i (w.deliver reply) } := by
  have hmem : w ∈ s.workers := mem_of_getElem? hw
  have hwinv := h.workers w hmem
  have hsame : (w.deliver reply).pc.hold = w.pc.hold ∧ (w.deliver reply).buffer = w.buffer ∧
      ((w.deliver reply).pc.Legit known s.cfg ↔ w.pc.Legit known s.cfg) ∧
      (w.deliver reply).pc.carried w.buffer = w.pc.carried w.buffer := by
    unfold Worker.deliver
    split
    · rename_i hpc
      simp [hpc, WorkerPc.hold, WorkerPc.Legit, WorkerPc.carried]
    · rename_i hpc
      simp [hpc, WorkerPc.hold, WorkerPc.Legit, WorkerPc.carried]
    · exact ⟨rfl, rfl, Iff.rfl, rfl⟩
  obtain ⟨hhold, hbuffer, hlegit, hcarried⟩ := hsame
  exact {
    books := by
      have hset := s.ledger_set hw (w.deliver reply) s.log
        { shared := s.shared, buffer := w.buffer } hbuffer
      rw [append_nil, hhold, ← ledger_split _ hw] at hset
      show Books known s.cfg (s.ledger (s.workers.set i (w.deliver reply)))
        (s.ledger (s.workers.set i (w.deliver reply))).frame .out
      have hledger : s.ledger (s.workers.set i (w.deliver reply)) = s.ledger s.workers := hset
      rw [hledger]
      exact h.books
    workers := fun w' hw' => by
      cases mem_or_eq_of_mem_set hw' with
      | inl hold => exact h.workers w' hold
      | inr hnew =>
        rw [hnew]
        refine ⟨hbuffer ▸ hwinv.buffer, fun hout => ?_, hlegit.mpr hwinv.legit, ?_⟩
        · rw [hbuffer]
          exact hwinv.empty (hhold ▸ hout)
        · rw [hbuffer, hcarried]
          exact hwinv.issued
    room := h.room
    locked := h.locked
    fetching := h.fetching
    once := h.once
    drawn := h.drawn }

/-! ## Steps of the fetch loop -/

/-- The claims of an answer: each of its rows once, all under its token. -/
theorem answer_tally_le {token : UUID} {free : Nat} {rows : List Row}
    (ha : Answer known token free rows) (c : ClaimKey) (monotonic : Int) :
    tally (fun row => some (OutboxInnerMessage.ofRow row monotonic).key) c rows ≤ 1 ∧
      (0 < tally (fun row => some (OutboxInnerMessage.ofRow row monotonic).key) c rows →
        c.2 = some token) := by
  constructor
  · refine tally_le_one ?_ c
    have hkeys : rows.filterMap (fun row => some (OutboxInnerMessage.ofRow row monotonic).key) =
        (rows.map fun row => (row.id, row.acquiredToken)) := by
      simp [OutboxInnerMessage.ofRow, OutboxInnerMessage.key, filterMap_eq_map']
    rw [hkeys]
    refine Nodup.of_map Prod.fst ?_
    simpa [Function.comp_def] using ha.nodup
  · intro hpos
    obtain ⟨row, hrow, hkey⟩ := tally_pos_iff.mp hpos
    have hc := Option.some_inj.mp hkey
    rw [← hc]
    exact ha.leased row hrow

/-- A fetch is issued, under a token nobody has drawn. -/
theorem claimed_inv (h : s.Inv known) {token : UUID} (hnew : token ∉ s.drawn) :
    (s.afterFetch
      { shared := { s.shared with notifyEvent := false, claimLocked := true }
        pc := .fetching token (FetchTask.free s.cfg s.shared) none
        cancelled := s.fetch.cancelled
        notes := [.fetchIssued]
        drawn := some token }).Inv known := by
  have hreturned : ∀ c, marks .returned c (s.log ++ [.fetchIssued]) =
      marks .returned c s.log := by
    simp [Note.mark]
  exact {
    books := (h.books.logged [.fetchIssued] (by simp [Note.mark])
      (by simp [Note.Follows])).reshared _ rfl rfl rfl
    workers := fun w hw => (h.workers w hw).grow _
    room := h.room
    locked := by simp [afterFetch]
    fetching := fun token' free reply hpc => by
      cases hpc
      refine ⟨?_, mem_append.mpr (.inr mem_cons_self), fun id => ?_, by simp⟩
      · have hroom := h.room
        show s.shared.inflight.length + (s.cfg.fetchBatchSize - s.shared.inflight.length) ≤
          s.cfg.fetchBatchSize
        omega
      · refine Nat.eq_zero_of_not_pos fun hpos => ?_
        have hpos : 0 < marks .returned (id, some token) (s.log ++ [.fetchIssued]) := hpos
        rw [hreturned] at hpos
        obtain ⟨token', hmem, htoken⟩ := h.drawn (id, some token) hpos
        exact hnew (Option.some_inj.mp htoken ▸ hmem)
    once := fun c => (hreturned c).symm ▸ h.once c
    drawn := fun c hc => by
      obtain ⟨token', hmem, htoken⟩ := h.drawn c (hreturned c ▸ hc)
      exact ⟨token', mem_append.mpr (.inl hmem), htoken⟩ }

/-- The rows of a reply are queued. -/
theorem queued_inv (h : s.Inv known) {r : Reading} {token : UUID} {free : Nat} {rows : List Row}
    {pc : FetchPc} (hpc : s.fetch.pc = .fetching token free (some (.claimed rows)))
    (hnext : FetchTask.fetching pc = false) :
    (s.afterFetch
      { shared := FetchTask.enqueue s.cfg s.shared
          (rows.map fun row => OutboxInnerMessage.ofRow row r.monotonic)
        pc := pc
        cancelled := s.fetch.cancelled
        notes := ((rows.map fun row => OutboxInnerMessage.ofRow row r.monotonic).map
            fun m => .returned m.key) ++
          [.metric none .fetched
            { baseTags s.cfg (s.cfg.queues.headD "") with count := some rows.length }] }).Inv
      known := by
  obtain ⟨hroom, hdrawn, hnew, hanswer⟩ := h.fetching _ _ _ hpc
  have ha := hanswer rows rfl
  have hlength := ha.length
  have hmessages : ∀ m ∈ rows.map fun row => OutboxInnerMessage.ofRow row r.monotonic,
      m.Claimed known ∧ m.Fresh := by
    intro m hm
    obtain ⟨row, hrow, rfl⟩ := mem_map.mp hm
    refine ⟨⟨ha.known row hrow, ?_⟩, OutboxInnerMessage.fresh_ofRow row _⟩
    show row.acquiredToken.isSome
    rw [ha.leased row hrow]
    rfl
  obtain ⟨hbooks, hinflight⟩ := h.books.enqueued
    (rows.map fun row => OutboxInnerMessage.ofRow row r.monotonic)
    (by rw [length_map]; exact Nat.le_trans (Nat.add_le_add_left hlength _) hroom) hmessages
  rw [length_map] at hinflight
  generalize hsh : (rows.map fun row => OutboxInnerMessage.ofRow row r.monotonic).foldl
    (Shared.putNowait s.cfg) (s.ledger s.workers).shared = sh at hbooks hinflight
  have hout : FetchTask.enqueue s.cfg s.shared
      (rows.map fun row => OutboxInnerMessage.ofRow row r.monotonic) =
        { sh with claimLocked := false } := by
    rw [← hsh]
    rfl
  rw [hout]
  have hfetched : ∀ c, marks .returned c (s.log ++
      (((rows.map fun row => OutboxInnerMessage.ofRow row r.monotonic).map
        fun m => Note.returned m.key) ++
      [.metric none .fetched
        { baseTags s.cfg (s.cfg.queues.headD "") with count := some rows.length }])) =
      marks .returned c s.log +
        tally (fun row => some (OutboxInnerMessage.ofRow row r.monotonic).key) c rows := by
    intro c
    simp [Note.mark, marks, Function.comp_def]
  exact {
    books := by
      have hlogged := (hbooks.reshared { sh with claimLocked := false } rfl rfl rfl).logged
        [.metric none .fetched
          { baseTags s.cfg (s.cfg.queues.headD "") with count := some rows.length }]
        (by simp) (by simp [Note.Follows, baseTags])
      dsimp only at hlogged
      rw [append_assoc] at hlogged
      exact hlogged
    workers := fun w hw => (h.workers w hw).grow _
    room := by
      show sh.inflight.length ≤ s.cfg.fetchBatchSize
      rw [hinflight]
      exact Nat.le_trans (Nat.add_le_add_left hlength _) hroom
    locked := by
      constructor
      · intro hlock
        cases hlock
      · rintro ⟨token', free', reply', hpc'⟩
        have hpc' : pc = .fetching token' free' reply' := hpc'
        rw [hpc'] at hnext
        cases hnext
    fetching := fun token' free' reply' hpc' => by
      have hpc' : pc = .fetching token' free' reply' := hpc'
      rw [hpc'] at hnext
      cases hnext
    once := fun c => by
      refine Nat.le_trans (Nat.le_of_eq (hfetched c)) ?_
      obtain ⟨hle, htoken⟩ := answer_tally_le ha c r.monotonic
      have honce := h.once c
      by_cases hpos : 0 < tally (fun row =>
          some (OutboxInnerMessage.ofRow row r.monotonic).key) c rows
      · -- nothing was returned under the token before
        have hzero : marks .returned c s.log = 0 := by
          have hzero := hnew c.1
          rwa [← htoken hpos] at hzero
        omega
      · omega
    drawn := fun c hc => by
      have hc := Nat.lt_of_lt_of_eq hc (hfetched c)
      by_cases hpos : 0 < tally (fun row =>
          some (OutboxInnerMessage.ofRow row r.monotonic).key) c rows
      · exact ⟨token, mem_append.mpr (.inl hdrawn), (answer_tally_le ha c r.monotonic).2 hpos⟩
      · obtain ⟨token', hmem, htoken⟩ := h.drawn c (by omega)
        exact ⟨token', mem_append.mpr (.inl hmem), htoken⟩ }

theorem afterFetch_inv (h : s.Inv known) {act : FetchAct} {out : FetchTask.StepOut}
    (hstep : s.fetch.step s.cfg s.shared act = some out)
    (hfresh : ∀ token, act = .claim token → token ∉ s.drawn) : (s.afterFetch out).Inv known := by
  cases FetchTask.step_stepped hstep with
  | @claimed token _ _ => exact claimed_inv h (hfresh token rfl)
  | queued hpc hnext => exact queued_inv h hpc hnext
  | other hshared hlocked hnext hnotes hdrawn horphan =>
    have hidle : ∀ {token free reply}, out.pc ≠ .fetching token free reply := by
      intro token free reply hpc
      rw [hpc] at hnext
      cases hnext
    have hlog : (s.afterFetch out).log = s.log := by
      show s.log ++ out.notes = s.log
      rw [hnotes, append_nil]
    exact {
      books := by
        have hbooks := h.books.reshared out.shared hshared.inflight hshared.unfinished
          hshared.fault
        show Books known s.cfg (ledger { s with log := s.log ++ out.notes, shared := out.shared }
          s.workers) _ .out
        rw [hnotes, append_nil]
        exact hbooks
      workers := fun w hw => (h.workers w hw).grow _
      room := by
        show out.shared.inflight.length ≤ s.cfg.fetchBatchSize
        rw [hshared.inflight]
        exact h.room
      locked := by
        constructor
        · -- a lock that is still held was held outside a fetch
          intro hlock
          have hlock : out.shared.claimLocked = true := hlock
          rw [hlocked, Bool.and_eq_true] at hlock
          obtain ⟨token, free, reply, hpc⟩ := h.locked.mp hlock.1
          rw [hpc] at hlock
          cases hlock.2
        · rintro ⟨_, _, _, hpc⟩
          exact absurd hpc hidle
      fetching := fun _ _ _ hpc => absurd hpc hidle
      once := fun c => by
        rw [hlog]
        exact h.once c
      drawn := fun c hc => by
        rw [hlog] at hc
        obtain ⟨token, hmem, htoken⟩ := h.drawn c hc
        exact ⟨token, mem_append.mpr (.inl hmem), htoken⟩ }

/-- A fetch loop that gets its reply keeps the invariant. -/
theorem deliverFetch_inv (h : s.Inv known) (reply : Reply)
    (hreply : ∀ token free rows, s.fetch.pc = .fetching token free none →
      reply = .claimed rows → Answer known token free rows)
    (hpending : ∃ stmt, s.fetch.pending s.cfg = some stmt) :
    Inv known { s with fetch := s.fetch.deliver reply } := by
  obtain ⟨stmt, hstmt⟩ := hpending
  unfold FetchTask.pending at hstmt
  split at hstmt
  · rename_i token free hpc
    obtain ⟨hroom, hdrawn, hnew, hanswer⟩ := h.fetching token free none hpc
    have hpc' : (s.fetch.deliver reply).pc = .fetching token free (some reply) := by
      unfold FetchTask.deliver
      rw [hpc]
    exact {
      books := h.books
      workers := h.workers
      room := h.room
      locked := by
        show s.shared.claimLocked = true ↔
          ∃ token free reply', (s.fetch.deliver reply).pc = .fetching token free reply'
        rw [hpc', h.locked, hpc]
        simp
      fetching := fun token' free' reply' hpc'' => by
        have hpc'' : (s.fetch.deliver reply).pc = .fetching token' free' reply' := hpc''
        rw [hpc'] at hpc''
        cases hpc''
        exact ⟨hroom, hdrawn, hnew, fun rows hrows =>
          hreply token free rows hpc (Option.some_inj.mp hrows)⟩
      once := h.once
      drawn := h.drawn }
  · cases hstmt

/-! ## Steps of `stop()` and `start` -/

/-- Workers that keep their await and their buffer keep their shares. -/
theorem ledger_map (s : Subscriber) (workers : List Worker) {g : Worker → Worker}
    (hpc : ∀ w, (g w).pc = w.pc) (hbuffer : ∀ w, (g w).buffer = w.buffer) :
    s.ledger (workers.map g) = s.ledger workers := by
  simp only [ledger, map_map, Function.comp_def, hpc, hbuffer]

/-- A step that moves neither the queue nor an await keeps the invariant. -/
theorem quiet_inv (h : s.Inv known) (sh : Shared) (g : Worker → Worker) (fetch : FetchTask)
    (stops : List StopPc) (notes : List Note) (hinflight : sh.inflight = s.shared.inflight)
    (hunfinished : sh.unfinished = s.shared.unfinished) (hfault : sh.fault = s.shared.fault)
    (hlocked : sh.claimLocked = s.shared.claimLocked) (hpc : ∀ w, (g w).pc = w.pc)
    (hbuffer : ∀ w, (g w).buffer = w.buffer) (hfetch : fetch.pc = s.fetch.pc)
    (hmarks : ∀ n ∈ notes, ∀ mk, n.mark mk = none) (hfollows : ∀ n ∈ notes, ∀ log, n.Follows log) :
    Inv known { s with
      shared := sh
      workers := s.workers.map g
      fetch := fetch
      stops := stops
      log := s.log ++ notes } := by
  have hreturned : ∀ c, marks .returned c (s.log ++ notes) = marks .returned c s.log := by
    intro c
    have hzero : marks .returned c notes = 0 := tally_eq_zero fun n hn => by simp [hmarks n hn]
    rw [marks_append, hzero, Nat.add_zero]
  exact {
    books := by
      have hbooks := (h.books.logged notes hmarks hfollows).reshared sh hinflight hunfinished hfault
      -- the ledger reads the await and the buffer of a worker only
      have hmap := ledger_map { s with shared := sh, log := s.log ++ notes } s.workers hpc hbuffer
      show Books known s.cfg
        (ledger { s with shared := sh, log := s.log ++ notes } (s.workers.map g))
        (ledger { s with shared := sh, log := s.log ++ notes } (s.workers.map g)).frame .out
      rw [hmap]
      exact hbooks
    workers := fun w' hw' => by
      obtain ⟨w, hw, rfl⟩ := mem_map.mp hw'
      have hwinv := (h.workers w hw).grow notes
      refine ⟨hbuffer w ▸ hwinv.buffer, ?_, ?_, ?_⟩
      · rw [hpc, hbuffer]
        exact hwinv.empty
      · rw [hpc]
        exact hwinv.legit
      · rw [hpc, hbuffer]
        exact hwinv.issued
    room := by
      show sh.inflight.length ≤ s.cfg.fetchBatchSize
      rw [hinflight]
      exact h.room
    locked := by
      show sh.claimLocked = true ↔ ∃ token free reply, fetch.pc = .fetching token free reply
      rw [hlocked, hfetch]
      exact h.locked
    fetching := fun token free reply hpc' => by
      have hpc' : fetch.pc = .fetching token free reply := hpc'
      obtain ⟨hroom, hdrawn, hnew, hanswer⟩ := h.fetching token free reply (hfetch ▸ hpc')
      refine ⟨?_, hdrawn, fun id => (hreturned _).trans (hnew id), hanswer⟩
      show sh.inflight.length + free ≤ s.cfg.fetchBatchSize
      rw [hinflight]
      exact hroom
    once := fun c => (hreturned c).symm ▸ h.once c
    drawn := fun c hc => h.drawn c (hreturned c ▸ hc) }

/-- Cancelling the tasks moves no await. -/
theorem cancelTasks_eq (s : Subscriber) : ∃ g : Worker → Worker, ∃ fetch : FetchTask,
    (∀ w, (g w).pc = w.pc) ∧ (∀ w, (g w).buffer = w.buffer) ∧ fetch.pc = s.fetch.pc ∧
      s.cancelTasks = { s with workers := s.workers.map g, fetch := fetch } := by
  refine ⟨_, _, fun w => ?_, fun w => ?_, ?_, rfl⟩
  · split <;> rfl
  · split <;> rfl
  · split <;> rfl

theorem afterDrain_inv (h : s.Inv known) (call : Nat) (passedLock timedOut : Bool) :
    (s.afterDrain call passedLock timedOut).Inv known := by
  obtain ⟨g, fetch, hpc, hbuffer, hfetch, hcancel⟩ := s.cancelTasks_eq
  unfold afterDrain
  dsimp only
  rw [hcancel]
  refine quiet_inv h { s.shared with running := false } g fetch _ _ rfl rfl rfl rfl hpc hbuffer
    hfetch ?_ ?_
  · intro n hn mk
    split at hn
    · rw [mem_singleton.mp hn]
      exact Note.mark_metric_none _ _ _
    · cases hn
  · intro n hn log
    split at hn
    · rw [mem_singleton.mp hn]
      simp [Note.Follows, baseTags]
    · cases hn

/-- Workers that have ended have no share on the ledger. -/
theorem idle_of_workersDone (h : s.Inv known) (hdone : s.workersDone = true) :
    ∀ w ∈ s.workers, w.pc.hold = .out ∧ w.buffer = [] := by
  unfold workersDone at hdone
  rw [all_eq_true] at hdone
  intro w hw
  have hw' := hdone w hw
  have hhold : w.pc.hold = .out := by
    cases hpc : w.pc <;> rw [hpc] at hw' <;> first | rfl | cases hw'
  exact ⟨hhold, (h.workers w hw).empty hhold⟩

/-- A subscriber whose tasks have ended has no share on the ledger. -/
theorem idle_of_tasksDone (h : s.Inv known) (hdone : s.tasksDone = true) :
    (∀ w ∈ s.workers, w.pc.hold = .out ∧ w.buffer = []) ∧
    FetchTask.fetching s.fetch.pc = false := by
  unfold tasksDone at hdone
  rw [Bool.and_eq_true] at hdone
  refine ⟨idle_of_workersDone h hdone.1, ?_⟩
  have hf := hdone.2
  cases hpc : s.fetch.pc <;> rw [hpc] at hf <;> first | rfl | cases hf

theorem not_fetching {pc : FetchPc} (h : FetchTask.fetching pc = false) {token : UUID} {free : Nat}
    {reply : Option Reply} : pc ≠ .fetching token free reply := by
  intro hpc
  rw [hpc] at h
  cases h

/-- The tasks of a start find nothing on the ledger. -/
theorem started_inv (h : s.Inv known) (hdone : s.tasksDone = true) :
    Inv known { s with
      shared := { s.shared with running := true, stopping := false }
      workers := replicate s.cfg.maxWorkers {}
      fetch := { pc := .top } } := by
  obtain ⟨hidle, hfetch⟩ := idle_of_tasksDone h hdone
  have hfree : ∀ {token free reply}, s.fetch.pc ≠ .fetching token free reply :=
    not_fetching hfetch
  have hworkers : ∀ w ∈ replicate s.cfg.maxWorkers ({} : Worker),
      w.pc.hold = .out ∧ w.buffer = [] := fun w hw => by
    rw [eq_of_mem_replicate hw]
    exact ⟨rfl, rfl⟩
  exact {
    books := by
      have hbooks := h.books.reshared
        { s.shared with running := true, stopping := false } rfl rfl rfl
      -- neither the old workers nor the new ones hold a share
      rw [s.ledger_of_out hidle, ← s.ledger_of_out hworkers] at hbooks
      exact hbooks
    workers := fun w hw => by
      rw [eq_of_mem_replicate hw]
      exact ⟨fun p hp => (nomatch hp), fun _ => rfl, trivial, fun c => Nat.zero_le _⟩
    room := h.room
    locked := by
      constructor
      · intro hlock
        obtain ⟨token, free, reply, hpc⟩ := h.locked.mp hlock
        exact absurd hpc hfree
      · rintro ⟨_, _, _, hpc⟩
        cases hpc
    fetching := fun _ _ _ hpc => by cases hpc
    once := h.once
    drawn := h.drawn }

/-- `stop()` returns: what is queued is dropped. -/
theorem returned_inv (h : s.Inv known) (hdone : s.tasksDone = true) (stops : List StopPc) :
    Inv known { s with
      shared := s.shared.resetInflight
      workers := []
      stops := stops
      log := s.log ++ s.shared.inflight.map fun m => .discarded m.key } := by
  obtain ⟨hidle, hfetch⟩ := idle_of_tasksDone h hdone
  have hfree : ∀ {token free reply}, s.fetch.pc ≠ .fetching token free reply :=
    not_fetching hfetch
  have hreturned : ∀ c, marks .returned c
      (s.log ++ s.shared.inflight.map fun m => .discarded m.key) = marks .returned c s.log := by
    intro c
    have hzero : marks .returned c (s.shared.inflight.map fun m => .discarded m.key) = 0 :=
      tally_eq_zero fun n hn => by
        obtain ⟨m, _, rfl⟩ := mem_map.mp hn
        simp [Note.mark]
    rw [marks_append, hzero, Nat.add_zero]
  exact {
    books := by
      have hbooks := h.books
      rw [s.ledger_of_out hidle] at hbooks
      exact hbooks.discarded rfl
    workers := fun w hw => by cases hw
    room := Nat.zero_le _
    locked := h.locked
    fetching := fun _ _ _ hpc => absurd hpc hfree
    once := fun c => (hreturned c).symm ▸ h.once c
    drawn := fun c hc => h.drawn c (hreturned c ▸ hc) }

/-- The flags of the shared state and the calls of `stop()` are no part of the invariant. -/
theorem reshared_inv (h : s.Inv known) {sh : Shared} {stops : List StopPc}
    (hinflight : sh.inflight = s.shared.inflight)
    (hunfinished : sh.unfinished = s.shared.unfinished)
    (hfault : sh.fault = s.shared.fault) (hlocked : sh.claimLocked = s.shared.claimLocked) :
    Inv known { s with shared := sh, stops := stops } := by
  have hquiet := quiet_inv h sh id s.fetch stops [] hinflight hunfinished hfault hlocked
    (fun _ => rfl) (fun _ => rfl) rfl (by simp) (by simp)
  rwa [append_nil, map_id] at hquiet

theorem StopMoved.inv (h : s.Inv known) {call : Nat} (hmoved : s.StopMoved call s') :
    s'.Inv known := by
  cases hmoved with
  | begun _ => exact reshared_inv h rfl rfl rfl rfl
  | empty _ _ _ => exact afterDrain_inv h call true false
  | waits _ _ _ => exact reshared_inv h rfl rfl rfl rfl
  | woken _ _ => exact afterDrain_inv h call true false
  | returned _ hdone => exact returned_inv h hdone _

/-- **Every step of a subscriber keeps the invariant**, provided a claim draws a token the
    subscriber has not drawn before. -/
theorem step_inv (h : s.Inv known) {act : SubscriberAct} {orphan : Option Stmt}
    (hstep : s.step act = some (s', orphan))
    (hfresh : ∀ token, act = .fetch (.claim token) → token ∉ s.drawn) : s'.Inv known := by
  cases step_stepped hstep with
  | started hdone _ => exact started_inv h hdone
  | stopCalled => exact reshared_inv h rfl rfl rfl rfl
  | stopRan hmoved => exact hmoved.inv h
  | lockTimedOut _ => exact afterDrain_inv h _ false true
  | joinTimedOut _ => exact afterDrain_inv h _ true true
  | drainAborted _ => exact reshared_inv h rfl rfl rfl rfl
  | @gatherAborted call _ _ _ =>
    -- cancelling the tasks moves none of them
    obtain ⟨g, fetch, hpc, hbuffer, hfetch, hcancel⟩ := s.cancelTasks_eq
    rw [hcancel]
    have hquiet := quiet_inv h s.shared g fetch (s.stops.set call .aborted) [] rfl rfl rfl rfl hpc
      hbuffer hfetch (by simp) (by simp)
    rwa [append_nil] at hquiet
  | notified =>
    have hquiet := quiet_inv h { s.shared with notifyEvent := true } id s.fetch s.stops [.notified]
      rfl rfl rfl rfl (fun _ => rfl) (fun _ => rfl) rfl (by simp [Note.mark])
      (by simp [Note.Follows])
    rwa [map_id] at hquiet
  | ignored => exact h
  | client _ => exact reshared_inv h rfl rfl rfl rfl
  | worker hw hout => exact (afterWorker_inv h hw hout).1
  | fetch hout => exact afterFetch_inv h hout fun token htoken => hfresh token (htoken ▸ rfl)

/-- A step abandons a justified statement, whose claims it has issued. -/
theorem step_orphan (h : s.Inv known) {act : SubscriberAct} {stmt : Stmt}
    (hstep : s.step act = some (s', some stmt)) :
    stmt.Justified known s.cfg ∧ ∀ c, tally some c stmt.keys ≤ writes c s.log := by
  generalize horphan : some stmt = orphan at hstep
  cases step_stepped hstep with
  | worker hw hout =>
    have hwinv := h.workers _ (mem_of_getElem? hw)
    obtain ⟨hjustified, hkeys⟩ := Worker.pending_justified hwinv.buffer hwinv.legit
      (Worker.step_orphan hout horphan.symm)
    exact ⟨hjustified, hkeys ▸ hwinv.issued⟩
  | fetch hout =>
    cases FetchTask.step_stepped hout with
    | claimed _ _ => cases horphan
    | queued _ _ => cases horphan
    | other _ _ _ _ _ hpending =>
      -- an abandoned fetch has no claims yet
      have hstmt := hpending stmt horphan.symm
      unfold FetchTask.pending at hstmt
      split at hstmt
      · obtain rfl := Option.some_inj.mp hstmt
        exact ⟨⟨rfl, rfl⟩, fun c => Nat.zero_le _⟩
      · cases hstmt
  | _ => cases horphan

/-- A step is a worker's, or it logs nothing that is a worker's to log. -/
theorem step_cases {act : SubscriberAct} {orphan : Option Stmt}
    (hstep : s.step act = some (s', orphan)) :
    (∃ index w wact out, act = .worker index wact ∧ s.workers[index]? = some w ∧
      w.step s.cfg s.shared wact = some out ∧ s' = s.afterWorker index out) ∨
    s'.cfg = s.cfg ∧ ∃ notes, s'.log = s.log ++ notes ∧ ∀ n ∈ notes, n.aside = true := by
  have hquiet : ∀ {t : Subscriber}, t.cfg = s.cfg → t.log = s.log →
      t.cfg = s.cfg ∧ ∃ notes, t.log = s.log ++ notes ∧ ∀ n ∈ notes, n.aside = true :=
    fun hcfg hlog => ⟨hcfg, [], by rw [hlog, append_nil], fun n hn => by cases hn⟩
  have hdrain : ∀ call passedLock timedOut, ∃ notes,
      (s.afterDrain call passedLock timedOut).log = s.log ++ notes ∧
        ∀ n ∈ notes, n.aside = true := by
    intro call passedLock timedOut
    refine ⟨_, rfl, fun n hn => ?_⟩
    split at hn
    · rw [mem_singleton.mp hn]
      rfl
    · cases hn
  cases step_stepped hstep with
  | stopRan hmoved =>
    cases hmoved with
    | begun _ => exact .inr (hquiet rfl rfl)
    | empty _ _ _ => exact .inr ⟨rfl, hdrain _ _ _⟩
    | waits _ _ _ => exact .inr (hquiet rfl rfl)
    | woken _ _ => exact .inr ⟨rfl, hdrain _ _ _⟩
    | returned _ _ =>
      -- what is queued is dropped
      refine .inr ⟨rfl, _, rfl, fun n hn => ?_⟩
      obtain ⟨m, _, rfl⟩ := mem_map.mp hn
      rfl
  | lockTimedOut _ => exact .inr ⟨rfl, hdrain _ _ _⟩
  | joinTimedOut _ => exact .inr ⟨rfl, hdrain _ _ _⟩
  | notified => exact .inr ⟨rfl, [.notified], rfl, fun n hn => by rw [mem_singleton.mp hn]; rfl⟩
  | worker hw hout => exact .inl ⟨_, _, _, _, rfl, hw, hout, rfl⟩
  | @fetch _ out hout =>
    refine .inr ⟨rfl, out.notes, rfl, fun n hn => ?_⟩
    cases FetchTask.step_stepped hout with
    | claimed _ _ =>
      rw [mem_singleton.mp hn]
      rfl
    | queued _ _ =>
      rw [mem_append, mem_singleton] at hn
      cases hn with
      | inl hn =>
        obtain ⟨m, _, rfl⟩ := mem_map.mp hn
        rfl
      | inr hn =>
        rw [hn]
        rfl
    | other _ _ _ hnotes _ _ =>
      rw [hnotes] at hn
      cases hn
  | _ => exact .inr (hquiet rfl rfl)

/-- A step keeps the configuration, and what the log says. -/
theorem step_frame {act : SubscriberAct} {orphan : Option Stmt}
    (hstep : s.step act = some (s', orphan)) :
    s'.cfg = s.cfg ∧ ∃ notes, s'.log = s.log ++ notes := by
  cases step_cases hstep with
  | inl hworker =>
    obtain ⟨_, _, _, out, _, _, _, rfl⟩ := hworker
    exact ⟨rfl, out.frame.notes, rfl⟩
  | inr haside =>
    obtain ⟨hcfg, notes, hlog, _⟩ := haside
    exact ⟨hcfg, notes, hlog⟩

end Subscriber

end Outbox
