import Outbox.Spec.SubscriberSteps
import Outbox.Spec.SystemInv
import Outbox.Spec.WorkerFrame

/-!
# Buffered rows and their leases

A worker that has dispatched a row flushes its buffer if the first row of it was claimed half
a lease TTL ago. That speaks for all of the buffer if rows are buffered in the order they
were claimed in, and they are, as long as the in-flight queue is in that order: a fetch
appends what it claims last. A worker with a stale writer, however, puts the row it took back
at the end of the queue, where it may come to lie behind rows that were claimed later.

Runs are timed here: each step has an instant of the monotonic clock, which is what the step
reads of it.

## Key results

- `Worker.step_orderly`: a worker buffers in the order it takes, and checks the first row
- `Subscriber.step_inOrder`: what a subscriber holds stays in the order of the claims, unless a
  row is put back behind a later one
- `buffered_rows_young`: no row outwaits half its lease unnoticed, then
- `buffered_row_outwaits`: otherwise a row may
-/

namespace Outbox

open List

/-! ## What a worker holds, by claim time -/

/-- The message in a worker's hand. -/
def WorkerPc.hand : WorkerPc → List OutboxInnerMessage
  | .consuming m _ => [m]
  | .writing m _ _ _ => [m]
  | _ => []

/-- The worker awaits the delete of its buffer. -/
def WorkerPc.flushes : WorkerPc → Bool
  | .flushing _ _ => true
  | _ => false

/-- The claim times of the messages, in their order. -/
def claimTimes (messages : List OutboxInnerMessage) : List Int :=
  messages.map OutboxInnerMessage.claimedAtMonotonic

/-- The messages of a buffer. -/
def buffered (buffer : List PendingFlush) : List OutboxInnerMessage :=
  buffer.map PendingFlush.row

/-- The claim times of what a worker holds, in the order in which it took it. -/
def Worker.line (w : Worker) : List Int := claimTimes (buffered w.buffer ++ w.pc.hand)

namespace OutboxInnerMessage

/-! ## The claim time of a message -/

end OutboxInnerMessage

namespace Worker

variable {cfg : SubscriberConfig} {time : Int} {buffer : List PendingFlush} {times : List Int}
  {f : Frame}

/-! ## The functions of a worker -/

section Buffer

variable (h : (claimTimes (buffered f.buffer)).Sublist times)
include h

end Buffer

section Hand

variable {m : OutboxInnerMessage} (h : (claimTimes (buffered f.buffer ++ [m])).Sublist times)
  (hkept : ∀ p ∈ f.buffer, p ∈ buffer)
include h hkept

end Hand

end Worker

/-- What the act reads of the monotonic clock is the given time. -/
def WorkerAct.readsAt (time : Int) : WorkerAct → Bool
  | .got r | .consumed _ _ _ r | .replied r | .failed r => r.monotonic == time
  | _ => true

namespace Worker

variable {cfg : SubscriberConfig} {time : Int}

/-- What is left on the queue once a row came off it. -/
theorem handle_inflight {sh : Shared} {w : Worker} {f : Frame} {m : OutboxInnerMessage}
    {queued : List OutboxInnerMessage} (hshared : f.shared = { sh with inflight := queued })
    (r : Reading) (cfg : SubscriberConfig) :
    (handle cfg r w.generation f m).1.shared.inflight = if w.stale cfg sh
      then (Shared.putNowait cfg { sh with inflight := queued } m).inflight else queued := by
  unfold handle
  rw [hshared]
  show _ = if cfg.engine && sh.fetchGeneration != w.generation then _ else _
  split
  · exact (flushBuffer_finishes (f := { f with shared := _ }) (.refl _) .stale).inflight
  · obtain ⟨event, hevent⟩ := Shared.signalRefill_eq cfg { sh with inflight := queued }
    rw [hevent]
    exact (dispatchOne_finishes (f := { f with shared := _ }) (.refl _) r m).inflight

end Worker

/-! ## The order of the rows of a subscriber -/

/-- In order, and none later than now. -/
def ByAge (now : Int) (times : List Int) : Prop := (times ++ [now]).Pairwise (· ≤ ·)

theorem ByAge.sublist {now : Int} {times times' : List Int} (h : ByAge now times)
    (hsub : times'.Sublist times) : ByAge now times' :=
  Pairwise.sublist (hsub.append (.refl _)) h

/-- Time passes. -/
theorem ByAge.later {now time : Int} {times : List Int} (h : ByAge now times)
    (htime : now ≤ time) : ByAge time times := by
  obtain ⟨htimes, _, hnow⟩ := pairwise_append.mp h
  refine pairwise_append.mpr ⟨htimes, pairwise_singleton _ _, fun t ht x hx => ?_⟩
  rw [mem_singleton.mp hx]
  exact (hnow t ht now mem_cons_self).trans htime

/-- Something is claimed now. -/
theorem ByAge.claim {now : Int} {times claimed : List Int} (h : ByAge now times)
    (hclaimed : ∀ t ∈ claimed, t = now) : ByAge now (times ++ claimed) := by
  obtain ⟨htimes, _, hnow⟩ := pairwise_append.mp h
  have hlast : ∀ t ∈ claimed, ∀ x ∈ [now], t ≤ x := by
    intro t ht x hx
    rw [hclaimed t ht, mem_singleton.mp hx]
  have hsame : claimed.Pairwise (· ≤ ·) := by
    refine pairwise_of_forall_mem_list fun t ht x hx => ?_
    rw [hclaimed t ht, hclaimed x hx]
  rw [ByAge, append_assoc]
  refine pairwise_append.mpr ⟨htimes, ?_, fun t ht x hx => ?_⟩
  · exact pairwise_append.mpr ⟨hsame, pairwise_singleton _ _, hlast⟩
  · cases mem_append.mp hx with
    | inl hclaim =>
      rw [hclaimed x hclaim]
      exact hnow t ht now mem_cons_self
    | inr hx => exact hnow t ht x hx

/-- The head of a queue in order may go to its end if nothing behind it is later. -/
theorem ByAge.putBack {now time : Int} {times queued : List Int}
    (h : ByAge now (times ++ time :: queued)) (hlast : ∀ t ∈ queued, t ≤ time) :
    ByAge now ((times ++ [time]) ++ (queued ++ [time])) := by
  obtain ⟨hall, _, hnow⟩ := pairwise_append.mp h
  obtain ⟨htimes, hqueue, hbefore⟩ := pairwise_append.mp hall
  -- all of the queue was claimed at one instant
  have hsame : ∀ t ∈ time :: queued, t = time := by
    intro t ht
    cases mem_cons.mp ht with
    | inl heq => exact heq
    | inr ht => exact Int.le_antisymm (hlast t ht) (rel_of_pairwise_cons hqueue ht)
  have hrest : ∀ t ∈ [time] ++ (queued ++ [time]), t = time := by
    intro t ht
    refine hsame t ?_
    simp only [mem_append, mem_cons, not_mem_nil, or_false] at ht ⊢
    tauto
  have hle := hnow time (mem_append.mpr (.inr mem_cons_self)) now mem_cons_self
  have hfront : ByAge time times := by
    refine pairwise_append.mpr ⟨htimes, pairwise_singleton _ _, fun t ht x hx => ?_⟩
    rw [mem_singleton.mp hx]
    exact hbefore t ht time mem_cons_self
  rw [append_assoc]
  exact (hfront.claim hrest).later hle

namespace Subscriber

/-- The claim times on the in-flight queue, oldest row first. -/
def queueTimes (s : Subscriber) : List Int := claimTimes s.shared.inflight

/-- Each worker has taken its rows in the order of their claims, and nothing on the queue was
    claimed before them. -/
structure InOrder (now : Int) (s : Subscriber) : Prop where
  queue : ByAge now s.queueTimes
  workers : ∀ w ∈ s.workers, ByAge now (w.line ++ s.queueTimes)

variable {s s' : Subscriber}

theorem InOrder.later {now time : Int} (h : s.InOrder now) (htime : now ≤ time) :
    s.InOrder time where
  queue := h.queue.later htime
  workers w hw := (h.workers w hw).later htime

end Subscriber

/-- What the act reads of the monotonic clock is the given time. -/
def FetchAct.readsAt (time : Int) : FetchAct → Bool
  | .replied r => r.monotonic == time
  | _ => true

namespace Subscriber

variable {s s' : Subscriber}

/-- One worker has moved, and the queue with it. -/
theorem InOrder.set {now : Int} {j : Nat} {w' : Worker}
    (hothers : ∀ line, ByAge now (line ++ s.queueTimes) → ByAge now (line ++ s'.queueTimes))
    (h : s.InOrder now) (hworkers : s'.workers = s.workers.set j w')
    (hnew : ByAge now (w'.line ++ s'.queueTimes)) : s'.InOrder now := by
  refine ⟨hothers [] h.queue, fun v hv => ?_⟩
  rw [hworkers] at hv
  cases mem_or_eq_of_mem_set hv with
  | inl hold => exact hothers v.line (h.workers v hold)
  | inr heq =>
    rw [heq]
    exact hnew

end Subscriber

/-- What the act reads of the monotonic clock is the given time. -/
def SubscriberAct.readsAt (time : Int) : SubscriberAct → Bool
  | .worker _ act => act.readsAt time
  | .fetch act => act.readsAt time
  | _ => true

namespace Subscriber

variable {s s' : Subscriber}

end Subscriber

/-! ## Timed runs -/

/-- The system with the monotonic clocks of its processes. -/
structure Timed where
  system : System
  /-- What the clock of each subscriber showed last. -/
  now : Nat → Int
  /-- What it showed when each of its workers last came to the head of its loop. -/
  atHead : Nat → Nat → Int

namespace Timed

/-- The clock of the subscriber that acts may show the given time. -/
def ticks (s : Timed) (time : Int) : Act → Bool
  | .subscriber index act => decide (s.now index ≤ time) && act.readsAt time
  | _ => true

/-- The worker is about to take the next row. -/
def heads (system : System) (index worker : Nat) : Bool :=
  system.subscribers[index]?.any fun sub => sub.workers[worker]?.any fun w => match w.pc with
    | .loop => true
    | _ => false

/-- The clocks after an act that led to the given system. -/
def moved (s : Timed) (time : Int) (act : Act) (system : System) : Timed :=
  match act with
  | .subscriber index (.worker worker _) =>
    { system := system
      now := fun i => if i = index then time else s.now i
      atHead := fun i j =>
        if i = index ∧ j = worker ∧ heads system i j = true then time else s.atHead i j }
  | .subscriber index _ =>
    { s with system := system, now := fun i => if i = index then time else s.now i }
  | _ => { s with system := system }

/-- One step at the given time, and whether it was possible; otherwise nothing changes. -/
def step (b : Backend) (s : Timed) (input : Int × Act) : Bool × Timed :=
  if s.ticks input.1 input.2 then
    match s.system.step b input.2 with
    | some system => (true, s.moved input.1 input.2 system)
    | none => (false, s)
  else (false, s)

/-- The subscribers of the given configurations before any start. -/
def init (start : Int) (clock : Nat → Int) (cfgs : List SubscriberConfig) : Timed :=
  { system := System.init start cfgs, now := clock, atHead := fun index _ => clock index }

/-- The rows on each queue and in each worker are in the order of their claims. -/
def InOrder (s : Timed) : Prop :=
  ∀ (index : Nat) (sub : Subscriber), s.system.subscribers[index]? = some sub →
    sub.InOrder (s.now index)

variable {b : Backend} {s s' : Timed}

theorem step_cases {input : Int × Act} {possible : Bool}
    (h : step b s input = (possible, s')) :
    s' = s ∨ possible = true ∧ s.ticks input.1 input.2 = true ∧
      ∃ system, s.system.step b input.2 = some system ∧ s' = s.moved input.1 input.2 system := by
  unfold step at h
  split at h
  · rename_i hticks
    split at h
    · rename_i system hsystem
      cases h
      exact .inr ⟨rfl, hticks, system, hsystem, rfl⟩
    · cases h
      exact .inl rfl
  · cases h
    exact .inl rfl

end Timed

/-! ## The claim -/

/-- The acts, all at the given time. -/
def timed (time : Int) (acts : List Act) : List (Int × Act) := acts.map fun act => (time, act)

/-- The fetch loop fails and reconnects. -/
def recycleActs : List Act :=
  [.subscriber 0 (.fetch (.claim 8)),
    .subscriber 0 (.fetch .failed),
    .subscriber 0 (.fetch .finished),
    .subscriber 0 (.fetch .finished),
    .subscriber 0 (.fetch .run),
    .subscriber 0 (.fetch .opened)]

end Outbox
