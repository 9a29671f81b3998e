import Mathlib.Algebra.Order.BigOperators.Group.List
import Mathlib.Algebra.Order.Ring.Nat
import Mathlib.Algebra.Group.Action.Defs
import Outbox.Spec.SubscriberSteps
import Outbox.Spec.SystemInv
import Outbox.Spec.WorkerFrame

/-!
# Bounded prefetch

A subscriber holds claimed rows in three places: in the reply of a fetch that is not queued
yet, on the in-flight queue, and in its workers' hands and buffers. The first two share the
slots of the queue: a fetch asks for the free ones while it holds the claim lock, and a
worker that puts a row back gives up the slot it took. A worker flushes its buffer as soon
as it is full, so it dispatches the next row only with room for it.

## Key results

- `Worker.step_fits`: a worker never holds more than one batch
- `prefetch_bounded`: the bounds, in every state of every run
-/

namespace Outbox

open List

/-! ## What a worker holds -/

/-- The rows a worker is dispatching. -/
def Worker.dispatching (w : Worker) : Nat :=
  match w.pc with
  | .consuming _ _ | .writing _ _ _ _ => 1
  | _ => 0

/-- The rows a worker holds, dispatched and buffered. -/
def Worker.held (w : Worker) : Nat := w.dispatching + w.buffer.length

/-- What a stretch of a worker leaves is no more than one batch, and the worker takes its
    next row only with room for it. -/
structure Fits (cfg : SubscriberConfig) (out : Frame × WorkerPc) : Prop where
  size : out.2.hold.size + out.1.buffer.length ≤ cfg.terminalFlushBatchSize
  room : out.2 = .loop → out.1.buffer.length < cfg.terminalFlushBatchSize

namespace Worker

variable {cfg : SubscriberConfig} {f : Frame}

theorem dispatching_eq (w : Worker) : w.dispatching = w.pc.hold.size := by
  unfold dispatching
  cases w.pc <;> rfl

/-! ## The functions of a worker -/

/-- A batch has room for a row. -/
theorem batch_pos (cfg : SubscriberConfig) : 0 < cfg.terminalFlushBatchSize := cfg.valid.2.2.1

/-- With an empty buffer, every await without a row in hand is fine. -/
theorem fits_of_empty {pc : WorkerPc} (hpc : pc.hold.size = 0) (hbuffer : f.buffer = []) :
    Fits cfg (f, pc) := by
  have hpos := batch_pos cfg
  refine ⟨?_, fun _ => ?_⟩
  · show pc.hold.size + f.buffer.length ≤ _
    rw [hpc, hbuffer]
    exact Nat.zero_le _
  · show f.buffer.length < _
    rw [hbuffer]
    exact hpos

theorem resume_fits (hbuffer : f.buffer = []) (next : AfterFlush) :
    Fits cfg (resume cfg f next) := by
  cases next with
  | exit why =>
    show Fits cfg (f, if cfg.engine then .closing why else afterClose why)
    refine fits_of_empty ?_ hbuffer
    split
    · rfl
    · cases why <;> rfl
  | _ => exact fits_of_empty rfl hbuffer

section Full

/-! The buffer may be full. -/

variable (h : f.buffer.length ≤ cfg.terminalFlushBatchSize)
include h

theorem flushBuffer_fits (next : AfterFlush) : Fits cfg (flushBuffer cfg f next) := by
  unfold flushBuffer
  split
  · rename_i hempty
    exact resume_fits (isEmpty_iff.mp hempty) next
  · refine ⟨?_, fun hpc => nomatch hpc⟩
    show 0 + f.buffer.length ≤ _
    omega

theorem afterDispatch_fits (r : Reading) (m : OutboxInnerMessage) (buffered : Bool) :
    Fits cfg (afterDispatch cfg r f m buffered) := by
  have hended : (if buffered then f.note (.buffered m.key)
      else (f.note (.ended m.key)).taskDone).buffer = f.buffer := by
    split <;> rfl
  unfold afterDispatch
  dsimp only
  generalize (if buffered then f.note (.buffered m.key)
    else (f.note (.ended m.key)).taskDone) = g at hended
  have hfull : g.buffer.length ≤ cfg.terminalFlushBatchSize := hended ▸ h
  cases hbuffer : g.buffer with
  | nil => exact fits_of_empty rfl hbuffer
  | cons oldest rest =>
    dsimp only
    split
    · exact flushBuffer_fits hfull .loop
    · -- a buffer that is not due is not full
      rename_i hdue
      simp only [Bool.or_eq_true, decide_eq_true_eq, not_or, Nat.not_le] at hdue
      have hroom : g.buffer.length < cfg.terminalFlushBatchSize := hbuffer ▸ hdue.1
      refine ⟨?_, fun _ => hroom⟩
      show 0 + g.buffer.length ≤ _
      omega

theorem dispatchRaised_fits (m : OutboxInnerMessage) (why : Exit) :
    Fits cfg (dispatchRaised cfg f m why) :=
  flushBuffer_fits (f := (f.note (.ended m.key)).taskDone) h (.exit why)

theorem abandoned_full (m : OutboxInnerMessage) :
    (f.emitDispatchAbandoned cfg m).buffer.length ≤ cfg.terminalFlushBatchSize := by
  rw [emitDispatchAbandoned_buffer]
  exact h

theorem writeRaised_fits (r : Reading) (m : OutboxInnerMessage) :
    Fits cfg (writeRaised cfg r f m) := by
  unfold writeRaised
  dsimp only
  split
  · exact dispatchRaised_fits (abandoned_full h m) m .error
  · exact afterDispatch_fits (abandoned_full h m) r m false

theorem writeReplied_fits {r : Reading} {m : OutboxInnerMessage} {kind : WriteKind}
    {reply : Reply} {out : Frame × WorkerPc}
    (hout : writeReplied cfg r f m kind reply = some out) : Fits cfg out := by
  unfold writeReplied at hout
  split at hout
  · obtain rfl := Option.some_inj.mp hout
    refine afterDispatch_fits ?_ r m false
    split <;> exact h
  · obtain rfl := Option.some_inj.mp hout
    exact afterDispatch_fits (f := f.emitLeaseLost cfg m .terminal) h r m false
  · obtain rfl := Option.some_inj.mp hout
    exact writeRaised_fits h r m
  · obtain rfl := Option.some_inj.mp hout
    exact afterDispatch_fits (f := f.emitMetric m _ _) h r m false
  · obtain rfl := Option.some_inj.mp hout
    exact afterDispatch_fits (f := f.emitLeaseLost cfg m .retry) h r m false
  · cases hout

end Full

/-- A flush that ends leaves an empty buffer. -/
theorem flushed_fits (deleted : Finset (Nat × UUID)) (next : AfterFlush) :
    Fits cfg (flushed cfg f deleted next) := resume_fits rfl next

theorem flushRaised_fits (next : AfterFlush) (why : Exit) :
    Fits cfg (flushRaised cfg f next why) := by
  unfold flushRaised
  dsimp only
  split
  · exact resume_fits rfl (.exit _)
  · exact flushBuffer_fits (Nat.zero_le _) (.exit why)

theorem cancelAt_fits (h : f.buffer.length ≤ cfg.terminalFlushBatchSize) {pc : WorkerPc}
    (hempty : pc.hold = .out → f.buffer = []) (hpc : ∀ m startPerf, pc ≠ .consuming m startPerf) :
    Fits cfg (cancelAt cfg f pc) := by
  cases pc with
  | loop => exact flushBuffer_fits h (.exit .cancelled)
  | getting => exact flushBuffer_fits h (.exit .cancelled)
  | invalidating => exact flushBuffer_fits h (.exit .cancelled)
  | writing m token kind reply => exact dispatchRaised_fits (abandoned_full h m) m .cancelled
  | flushing next reply => exact flushRaised_fits next .cancelled
  | consuming m startPerf => exact absurd rfl (hpc m startPerf)
  | _ => exact fits_of_empty rfl (hempty rfl)

section Room

/-! The buffer has room for the row in hand. -/

variable (h : f.buffer.length < cfg.terminalFlushBatchSize)
include h

/-- ... so the worker may await with it. -/
theorem fits_of_room {pc : WorkerPc} (hpc : pc.hold.size = 1) : Fits cfg (f, pc) := by
  refine ⟨?_, fun _ => h⟩
  show pc.hold.size + f.buffer.length ≤ _
  omega

theorem flushOrBuffer_fits (r : Reading) (m : OutboxInnerMessage) (event : Event) (tags : Tags)
    (useBuffer : Bool) : Fits cfg (flushOrBuffer cfg r f m event tags useBuffer) := by
  unfold flushOrBuffer
  split
  · refine afterDispatch_fits ?_ r m true
    show (f.buffer ++ [_]).length ≤ _
    rw [length_append]
    exact h
  · split
    · exact afterDispatch_fits (Nat.le_of_lt h) r m false
    · split
      · exact writeRaised_fits (Nat.le_of_lt h) r m
      · exact fits_of_room (f := f.note _) h rfl

theorem writeOutcome_fits (r : Reading) (m : OutboxInnerMessage) (useBuffer : Bool) :
    Fits cfg (writeOutcome cfg r f m useBuffer) := by
  unfold writeOutcome
  split
  · exact afterDispatch_fits (abandoned_full (f := f.note _) (Nat.le_of_lt h) m) r m false
  · dsimp only
    split
    · exact flushOrBuffer_fits h r _ _ _ useBuffer
    · split
      · exact afterDispatch_fits (Nat.le_of_lt h) r _ false
      · exact fits_of_room (f := f.note _) h rfl
    · exact flushOrBuffer_fits h r _ _ _ useBuffer

theorem dispatchOne_fits (r : Reading) (m : OutboxInnerMessage) :
    Fits cfg (dispatchOne cfg r f m) := by
  unfold dispatchOne
  dsimp only
  split
  · exact flushOrBuffer_fits (f := f.note _) h r _ _ _ true
  · split
    · exact fits_of_room (f := (f.emitMetric _ _ _).note _) h rfl
    · exact writeOutcome_fits (f := f.emitMetric _ _ _) h r _ true

theorem handle_fits (r : Reading) (generation : Nat) (m : OutboxInnerMessage) :
    Fits cfg (handle cfg r generation f m) := by
  unfold handle
  split
  · refine flushBuffer_fits ?_ .stale
    exact Nat.le_of_lt h
  · refine dispatchOne_fits ?_ r m
    exact h

theorem consumeEnded_fits (how : ConsumeEnd) (acts : List HandlerAct) (r : Reading)
    (m : OutboxInnerMessage) (startPerf : Int) :
    Fits cfg (consumeEnded cfg how acts r f m startPerf) := by
  unfold consumeEnded
  dsimp only
  split
  · exact writeOutcome_fits h r _ true
  · exact writeOutcome_fits h r _ true
  · exact writeOutcome_fits h r _ false
  · exact afterDispatch_fits (abandoned_full (f := f.note _) (Nat.le_of_lt h) _) r _ false
  · exact dispatchRaised_fits (f := f.note _) (Nat.le_of_lt h) _ .cancelled

end Room

/-! ## Steps -/

/-- **A worker never holds more than one batch.** -/
theorem step_fits {sh : Shared} {w : Worker}
    (h : Fits cfg ({ shared := sh, buffer := w.buffer }, w.pc))
    (hempty : w.pc.hold = .out → w.buffer = []) {act : WorkerAct} {out : StepOut}
    (hstep : step cfg sh w act = some out) : Fits cfg (out.frame, out.pc) := by
  have hfull : w.buffer.length ≤ cfg.terminalFlushBatchSize :=
    Nat.le_trans (Nat.le_add_left _ _) h.size
  cases step_stepped hstep with
  | connects hpc _ | enters hpc _ | ends hpc _ | opened hpc | openFailed hpc | closeFailed hpc
  | retries hpc => exact fits_of_empty rfl (hempty (by rw [hpc]; rfl))
  | stops _ _ => exact flushBuffer_fits hfull (.exit .normal)
  | idles _ _ => exact flushBuffer_fits hfull .get
  | took hpc _ =>
    refine handle_fits ?_ _ _ _
    exact h.room hpc
  | awaited hpc _ =>
    -- the buffer was flushed before
    have hbuffer := hempty (by rw [hpc]; rfl)
    refine handle_fits ?_ _ _ _
    show w.buffer.length < _
    rw [hbuffer]
    exact batch_pos cfg
  | consumed hpc =>
    refine consumeEnded_fits ?_ _ _ _ _ _
    have hsize := h.size
    rw [hpc] at hsize
    show w.buffer.length < _
    simp only [WorkerPc.hold, Hold.size] at hsize
    omega
  | wrote _ hnext => exact writeReplied_fits hfull hnext
  | writeFailed _ => exact writeRaised_fits hfull _ _
  | deleted _ => exact flushed_fits _ _
  | flushFailed _ => exact flushRaised_fits _ _
  | invalidated _ | invalidateFailed _ => exact flushBuffer_fits hfull _
  | @closed why hpc =>
    refine fits_of_empty ?_ (hempty (by rw [hpc]; rfl))
    cases why <;> rfl
  | cancelled hconsuming _ _ => exact cancelAt_fits hfull hempty hconsuming

end Worker

/-! ## One subscriber -/

namespace Subscriber

/-- The rows of a fetch that has returned, before they are queued. -/
def arriving (s : Subscriber) : Nat :=
  match s.fetch.pc with
  | .fetching _ _ (some (.claimed rows)) => rows.length
  | _ => 0

/-- The claimed rows a subscriber holds in memory. -/
def inMemory (s : Subscriber) : Nat :=
  s.arriving + s.shared.inflight.length + (s.workers.map Worker.held).sum

/-- The bounds of the prefetch. -/
structure Bounded (s : Subscriber) : Prop where
  /-- No `put_nowait` has found the queue full, and no `task_done` nothing unfinished. -/
  fault : s.shared.fault = false
  queue : s.shared.inflight.length ≤ s.cfg.fetchBatchSize
  worker : ∀ w ∈ s.workers, w.held ≤ s.cfg.terminalFlushBatchSize
  workers : s.workers.length ≤ s.cfg.maxWorkers
  total : s.inMemory ≤ s.cfg.fetchBatchSize + s.cfg.maxWorkers * s.cfg.terminalFlushBatchSize

/-- The workers of a subscriber hold one batch each. -/
structure Holds (s : Subscriber) : Prop where
  workers : s.workers.length ≤ s.cfg.maxWorkers
  fits : ∀ w ∈ s.workers, Fits s.cfg ({ shared := s.shared, buffer := w.buffer }, w.pc)

variable {known : Row → Prop} {s s' : Subscriber}

/-- Whether a worker fits is up to its buffer and its await. -/
theorem fits_congr {cfg : SubscriberConfig} {f f' : Frame} {pc : WorkerPc} (h : Fits cfg (f, pc))
    (hbuffer : f'.buffer = f.buffer) : Fits cfg (f', pc) where
  size := by rw [hbuffer]; exact h.size
  room := by rw [hbuffer]; exact h.room

/-- The workers wait where they waited, or have just been created. -/
theorem Holds.stands (h : s.Holds) (hstands : s.Stands s') : s'.Holds where
  workers := by
    rw [hstands.cfg]
    exact hstands.length h.workers
  fits w' hw' := by
    obtain ⟨j, hj⟩ := mem_iff_getElem?.mp hw'
    rw [hstands.cfg]
    cases hstands.workers j w' hj with
    | inl hnew =>
      rw [hnew]
      exact Worker.fits_of_empty rfl rfl
    | inr hold =>
      obtain ⟨w, hw, heq⟩ := hold
      rw [heq]
      exact fits_congr (h.fits w (mem_of_getElem? hw)) rfl

/-- One worker of the list has moved, or has got a reply. -/
theorem Holds.set (h : s.Holds) {i : Nat} {w' : Worker} (hcfg : s'.cfg = s.cfg)
    (hworkers : s'.workers = s.workers.set i w')
    (hfits : Fits s.cfg ({ shared := s'.shared, buffer := w'.buffer }, w'.pc)) : s'.Holds where
  workers := by
    rw [hworkers, hcfg, length_set]
    exact h.workers
  fits w hw := by
    rw [hworkers] at hw
    rw [hcfg]
    cases mem_or_eq_of_mem_set hw with
    | inl hold => exact fits_congr (h.fits w hold) rfl
    | inr hnew =>
      rw [hnew]
      exact hfits

theorem step_holds (hinv : s.Inv known) (h : s.Holds) {act : SubscriberAct}
    {orphan : Option Stmt} (hstep : s.step act = some (s', orphan)) : s'.Holds := by
  rcases step_stands hstep with
    ⟨j, w, wact, out, rfl, hw, hout, rfl⟩ | ⟨fact, out, rfl, hout, rfl⟩ | ⟨_, _, hstands⟩
  · have hmem := mem_of_getElem? hw
    exact h.set rfl rfl
      (fits_congr (Worker.step_fits (h.fits w hmem) (hinv.workers w hmem).empty hout) rfl)
  · -- the fetch loop has no hand in the workers' batches
    exact ⟨h.workers, fun w hw => fits_congr (h.fits w hw) rfl⟩
  · exact h.stands hstands

/-- The rows of a reply have their slots. -/
theorem Inv.arriving_le (h : s.Inv known) :
    s.arriving + s.shared.inflight.length ≤ s.cfg.fetchBatchSize := by
  have hroom := h.room
  unfold arriving
  split
  · rename_i token free rows hpc
    obtain ⟨hfree, _, _, hanswer⟩ := h.fetching _ _ _ hpc
    have hlength := (hanswer rows rfl).length
    omega
  · omega

theorem Inv.bounded (hinv : s.Inv known) (h : s.Holds) : s.Bounded := by
  have hworker : ∀ w ∈ s.workers, w.held ≤ s.cfg.terminalFlushBatchSize := by
    intro w hw
    rw [Worker.held, Worker.dispatching_eq]
    exact (h.fits w hw).size
  have hsum : (s.workers.map Worker.held).sum ≤
      s.workers.length * s.cfg.terminalFlushBatchSize := by
    have hle := sum_le_card_nsmul (s.workers.map Worker.held) s.cfg.terminalFlushBatchSize
      fun n hn => by
        obtain ⟨w, hw, rfl⟩ := mem_map.mp hn
        exact hworker w hw
    rwa [length_map, smul_eq_mul] at hle
  refine ⟨hinv.books.fault, hinv.room, hworker, h.workers, ?_⟩
  calc s.inMemory
      ≤ s.cfg.fetchBatchSize + (s.workers.map Worker.held).sum :=
        Nat.add_le_add_right hinv.arriving_le _
    _ ≤ s.cfg.fetchBatchSize + s.workers.length * s.cfg.terminalFlushBatchSize :=
        Nat.add_le_add_left hsum _
    _ ≤ s.cfg.fetchBatchSize + s.cfg.maxWorkers * s.cfg.terminalFlushBatchSize :=
        Nat.add_le_add_left (Nat.mul_le_mul_right _ h.workers) _

end Subscriber

/-! ## The claim -/

/-- **The prefetch is bounded**, in every state of every run: no `put_nowait` ever finds the
    queue full, and a subscriber holds no more rows than the slots of its queue and one batch
    for each worker. -/
theorem prefetch_bounded (b : Backend) (start : Int) (cfgs : List SubscriberConfig)
    (acts : List Act) :
    ∀ sub ∈ ((System.init start cfgs).run b acts).subscribers, sub.Bounded := by
  intro sub hmem
  obtain ⟨index, hsub⟩ := mem_iff_getElem?.mp hmem
  have hinv := (System.run_inv b start cfgs acts).subscribers index sub hsub
  refine hinv.bounded (System.run_subscribers (P := Subscriber.Holds)
    (fun cfg _ => ⟨Nat.zero_le _, fun w hw => nomatch hw⟩) acts ?_ ?_ ?_ index sub hsub)
  · intro s s' known _ act orphan _ hinv hholds hstep
    exact Subscriber.step_holds hinv hholds hstep
  · intro s i w reply hholds hw
    have hfits := hholds.fits w (mem_of_getElem? hw)
    refine hholds.set rfl rfl ?_
    -- a reply changes neither the hold nor the buffer
    unfold Worker.deliver
    split
    · rename_i hpc
      rw [hpc] at hfits
      exact ⟨hfits.size, fun hloop => nomatch hloop⟩
    · rename_i hpc
      rw [hpc] at hfits
      exact ⟨hfits.size, fun hloop => nomatch hloop⟩
    · exact hfits
  · intro s reply hholds
    exact ⟨hholds.workers, fun w hw => Subscriber.fits_congr (hholds.fits w hw) rfl⟩

/-- Two rows for one slot: the second stays in the table while the worker has the first. -/
def twoRowsActs : List Act :=
  .external (.insert 0 { queue := "orders", payload := [2] }) :: consumingActs

theorem prefetch_bounded_twoRowsRun : ∃ sub : Subscriber,
    ((System.init 0 [plainConfig]).run .postgres twoRowsActs).subscribers = [sub] ∧
    sub.inMemory = 1 ∧ sub.Bounded := by
  have hrun : ((System.init 0 [plainConfig]).run .postgres twoRowsActs).subscribers.map
      Subscriber.inMemory = [1] := by decide
  obtain ⟨sub, rest, hsubs, hsub, hrest⟩ := map_eq_cons_iff.mp hrun
  obtain rfl := map_eq_nil_iff.mp hrest
  exact ⟨sub, hsubs, hsub,
    prefetch_bounded .postgres 0 [plainConfig] twoRowsActs sub (hsubs ▸ mem_cons_self)⟩

end Outbox
