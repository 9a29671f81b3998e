import Outbox.Native.Worker

/-!
# The fetch loop and `stop()`

`_fetch_loop` as a state machine, in the manner of the workers, and the calls of `stop()`.
Several calls of `stop()` may run at once: a handler that raises `StopConsume` spawns one.
The claim lock is held from before the fetch is issued until its rows are queued; `stop()`
takes it and releases it in one stretch, so the fetch loop never waits for it.
-/

namespace Outbox

/-! ## The fetch loop -/

/-- What a wait of the fetch loop is for. -/
inductive Wait where
  /-- For the workers to free slots of a queue that is too full. -/
  | refill
  /-- For a NOTIFY, or the next poll, after a fetch that returned nothing. -/
  | idle
deriving DecidableEq, Repr

/-- The await the fetch loop is suspended at. -/
inductive FetchPc where
  /-- The `while` of `_run_with_reconnect`. -/
  | top
  /-- Opening the LISTEN and the fetch connection. -/
  | opening
  /-- The `while` of `_fetch_inner`. -/
  | inner
  /-- The `SELECT 1` probe of the LISTEN connection. -/
  | probing
  /-- `_wait_for_notify_or_timeout`. -/
  | waiting (wait : Wait)
  /-- The client's `fetch`, under the claim lock. -/
  | fetching (token : UUID) (free : Nat) (reply : Option Reply)
  /-- Closing the connections. -/
  | closing (why : Exit)
  /-- The backoff after an error. -/
  | backoff
  | done

/-- The fetch task. -/
structure FetchTask where
  pc : FetchPc := .done
  /-- A cancellation was requested and not delivered yet. -/
  cancelled : Bool := false

/-- What resumes the fetch loop. -/
inductive FetchAct where
  /-- Run on from a point where the code does not wait. -/
  | run
  /-- The connections are open. -/
  | opened
  /-- The health check of the LISTEN connection is due. -/
  | probe
  /-- Claim, under a token just drawn. -/
  | claim (token : UUID)
  /-- The fetch returned. -/
  | replied (r : Reading)
  /-- The awaited call raised an `Exception`, or ran into its timeout. -/
  | failed
  /-- The awaited wait, close or sleep is over. -/
  | finished
  /-- The requested `CancelledError` is raised at the await. -/
  | cancel
deriving DecidableEq, Repr

namespace FetchTask

variable (cfg : SubscriberConfig)

/-- What a step of the fetch loop leaves. -/
structure StepOut where
  shared : Shared
  pc : FetchPc
  cancelled : Bool
  notes : List Note := []
  /-- The token a claim drew. -/
  drawn : Option UUID := none
  /-- A fetch that was abandoned before its reply. -/
  orphan : Option Stmt := none

/-- The free slots of the in-flight queue. -/
def free (sh : Shared) : Nat := cfg.fetchBatchSize - sh.inflight.length

/-- `_run_with_reconnect` after the connections are closed: an error also makes every
    worker's writer stale. -/
def afterClose (sh : Shared) (why : Exit) : Shared × FetchPc :=
  match why with
  | .normal | .stale => (sh, .top)
  | .error => ({ sh with fetchGeneration := sh.fetchGeneration + 1 }, .backoff)
  | .cancelled => (sh, .done)

/-- Leave the connections' context manager. -/
def leave (sh : Shared) (why : Exit) : Shared × FetchPc :=
  if cfg.engine then (sh, .closing why) else afterClose sh why

/-- The rows a fetch returned, put on the in-flight queue under the claim lock. -/
def enqueue (sh : Shared) (rows : List OutboxInnerMessage) : Shared :=
  { rows.foldl (Shared.putNowait cfg) sh with claimLocked := false }

/-- The statement the fetch loop awaits, unless its reply is there. -/
def pending (t : FetchTask) : Option Stmt :=
  match t.pc with
  | .fetching token free none => some (.fetch token cfg.queues free cfg.leaseTtlSeconds)
  | _ => none

/-- The fetch loop with the reply of its statement. -/
def deliver (t : FetchTask) (reply : Reply) : FetchTask :=
  match t.pc with
  | .fetching token free _ => { t with pc := .fetching token free (some reply) }
  | _ => t

/-- The rest of an iteration of `_fetch_inner`, from the refill check to the fetch. -/
def claim (sh : Shared) (cancelled : Bool) (token : UUID) : Option StepOut :=
  if free cfg sh < cfg.refillAt then
    none
  else if sh.stopping then
    -- the lock was free, and the drain has begun
    let next := leave cfg { sh with notifyEvent := false } .normal
    some { shared := next.1, pc := next.2, cancelled := cancelled }
  else
    some {
      shared := { sh with notifyEvent := false, claimLocked := true }
      pc := .fetching token (free cfg sh) none
      cancelled := cancelled
      notes := [.fetchIssued]
      drawn := some token }

/-- One step of the fetch loop; `none` if the act cannot resume it. -/
def step (sh : Shared) (t : FetchTask) (act : FetchAct) : Option StepOut :=
  let out (next : Shared × FetchPc) : StepOut :=
    { shared := next.1, pc := next.2, cancelled := t.cancelled }
  let looping := sh.running && !sh.stopping
  match act, t.pc with
  | .run, .top =>
    if looping && !sh.clientGone then some (out (sh, if cfg.engine then .opening else .inner))
    else some (out (sh, .done))
  | .opened, .opening => some (out (sh, .inner))
  | .failed, .opening => some (out (afterClose sh .error))
  | .run, .inner =>
    if !looping then some (out (leave cfg sh .normal))
    -- too few free slots: wait for the workers
    else if free cfg sh < cfg.refillAt then some (out (sh, .waiting .refill))
    else none
  | .probe, .inner => if looping && cfg.engine then some (out (sh, .probing)) else none
  | .claim token, .inner => if looping then claim cfg sh t.cancelled token else none
  -- the loop condition is not read again after the probe
  | .run, .probing =>
    if free cfg sh < cfg.refillAt then some (out (sh, .waiting .refill)) else none
  | .claim token, .probing => claim cfg sh t.cancelled token
  | .failed, .probing => some (out (leave cfg sh .error))
  | .finished, .waiting _ => some (out ({ sh with notifyEvent := false }, .inner))
  | .replied r, .fetching _ _ (some (.claimed rows)) =>
    let messages := rows.map fun row => OutboxInnerMessage.ofRow row r.monotonic
    some {
      shared := enqueue cfg sh messages
      pc := if rows.isEmpty then .waiting .idle else .inner
      cancelled := t.cancelled
      notes := (messages.map fun m => .returned m.key) ++
        [.metric none .fetched
          { baseTags cfg (cfg.queues.headD "") with count := some rows.length }] }
  | .failed, .fetching _ _ _ =>
    some { out (leave cfg { sh with claimLocked := false } .error) with orphan := t.pending cfg }
  | .finished, .closing why => some (out (afterClose sh why))
  | .failed, .closing _ => some (out (afterClose sh .error))
  | .finished, .backoff => some (out (sh, .top))
  | .cancel, .done => none
  | .cancel, pc =>
    if t.cancelled then
      let next := match pc with
        | .inner | .probing | .waiting _ => leave cfg sh .cancelled
        | .fetching _ _ _ => leave cfg { sh with claimLocked := false } .cancelled
        | _ => (sh, .done)
      some { out next with cancelled := false, orphan := t.pending cfg }
    else none
  | _, _ => none

end FetchTask

/-! ## stop() -/

/-- The point one call of `stop()` is at. The flags say whether its drain passed the claim
    lock and whether it timed out. -/
inductive StopPc where
  /-- The task a handler spawned has not run yet. -/
  | starting
  /-- Waiting for the claim lock. -/
  | locking
  /-- In `_inflight.join()`, since `_finished` was set this often. -/
  | joining (seen : Nat)
  /-- Waiting for the cancelled tasks. -/
  | gathering (passedLock timedOut : Bool)
  | returned (passedLock timedOut : Bool)
  /-- The call itself was cancelled. -/
  | aborted
deriving DecidableEq, Repr

/-- The call has ended. -/
def StopPc.over : StopPc → Bool
  | .returned _ _ => true
  | .aborted => true
  | _ => false

end Outbox
