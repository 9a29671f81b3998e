import Outbox.Native.System

/-!
# What a step of the fetch loop can do

The step function of the fetch loop is taken apart once, into the kinds of steps of
`FetchTask.Moved`. Most invariants need less: the fetch loop touches what it shares with the
workers in two places only, where it issues a fetch, under the claim lock, and where it
queues what the fetch returned. Everything else it does leaves the queue alone.

## Key results

- `FetchTask.step_moved`: the kinds of steps, with what each of them found
- `FetchTask.Stepped`: these in three groups, by what they do to the queue and the lock
- `FetchTask.step_stepped`: every step is in one of the groups
-/

namespace Outbox

/-- A step of the shared state that leaves the queue and its flags alone. -/
structure Shared.SameQueue (sh sh' : Shared) : Prop where
  running : sh'.running = sh.running
  stopping : sh'.stopping = sh.stopping
  inflight : sh'.inflight = sh.inflight
  unfinished : sh'.unfinished = sh.unfinished
  finishedSets : sh'.finishedSets = sh.finishedSets
  fault : sh'.fault = sh.fault

namespace FetchTask

/-- The fetch loop is in the client's `fetch`, and holds the claim lock. -/
def fetching (pc : FetchPc) : Bool :=
  match pc with
  | .fetching _ _ _ => true
  | _ => false

/-- The fetch loop goes on to its next await. -/
def resumed (t : FetchTask) (next : Shared × FetchPc) : StepOut :=
  { shared := next.1, pc := next.2, cancelled := t.cancelled }

/-- A step, by the await it resumes the fetch loop at and what it finds there. -/
inductive Moved (cfg : SubscriberConfig) (sh : Shared) (t : FetchTask) :
    FetchAct → StepOut → Prop where
  | enters (hpc : t.pc = .top) :
      Moved cfg sh t .run (t.resumed (sh, if cfg.engine then .opening else .inner))
  | ends (hpc : t.pc = .top)
      (hover : sh.running = false ∨ sh.stopping = true ∨ sh.clientGone = true) :
      Moved cfg sh t .run (t.resumed (sh, .done))
  | opened (hpc : t.pc = .opening) : Moved cfg sh t .opened (t.resumed (sh, .inner))
  | openFailed (hpc : t.pc = .opening) :
      Moved cfg sh t .failed (t.resumed (afterClose sh .error))
  | stops (hpc : t.pc = .inner) : Moved cfg sh t .run (t.resumed (leave cfg sh .normal))
  /-- The queue is too full for another fetch. -/
  | waits (hpc : t.pc = .inner ∨ t.pc = .probing) (hfew : free cfg sh < cfg.refillAt) :
      Moved cfg sh t .run (t.resumed (sh, .waiting .refill))
  | probes (hpc : t.pc = .inner) : Moved cfg sh t .probe (t.resumed (sh, .probing))
  /-- The drain has begun, and no fetch is issued any more. -/
  | drains {token : UUID} (hpc : t.pc = .inner ∨ t.pc = .probing) :
      Moved cfg sh t (.claim token)
        (t.resumed (leave cfg { sh with notifyEvent := false } .normal))
  | claims {token : UUID} (hpc : t.pc = .inner ∨ t.pc = .probing)
      (hstopping : sh.stopping = false) :
      Moved cfg sh t (.claim token)
        { shared := { sh with notifyEvent := false, claimLocked := true }
          pc := .fetching token (free cfg sh) none
          cancelled := t.cancelled
          notes := [.fetchIssued]
          drawn := some token }
  | probeFailed (hpc : t.pc = .probing) :
      Moved cfg sh t .failed (t.resumed (leave cfg sh .error))
  | woke {wait : Wait} (hpc : t.pc = .waiting wait) :
      Moved cfg sh t .finished (t.resumed ({ sh with notifyEvent := false }, .inner))
  | replied {r : Reading} {token : UUID} {free : Nat} {rows : List Row}
      (hpc : t.pc = .fetching token free (some (.claimed rows))) :
      Moved cfg sh t (.replied r)
        { shared := enqueue cfg sh (rows.map fun row => OutboxInnerMessage.ofRow row r.monotonic)
          pc := if rows.isEmpty then .waiting .idle else .inner
          cancelled := t.cancelled
          notes := ((rows.map fun row => OutboxInnerMessage.ofRow row r.monotonic).map
              fun m => .returned m.key) ++
            [.metric none .fetched
              { baseTags cfg (cfg.queues.headD "") with count := some rows.length }] }
  | fetchFailed (hpc : fetching t.pc = true) :
      Moved cfg sh t .failed
        { t.resumed (leave cfg { sh with claimLocked := false } .error) with
          orphan := t.pending cfg }
  | closed {why : Exit} (hpc : t.pc = .closing why) :
      Moved cfg sh t .finished (t.resumed (afterClose sh why))
  | closeFailed {why : Exit} (hpc : t.pc = .closing why) :
      Moved cfg sh t .failed (t.resumed (afterClose sh .error))
  | retries (hpc : t.pc = .backoff) : Moved cfg sh t .finished (t.resumed (sh, .top))
  /-- A requested cancellation is delivered, inside the connections' context manager ... -/
  | cancelledInside (hpc : fetching t.pc = false) (hrequested : t.cancelled = true) :
      Moved cfg sh t .cancel
        { t.resumed (leave cfg sh .cancelled) with
          cancelled := false
          orphan := t.pending cfg }
  /-- ... and under the claim lock, too ... -/
  | cancelledFetch (hpc : fetching t.pc = true) (hrequested : t.cancelled = true) :
      Moved cfg sh t .cancel
        { t.resumed (leave cfg { sh with claimLocked := false } .cancelled) with
          cancelled := false
          orphan := t.pending cfg }
  /-- ... or outside of it. -/
  | cancelledOutside (hpc : fetching t.pc = false) (hrequested : t.cancelled = true) :
      Moved cfg sh t .cancel
        { t.resumed (sh, .done) with
          cancelled := false
          orphan := t.pending cfg }

/-- What a step of the fetch loop can do: issue a fetch, queue what it returned, or neither. -/
inductive Stepped (cfg : SubscriberConfig) (sh : Shared) (t : FetchTask) :
    FetchAct → StepOut → Prop where
  | claimed {token : UUID} (hidle : fetching t.pc = false) (hstopping : sh.stopping = false) :
      Stepped cfg sh t (.claim token)
        { shared := { sh with notifyEvent := false, claimLocked := true }
          pc := .fetching token (free cfg sh) none
          cancelled := t.cancelled
          notes := [.fetchIssued]
          drawn := some token }
  | queued {r : Reading} {token : UUID} {free : Nat} {rows : List Row} {pc : FetchPc}
      (hpc : t.pc = .fetching token free (some (.claimed rows))) (hnext : fetching pc = false) :
      Stepped cfg sh t (.replied r)
        { shared := enqueue cfg sh (rows.map fun row => OutboxInnerMessage.ofRow row r.monotonic)
          pc := pc
          cancelled := t.cancelled
          notes := ((rows.map fun row => OutboxInnerMessage.ofRow row r.monotonic).map
              fun m => .returned m.key) ++
            [.metric none .fetched
              { baseTags cfg (cfg.queues.headD "") with count := some rows.length }] }
  | other {act : FetchAct} {out : StepOut} (hshared : sh.SameQueue out.shared)
      (hlocked : out.shared.claimLocked = (sh.claimLocked && !fetching t.pc))
      (hnext : fetching out.pc = false) (hnotes : out.notes = []) (hdrawn : out.drawn = none)
      (horphan : ∀ stmt, out.orphan = some stmt → t.pending cfg = some stmt) :
      Stepped cfg sh t act out

section Step

variable {cfg : SubscriberConfig} {sh : Shared} {t : FetchTask}

/-- Closing the connections moves no queue and no lock. -/
theorem afterClose_quiet (sh : Shared) (why : Exit) : sh.SameQueue (afterClose sh why).1 ∧
    (afterClose sh why).1.claimLocked = sh.claimLocked ∧
    fetching (afterClose sh why).2 = false := by
  cases why <;> exact ⟨⟨rfl, rfl, rfl, rfl, rfl, rfl⟩, rfl, rfl⟩

theorem leave_quiet (cfg : SubscriberConfig) (sh : Shared) (why : Exit) :
    sh.SameQueue (leave cfg sh why).1 ∧ (leave cfg sh why).1.claimLocked = sh.claimLocked ∧
    fetching (leave cfg sh why).2 = false := by
  unfold leave
  split
  · exact ⟨⟨rfl, rfl, rfl, rfl, rfl, rfl⟩, rfl, rfl⟩
  · exact afterClose_quiet sh why

/-- A step that moves no queue, from outside a fetch. -/
theorem stepped_quiet {act : FetchAct} {out : StepOut} (hpc : fetching t.pc = false)
    (hout : sh.SameQueue out.shared ∧ out.shared.claimLocked = sh.claimLocked ∧
      fetching out.pc = false) (hnotes : out.notes = []) (hdrawn : out.drawn = none)
    (horphan : out.orphan = none ∨ out.orphan = t.pending cfg) : Stepped cfg sh t act out := by
  refine .other hout.1 ?_ hout.2.2 hnotes hdrawn fun stmt hstmt => ?_
  · rw [hout.2.1, hpc]
    simp
  · cases horphan with
    | inl hnone => rw [hnone] at hstmt; cases hstmt
    | inr hpending => exact hpending ▸ hstmt

/-- ... and that leaves the shared state as it is. -/
theorem stepped_still {act : FetchAct} {pc : FetchPc} {cancelled : Bool} {orphan : Option Stmt}
    (hpc : fetching t.pc = false) (hnext : fetching pc = false)
    (horphan : orphan = none ∨ orphan = t.pending cfg) : Stepped cfg sh t act
      { shared := sh, pc := pc, cancelled := cancelled, orphan := orphan } :=
  stepped_quiet hpc ⟨⟨rfl, rfl, rfl, rfl, rfl, rfl⟩, rfl, hnext⟩ rfl rfl horphan

/-- A fetch that is given up releases the lock. -/
theorem stepped_abandon {act : FetchAct} {cancelled : Bool} (why : Exit)
    (hpc : fetching t.pc = true) :
    Stepped cfg sh t act
      { shared := (leave cfg { sh with claimLocked := false } why).1
        pc := (leave cfg { sh with claimLocked := false } why).2
        cancelled := cancelled
        orphan := t.pending cfg } := by
  obtain ⟨hsame, hlocked, hnext⟩ := leave_quiet cfg { sh with claimLocked := false } why
  refine .other ⟨hsame.running, hsame.stopping, hsame.inflight, hsame.unfinished,
    hsame.finishedSets, hsame.fault⟩ ?_ hnext rfl rfl fun stmt hstmt => hstmt
  rw [hpc]
  simpa using hlocked

/-- A reply begins no fetch. -/
theorem deliver_idle {t : FetchTask} (h : fetching t.pc = false) (reply : Reply) :
    fetching (t.deliver reply).pc = false := by
  unfold deliver
  split
  · rename_i hpc
    rw [hpc] at h
    cases h
  · exact h

/-- Queueing rows leaves the flags alone. -/
theorem foldl_putNowait_flags (cfg : SubscriberConfig) (sh : Shared)
    (messages : List OutboxInnerMessage) :
    (messages.foldl (Shared.putNowait cfg) sh).running = sh.running ∧
    (messages.foldl (Shared.putNowait cfg) sh).stopping = sh.stopping := by
  induction messages generalizing sh with
  | nil => exact ⟨rfl, rfl⟩
  | cons m messages ih =>
    rw [List.foldl_cons, (ih _).1, (ih _).2]
    unfold Shared.putNowait
    split <;> exact ⟨rfl, rfl⟩

theorem enqueue_running (cfg : SubscriberConfig) (sh : Shared)
    (messages : List OutboxInnerMessage) : (enqueue cfg sh messages).running = sh.running :=
  (foldl_putNowait_flags cfg sh messages).1

theorem enqueue_stopping (cfg : SubscriberConfig) (sh : Shared)
    (messages : List OutboxInnerMessage) : (enqueue cfg sh messages).stopping = sh.stopping :=
  (foldl_putNowait_flags cfg sh messages).2

theorem claim_moved {token : UUID} (hpc : t.pc = .inner ∨ t.pc = .probing) {out : StepOut}
    (h : claim cfg sh t.cancelled token = some out) : Moved cfg sh t (.claim token) out := by
  unfold claim at h
  split at h
  · cases h
  · split at h <;> cases h
    · exact .drains hpc
    · exact .claims hpc (by simpa using ‹¬sh.stopping = true›)

/-- **What a step of the fetch loop can be.** -/
theorem step_moved {act : FetchAct} {out : StepOut} (h : step cfg sh t act = some out) :
    Moved cfg sh t act out := by
  unfold step at h
  dsimp only at h
  split at h
  · -- top, run
    rename_i hpc
    split at h
    · cases h
      exact .enters hpc
    · rename_i hhead
      cases h
      refine .ends hpc ?_
      cases hrunning : sh.running <;> cases hstopping : sh.stopping <;>
        cases hgone : sh.clientGone <;> simp [hrunning, hstopping, hgone] at hhead ⊢
  · cases h
    exact .opened ‹_›
  · cases h
    exact .openFailed ‹_›
  · -- inner, run
    rename_i hpc
    split at h
    · cases h
      exact .stops hpc
    · split at h <;> cases h
      exact .waits (.inl hpc) ‹_›
  · -- inner, probe
    split at h <;> cases h
    exact .probes ‹_›
  · -- inner, claim
    split at h
    · exact claim_moved (.inl ‹_›) h
    · cases h
  · -- probing, run
    split at h <;> cases h
    exact .waits (.inr ‹_›) ‹_›
  · exact claim_moved (.inr ‹_›) h
  · cases h
    exact .probeFailed ‹_›
  · cases h
    exact .woke ‹_›
  · cases h
    exact .replied ‹_›
  · -- fetching, failed
    rename_i hpc
    cases h
    exact .fetchFailed (by rw [hpc]; rfl)
  · cases h
    exact .closed ‹_›
  · cases h
    exact .closeFailed ‹_›
  · cases h
    exact .retries ‹_›
  · cases h
  · -- a requested cancellation is delivered
    split at h
    · rename_i hrequested
      cases h
      cases hpc : t.pc with
      | fetching token free reply => exact .cancelledFetch (by rw [hpc]; rfl) hrequested
      | inner | probing | waiting _ => exact .cancelledInside (by rw [hpc]; rfl) hrequested
      | _ => exact .cancelledOutside (by rw [hpc]; rfl) hrequested
    · cases h
  · cases h

/-- A fetch loop that has ended takes no step. -/
theorem not_step_of_done {act : FetchAct} {out : StepOut} (hdone : t.pc = .done) :
    step cfg sh t act ≠ some out := by
  unfold step
  rw [hdone]
  cases act <;> simp

/-- **What a step does to the queue and the lock.** -/
theorem step_stepped {act : FetchAct} {out : StepOut} (h : step cfg sh t act = some out) :
    Stepped cfg sh t act out := by
  have hidle : t.pc = .inner ∨ t.pc = .probing → fetching t.pc = false := by
    rintro (hpc | hpc) <;> rw [hpc] <;> rfl
  cases step_moved h with
  | enters hpc => exact stepped_still (by rw [hpc]; rfl) (by dsimp only; split <;> rfl) (.inl rfl)
  | ends hpc => exact stepped_still (by rw [hpc]; rfl) rfl (.inl rfl)
  | opened hpc => exact stepped_still (by rw [hpc]; rfl) rfl (.inl rfl)
  | openFailed hpc =>
    exact stepped_quiet (by rw [hpc]; rfl) (afterClose_quiet sh .error) rfl rfl (.inl rfl)
  | stops hpc =>
    exact stepped_quiet (by rw [hpc]; rfl) (leave_quiet cfg sh .normal) rfl rfl (.inl rfl)
  | waits hpc => exact stepped_still (hidle hpc) rfl (.inl rfl)
  | probes hpc => exact stepped_still (by rw [hpc]; rfl) rfl (.inl rfl)
  | drains hpc =>
    obtain ⟨hsame, hlocked, hnext⟩ := leave_quiet cfg { sh with notifyEvent := false } .normal
    exact stepped_quiet (hidle hpc) ⟨⟨hsame.running, hsame.stopping, hsame.inflight,
      hsame.unfinished, hsame.finishedSets, hsame.fault⟩, hlocked, hnext⟩ rfl rfl (.inl rfl)
  | claims hpc hstopping => exact .claimed (hidle hpc) hstopping
  | probeFailed hpc =>
    exact stepped_quiet (by rw [hpc]; rfl) (leave_quiet cfg sh .error) rfl rfl (.inl rfl)
  | woke hpc =>
    exact stepped_quiet (by rw [hpc]; rfl) ⟨⟨rfl, rfl, rfl, rfl, rfl, rfl⟩, rfl, rfl⟩ rfl rfl
      (.inl rfl)
  | replied hpc => exact .queued hpc (by split <;> rfl)
  | fetchFailed hpc => exact stepped_abandon .error hpc
  | closed hpc =>
    exact stepped_quiet (by rw [hpc]; rfl) (afterClose_quiet sh _) rfl rfl (.inl rfl)
  | closeFailed hpc =>
    exact stepped_quiet (by rw [hpc]; rfl) (afterClose_quiet sh .error) rfl rfl (.inl rfl)
  | retries hpc => exact stepped_still (by rw [hpc]; rfl) rfl (.inl rfl)
  | cancelledInside hpc =>
    exact stepped_quiet hpc (leave_quiet cfg sh .cancelled) rfl rfl (.inr rfl)
  | cancelledFetch hpc => exact stepped_abandon .cancelled hpc
  | cancelledOutside hpc => exact stepped_still hpc rfl (.inr rfl)

end Step

end FetchTask

end Outbox
