import Outbox.Spec.SystemInv

/-!
# Every `dispatched` is closed

`metrics/__init__.py` promises one closing event for each `dispatched`. What the code keeps
is that a `dispatched` is closed or interrupted: `dispatch_one` catches every `Exception` of
`consume()`, but a `CancelledError` passes it by, and the claim gets no closing event.

## Key results

- `Subscriber.Inv.closed_or_interrupted`: what is left of the books once the workers are done
- `dispatched_closed`: without an interrupted `consume()`, every `dispatched` is closed once
- `dispatched_not_closed`: a drain timeout that cancels a running handler
-/

namespace Outbox

open List

/-! ## The promise -/

/-- Every `dispatched` is about a claim, an event with a duration closes the one open
    `dispatched` of its claim, and once the workers are done each `dispatched` is closed. -/
structure Subscriber.DispatchesClosed (s : Subscriber) : Prop where
  about : ∀ key tags, .metric key .dispatched tags ∈ s.log → key.isSome
  closing : ∀ before key event tags after, s.log = before ++ .metric key event tags :: after →
    tags.durationSeconds.isSome → event.Closing ∧ ∃ c, key = some c ∧
      marks .dispatched c before = 1 ∧ marks .closed c before = 0
  closed : s.workersDone = true → ∀ before c tags after,
    s.log = before ++ .metric (some c) .dispatched tags :: after →
      marks .closed c before = 0 ∧ marks .closed c after = 1

/-! ## Logs -/

/-- No claim is closed more often than it was dispatched. -/
theorem Ordered.closed_le {log : List Note} (h : Ordered log) (c : ClaimKey) :
    marks .closed c log ≤ marks .dispatched c log := by
  induction log using reverseRecOn with
  | nil => exact Nat.le_refl 0
  | append_singleton log n ih =>
    have hlog : Ordered log := fun before n' after heq =>
      h before n' (after ++ [n]) (by rw [heq, append_assoc, cons_append])
    have hle := ih hlog
    rw [marks_append, marks_append]
    by_cases hhit : n.mark .closed = some c
    · -- the note closes `c`, so a `dispatched` of `c` was open before it
      cases n with
      | metric key event tags =>
        simp only [Note.mark] at hhit
        split at hhit
        · rename_i hduration
          obtain ⟨_, c', hkey, hopen⟩ := (h log _ [] rfl).2 hduration
          rw [hhit] at hkey
          cases hkey
          have hone : marks .closed c [.metric key event tags] ≤ 1 := by
            rw [marks_cons, marks_nil]
            exact hit_le_one _ _
          omega
        · cases hhit
      | _ => cases hhit
    · have hzero : marks .closed c [n] = 0 :=
        tally_eq_zero fun n' hn' => mem_singleton.mp hn' ▸ hhit
      omega

theorem Ordered.of_append {log after : List Note} (h : Ordered (log ++ after)) : Ordered log :=
  fun before n rest heq => h before n (rest ++ after) (by rw [heq, append_assoc, cons_append])

/-! ## What the books say -/

namespace Subscriber

variable {known : Row → Prop} {s s' : Subscriber}

/-- A claim is dispatched at most once. -/
theorem Inv.dispatched_le_one (h : s.Inv known) (c : ClaimKey) :
    marks .dispatched c s.log ≤ 1 := by
  have hbalance := h.books.balance c
  have hreturned := hbalance.returned
  have hbegun := hbalance.begun
  have honce := h.once c
  simp only [ledger, Ledger.frame, append_nil, Hold.held, Hold.begun, hit_none] at hreturned hbegun
  omega

theorem Inv.log_ordered (h : s.Inv known) : Ordered s.log := by
  have hordered := h.books.ordered
  simpa only [ledger, Ledger.frame, append_nil] using hordered

/-- Once the workers are done, each dispatched claim is closed or interrupted. -/
theorem Inv.closed_or_interrupted (h : s.Inv known) (hdone : s.workersDone = true)
    (c : ClaimKey) :
    marks .closed c s.log + marks .interrupted c s.log = marks .dispatched c s.log := by
  have hclosing := (h.books.balance c).closing
  rw [s.ledger_of_out (idle_of_workersDone h hdone)] at hclosing
  simp [ledger, Ledger.frame] at hclosing
  omega

/-- Where no `consume()` was interrupted, the promise is kept. -/
theorem Inv.dispatchesClosed (h : s.Inv known) (hnone : ∀ c, marks .interrupted c s.log = 0) :
    s.DispatchesClosed where
  about key tags hmem := by
    obtain ⟨before, after, heq⟩ := append_of_mem hmem
    exact (h.log_ordered before _ after heq).1 rfl
  closing before key event tags after heq hduration := by
    obtain ⟨hevent, c, hkey, hopen⟩ := (h.log_ordered before _ after heq).2 hduration
    have hone := h.dispatched_le_one c
    rw [heq, marks_append] at hone
    exact ⟨hevent, c, hkey, by omega, by omega⟩
  closed hdone before c tags after heq := by
    have hself : hit ((Note.metric (some c) .dispatched tags).mark .dispatched) c = 1 := by
      simp [Note.mark]
    have hone := h.dispatched_le_one c
    have hall := h.closed_or_interrupted hdone c
    have hzero := hnone c
    rw [heq, marks_append, marks_cons, hself] at hone
    rw [heq] at hzero
    rw [heq, marks_append, marks_append, marks_append, marks_cons, marks_cons, marks_cons,
      hself] at hall
    rw [marks_append, marks_cons] at hzero
    -- nothing is closed before it is dispatched
    have hbefore : Ordered before := (heq ▸ h.log_ordered).of_append
    have hle := hbefore.closed_le c
    -- a `dispatched` carries no duration
    have hself' : hit ((Note.metric (some c) .dispatched tags).mark .closed) c = 0 := by
      cases hduration : tags.durationSeconds.isSome with
      | false => simp [Note.mark, hduration]
      | true =>
        have hevent := ((h.log_ordered before _ after heq).2 hduration).1
        simp [Event.Closing] at hevent
    omega

end Subscriber

/-! ## Interrupted handlers -/

/-- How many `consume()` calls the act ends by `CancelledError`. -/
def SubscriberAct.interrupts : SubscriberAct → Nat
  | .worker _ act => Worker.interrupts act
  | _ => 0

/-- How many `consume()` calls the act ends by `CancelledError`. -/
def Act.interrupts : Act → Nat
  | .subscriber _ act => act.interrupts
  | _ => 0

/-- Only a `CancelledError` out of `consume()` interrupts a claim. -/
theorem Subscriber.step_interrupted {known : Row → Prop} {s s' : Subscriber} (h : s.Inv known)
    {act : SubscriberAct} {orphan : Option Stmt} (hstep : s.step act = some (s', orphan))
    (c : ClaimKey) :
    marks .interrupted c s'.log ≤ marks .interrupted c s.log + act.interrupts := by
  cases step_cases hstep with
  | inl hworker =>
    obtain ⟨i, w, wact, out, rfl, hw, hout, rfl⟩ := hworker
    have hnotes := (afterWorker_inv h hw hout).2.2.1 c
    show marks .interrupted c (s.log ++ out.frame.notes) ≤ _
    rw [marks_append]
    exact Nat.add_le_add_left hnotes _
  | inr haside =>
    obtain ⟨_, notes, hlog, hall⟩ := haside
    rw [hlog, marks_append, Note.marks_aside hall (by simp) (by simp)]
    omega

/-- A run without interrupts leaves no claim interrupted. -/
theorem System.run_not_interrupted (b : Backend) (start : Int) (cfgs : List SubscriberConfig)
    (acts : List Act) (hacts : ∀ act ∈ acts, act.interrupts = 0) (index : Nat) (sub : Subscriber)
    (hsub : ((init start cfgs).run b acts).subscribers[index]? = some sub) (c : ClaimKey) :
    marks .interrupted c sub.log = 0 := by
  refine run_subscribers (P := fun sub => marks .interrupted c sub.log = 0) (fun _ _ => rfl) acts
    ?_ ?_ ?_ index sub hsub
  · intro s s' known _ act orphan hact hinv hzero hstep
    have hle := Subscriber.step_interrupted hinv hstep c
    have hquiet := hacts _ hact
    simp only [Act.interrupts] at hquiet
    omega
  · intro s i w reply hzero _
    exact hzero
  · intro s reply hzero
    exact hzero

/-! ## The claim -/

/-- **Every `dispatched` is closed by exactly one event with a duration, and nothing else is
    closed**, in every run in which no `consume()` is ended by `CancelledError`. -/
theorem dispatched_closed (b : Backend) (start : Int) (cfgs : List SubscriberConfig)
    (acts : List Act) (hacts : ∀ act ∈ acts, act.interrupts = 0) :
    ∀ sub ∈ ((System.init start cfgs).run b acts).subscribers, sub.DispatchesClosed := by
  intro sub hmem
  obtain ⟨index, hsub⟩ := mem_iff_getElem?.mp hmem
  have hinv := (System.run_inv b start cfgs acts).subscribers index sub hsub
  exact hinv.dispatchesClosed
    (System.run_not_interrupted b start cfgs acts hacts index sub hsub)

theorem dispatched_closed_ackedRun :
    (∀ sub ∈ ((System.init 0 [plainConfig]).run .postgres ackedActs).subscribers,
      sub.DispatchesClosed) ∧
    ((System.init 0 [plainConfig]).run .postgres ackedActs).subscribers.map
      (fun sub => (marks .dispatched (1, some 7) sub.log, marks .closed (1, some 7) sub.log)) =
      [(1, 1)] :=
  ⟨dispatched_closed .postgres 0 [plainConfig] ackedActs (by decide), by decide⟩

/-- The drain of `stop()` times out while the handler runs, and the cancellation of the
    worker ends `consume()`. -/
def interruptedActs : List Act :=
  consumingActs ++
  [.subscriber 0 .stop,
    .subscriber 0 (.stopRun 0),
    .subscriber 0 (.stopTimeout 0),
    .subscriber 0 (.worker 0 (.consumed .cancelledError [] false {})),
    .subscriber 0 (.worker 0 .finished)]

/-- **A handler that is cancelled leaves its `dispatched` open.** -/
theorem dispatched_not_closed :
    ¬ ∀ (b : Backend) (start : Int) (cfgs : List SubscriberConfig) (acts : List Act),
      ∀ sub ∈ ((System.init start cfgs).run b acts).subscribers, sub.DispatchesClosed := by
  intro hclaim
  have hrun : ((System.init 0 [plainConfig]).run .postgres interruptedActs).subscribers.map
      (fun sub => (sub.workersDone, marks .dispatched (1, some 7) sub.log,
        marks .closed (1, some 7) sub.log)) = [(true, 1, 0)] := by decide
  obtain ⟨sub, rest, hsubs, hsub, _⟩ := map_eq_cons_iff.mp hrun
  obtain ⟨hdone, hmarks⟩ := Prod.mk.inj hsub
  obtain ⟨hdispatched, hclosed⟩ := Prod.mk.inj hmarks
  have hpromise := hclaim .postgres 0 [plainConfig] interruptedActs sub
    (hsubs ▸ mem_cons_self)
  -- the `dispatched` is in the log, and nothing in the log closes its claim
  have hpos : 0 < marks .dispatched (1, some 7) sub.log := by omega
  obtain ⟨n, hn, hmark⟩ := tally_pos_iff.mp hpos
  cases n with
  | metric key event tags =>
    simp only [Note.mark] at hmark
    split at hmark
    · rename_i hevent
      subst hevent hmark
      obtain ⟨before, after, heq⟩ := append_of_mem hn
      have hafter := (hpromise.closed hdone before (1, some 7) tags after heq).2
      rw [heq, marks_append, marks_cons] at hclosed
      omega
    · cases hmark
  | _ => cases hmark

end Outbox
