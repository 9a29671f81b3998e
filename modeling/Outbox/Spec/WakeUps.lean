import Outbox.Spec.SystemInv
import Outbox.Spec.WorkerFrame

/-!
# The fetch loop loses no wake-up

One event wakes the fetch loop, for a NOTIFY and for slots that workers free; the loop
clears it before every fetch and after every wait. What makes this safe is what the loop
checks between a clear and the next wait: after the one it issues a fetch, after the other
it counts the free slots.

## Key results

- `Subscriber.Awake`: what a cleared event means at the awaits of the fetch loop
- `fetch_loop_loses_no_wakeup`: in every run, a wait with the event unset is justified
-/

namespace Outbox

open List

/-! ## The last fetch -/

/-- No served NOTIFY has come since the last fetch was issued. -/
def Subscriber.Quiet (s : Subscriber) : Prop :=
  ∃ before after, s.log = before ++ .fetchIssued :: after ∧
    .fetchIssued ∉ after ∧ .notified ∉ after

/-- What a cleared event means at the awaits of the fetch loop. -/
structure Subscriber.Awake (s : Subscriber) : Prop where
  fetching : FetchTask.fetching s.fetch.pc = true → s.shared.notifyEvent = false → s.Quiet
  idle : s.fetch.pc = .waiting .idle → s.shared.notifyEvent = false → s.Quiet
  refill : s.fetch.pc = .waiting .refill → s.shared.notifyEvent = false →
    FetchTask.free s.cfg s.shared < s.cfg.refillAt

namespace Subscriber

variable {known : Row → Prop} {s s' : Subscriber}

theorem Quiet.append (h : s.Quiet) {notes : List Note} (hlog : s'.log = s.log ++ notes)
    (hnotes : ∀ n ∈ notes, n ≠ .fetchIssued ∧ n ≠ .notified) : s'.Quiet := by
  obtain ⟨before, after, heq, hfetch, hnotify⟩ := h
  refine ⟨before, after ++ notes, by rw [hlog, heq]; simp, fun hmem => ?_, fun hmem => ?_⟩
  · exact (mem_append.mp hmem).elim hfetch fun hnew => (hnotes _ hnew).1 rfl
  · exact (mem_append.mp hmem).elim hnotify fun hnew => (hnotes _ hnew).2 rfl

/-- A NOTIFY of the log was followed by a fetch. -/
theorem Quiet.fetch_after (h : s.Quiet) {before after : List Note}
    (hlog : s.log = before ++ .notified :: after) : .fetchIssued ∈ after := by
  obtain ⟨before', after', heq, _, hnotify⟩ := h
  rw [hlog, append_eq_append_iff] at heq
  obtain ⟨mid, hbefore, hafter⟩ | ⟨mid, hbefore, hafter⟩ := heq
  · cases mid with
    | nil => cases hafter
    | cons n mid =>
      obtain ⟨_, rfl⟩ := cons_eq_cons.mp hafter
      simp
  · -- the NOTIFY cannot lie behind the last fetch
    cases mid with
    | nil => cases hafter
    | cons n mid =>
      obtain ⟨_, hafter'⟩ := cons_eq_cons.mp hafter
      exact absurd (hafter' ▸ mem_append.mpr (.inr mem_cons_self)) hnotify

/-! ## Steps outside the fetch loop -/

/-- With the event set, there is nothing to show. -/
theorem awake_of_event (h : s.shared.notifyEvent = true) : s.Awake := by
  constructor <;> intro _ hevent <;> rw [h] at hevent <;> cases hevent

/-- A fetch loop that neither waits nor fetches has nothing to miss. -/
theorem awake_of_pc (hfetching : FetchTask.fetching s.fetch.pc = false)
    (hwaiting : ∀ wait, s.fetch.pc ≠ .waiting wait) : s.Awake where
  fetching h := by
    rw [hfetching] at h
    cases h
  idle h := absurd h (hwaiting _)
  refill h := absurd h (hwaiting _)

/-- A step that logs nothing of interest, sets no flag back and frees no slot in silence. -/
theorem Awake.calm (h : s.Awake) (hpc : s'.fetch.pc = s.fetch.pc) (hcfg : s'.cfg = s.cfg)
    {notes : List Note} (hlog : s'.log = s.log ++ notes)
    (hnotes : ∀ n ∈ notes, n ≠ .fetchIssued ∧ n ≠ .notified)
    (hevent : s'.shared.notifyEvent = false → s.shared.notifyEvent = false ∧
      (FetchTask.free s.cfg s'.shared ≤ FetchTask.free s.cfg s.shared ∨
        FetchTask.free s.cfg s'.shared < s.cfg.refillAt)) : s'.Awake where
  fetching hfetching hunset :=
    (h.fetching (hpc ▸ hfetching) (hevent hunset).1).append hlog hnotes
  idle hidle hunset := (h.idle (hpc ▸ hidle) (hevent hunset).1).append hlog hnotes
  refill hrefill hunset := by
    obtain ⟨hunset', hfree⟩ := hevent hunset
    have hfew := h.refill (hpc ▸ hrefill) hunset'
    rw [hcfg]
    omega

/-- ... in particular one that leaves the queue and the event alone. -/
theorem Awake.still (h : s.Awake) (hpc : s'.fetch.pc = s.fetch.pc) (hcfg : s'.cfg = s.cfg)
    {notes : List Note} (hlog : s'.log = s.log ++ notes)
    (hnotes : ∀ n ∈ notes, n ≠ .fetchIssued ∧ n ≠ .notified)
    (hevent : s'.shared.notifyEvent = s.shared.notifyEvent)
    (hinflight : s'.shared.inflight = s.shared.inflight) : s'.Awake := by
  refine h.calm hpc hcfg hlog hnotes fun hunset => ⟨hevent ▸ hunset, .inl ?_⟩
  simp only [FetchTask.free, hinflight]
  exact Nat.le_refl _

theorem afterDrain_awake (h : s.Awake) (call : Nat) (passedLock timedOut : Bool) :
    (s.afterDrain call passedLock timedOut).Awake := by
  obtain ⟨g, fetch, _, _, hfetch, hcancel⟩ := s.cancelTasks_eq
  have hpc : (s.afterDrain call passedLock timedOut).fetch.pc = s.fetch.pc := by
    simp only [afterDrain, hcancel, hfetch]
  refine h.still hpc rfl rfl (fun n hn => ?_) rfl rfl
  split at hn
  · rw [mem_singleton.mp hn]
    simp
  · cases hn

theorem StopMoved.awake (h : s.Awake) {call : Nat} (hmoved : s.StopMoved call s') :
    s'.Awake := by
  cases hmoved with
  | begun _ => exact awake_of_event rfl
  | empty _ _ _ => exact afterDrain_awake h call true false
  | waits _ _ _ => exact h.still rfl rfl (append_nil _).symm (fun _ hn => nomatch hn) rfl rfl
  | woken _ _ => exact afterDrain_awake h call true false
  | returned _ hdone =>
    -- the queue is reset once the fetch loop is done
    unfold tasksDone at hdone
    rw [Bool.and_eq_true] at hdone
    have hover := hdone.2
    refine awake_of_pc ?_ fun wait hpc => ?_
    · show FetchTask.fetching s.fetch.pc = false
      cases hpc : s.fetch.pc <;> rw [hpc] at hover <;> first | rfl | cases hover
    · have hpc : s.fetch.pc = .waiting wait := hpc
      rw [hpc] at hover
      cases hover

/-- What a worker does to the queue and the event: it signals the slots it frees. -/
theorem worked_event {cfg : SubscriberConfig} {sh sh' : Shared} {w : Worker} {act : WorkerAct}
    (h : Worker.Worked cfg sh w act sh') (hevent : sh'.notifyEvent = false) :
    sh.notifyEvent = false ∧
      (FetchTask.free cfg sh' ≤ FetchTask.free cfg sh ∨
        FetchTask.free cfg sh' < cfg.refillAt) := by
  cases h with
  | finished h =>
    refine ⟨h.notifyEvent ▸ hevent, .inl ?_⟩
    simp only [FetchTask.free, h.inflight]
    exact Nat.le_refl _
  | took hqueue _ h =>
    have hsignal := h.notifyEvent.symm.trans hevent
    have hinflight := h.inflight
    simp only [FetchTask.free, hinflight]
    unfold Shared.signalRefill at hsignal ⊢
    split at hsignal
    · cases hsignal
    · rename_i hfew
      rw [if_neg hfew]
      exact ⟨hsignal, .inr (by omega)⟩
  | putBack hqueue _ h =>
    have hsame := h.notifyEvent.symm.trans hevent
    have hinflight := h.inflight
    simp only [FetchTask.free, hinflight, hqueue]
    unfold Shared.putNowait Shared.taskDone at hsame ⊢
    dsimp only at hsame ⊢
    -- the row is back, or the queue was full
    split at hsame <;> rename_i hfull
    · rw [if_pos hfull]
      refine ⟨hsame, .inl ?_⟩
      dsimp only at hfull ⊢
      omega
    · rw [if_neg hfull]
      refine ⟨hsame, .inl ?_⟩
      simp

/-! ## Steps of the fetch loop -/

theorem afterClose_pc (sh : Shared) (why : Exit) (wait : Wait) :
    (FetchTask.afterClose sh why).2 ≠ .waiting wait := by
  cases why <;> simp [FetchTask.afterClose]

theorem leave_pc (cfg : SubscriberConfig) (sh : Shared) (why : Exit) (wait : Wait) :
    (FetchTask.leave cfg sh why).2 ≠ .waiting wait := by
  unfold FetchTask.leave
  split
  · simp
  · exact afterClose_pc sh why wait

/-- A wait begins where the queue is too full, or after a fetch that returned nothing. -/
theorem step_waiting {cfg : SubscriberConfig} {sh : Shared} {t : FetchTask} {act : FetchAct}
    {out : FetchTask.StepOut} (h : t.step cfg sh act = some out) {wait : Wait}
    (hpc : out.pc = .waiting wait) :
    wait = .refill ∧ out.shared = sh ∧ FetchTask.free cfg sh < cfg.refillAt ∨
    wait = .idle ∧ FetchTask.fetching t.pc = true ∧ out.shared.notifyEvent = sh.notifyEvent ∧
      ∀ n ∈ out.notes, n ≠ .fetchIssued ∧ n ≠ .notified := by
  cases FetchTask.step_moved h with
  | waits _ hfew =>
    cases hpc
    exact .inl ⟨rfl, rfl, hfew⟩
  | @replied _ _ _ rows hfetching =>
    dsimp only at hpc
    split at hpc
    · -- the fetch returned nothing
      rename_i hempty
      cases hpc
      obtain rfl := isEmpty_iff.mp hempty
      refine .inr ⟨rfl, by rw [hfetching]; rfl, rfl, fun n hn => ?_⟩
      rw [map_nil, map_nil, nil_append, mem_singleton] at hn
      rw [hn]
      simp
    · cases hpc
  | enters _ =>
    dsimp only [FetchTask.resumed] at hpc
    split at hpc <;> cases hpc
  | openFailed _ | closed _ | closeFailed _ => exact absurd hpc (afterClose_pc sh _ wait)
  | stops _ | drains _ | probeFailed _ | fetchFailed _ | cancelledInside _ _
  | cancelledFetch _ _ => exact absurd hpc (leave_pc cfg _ _ wait)
  | ends _ _ | opened _ | probes _ | claims _ _ | woke _ | retries _ | cancelledOutside _ _ =>
    cases hpc

theorem afterFetch_awake (h : s.Awake) {act : FetchAct} {out : FetchTask.StepOut}
    (hstep : s.fetch.step s.cfg s.shared act = some out) : (s.afterFetch out).Awake where
  fetching hfetching _ := by
    -- the fetch was issued just now
    have hfetching : FetchTask.fetching out.pc = true := hfetching
    cases FetchTask.step_stepped hstep with
    | claimed _ _ => exact ⟨s.log, [], rfl, not_mem_nil, not_mem_nil⟩
    | queued _ hnext => rw [hnext] at hfetching; cases hfetching
    | other _ _ hnext _ _ _ => rw [hnext] at hfetching; cases hfetching
  idle hidle hunset := by
    obtain ⟨hwait, _⟩ | ⟨_, hfetching, hevent, hnotes⟩ := step_waiting hstep hidle
    · cases hwait
    · exact (h.fetching hfetching (hevent ▸ hunset)).append rfl hnotes
  refill hrefill _ := by
    obtain ⟨_, hshared, hfew⟩ | ⟨hwait, _⟩ := step_waiting hstep hrefill
    · show FetchTask.free s.cfg out.shared < s.cfg.refillAt
      rw [hshared]
      exact hfew
    · cases hwait

/-- **Every step of a subscriber keeps its fetch loop awake.** -/
theorem step_awake (hinv : s.Inv known) (h : s.Awake) {act : SubscriberAct}
    {orphan : Option Stmt} (hstep : s.step act = some (s', orphan)) : s'.Awake := by
  have hsame : ∀ {t : Subscriber}, t.fetch.pc = s.fetch.pc → t.cfg = s.cfg → t.log = s.log →
      t.shared.notifyEvent = s.shared.notifyEvent → t.shared.inflight = s.shared.inflight →
      t.Awake := fun hpc hcfg hlog =>
    h.still hpc hcfg (hlog.trans (append_nil _).symm) fun _ hn => nomatch hn
  cases step_stepped hstep with
  | started _ _ => exact awake_of_pc rfl fun wait hpc => nomatch hpc
  | stopCalled => exact awake_of_event rfl
  | stopRan hmoved => exact hmoved.awake h
  | lockTimedOut _ => exact afterDrain_awake h _ _ _
  | joinTimedOut _ => exact afterDrain_awake h _ _ _
  | drainAborted _ => exact hsame rfl rfl rfl rfl rfl
  | gatherAborted _ =>
    obtain ⟨_, fetch, _, _, hfetch, hcancel⟩ := s.cancelTasks_eq
    rw [hcancel]
    exact hsame hfetch rfl rfl rfl rfl
  | notified => exact awake_of_event rfl
  | ignored => exact h
  | client _ => exact hsame rfl rfl rfl rfl rfl
  | worker hw hout =>
    obtain ⟨_, _, _, hown⟩ := afterWorker_inv hinv hw hout
    refine h.calm rfl rfl rfl (fun n hn => ?_) (worked_event (Worker.step_worked hout))
    have haside := hown n hn
    constructor <;> intro heq <;> rw [heq] at haside <;> cases haside
  | fetch hout => exact afterFetch_awake h hout

end Subscriber

/-! ## The claim -/

namespace System

/-- In every run, every fetch loop is awake. -/
theorem run_awake (b : Backend) (start : Int) (cfgs : List SubscriberConfig) (acts : List Act)
    (index : Nat) (sub : Subscriber)
    (hsub : ((init start cfgs).run b acts).subscribers[index]? = some sub) : sub.Awake := by
  refine run_subscribers (P := Subscriber.Awake) (fun cfg _ => ?_) acts ?_ ?_ ?_ index sub hsub
  · exact Subscriber.awake_of_pc rfl fun wait hpc => nomatch hpc
  · intro s s' known _ act orphan _ hinv hawake hstep
    exact Subscriber.step_awake hinv hawake hstep
  · intro s i w reply hawake _
    exact ⟨hawake.fetching, hawake.idle, hawake.refill⟩
  · intro s reply hawake
    -- a reply moves no wait, and ends no fetch
    have hwaiting : ∀ {wait}, (s.fetch.deliver reply).pc = .waiting wait →
        s.fetch.pc = .waiting wait := by
      intro wait hpc
      unfold FetchTask.deliver at hpc
      split at hpc
      · cases hpc
      · exact hpc
    have hfetching : FetchTask.fetching (s.fetch.deliver reply).pc = true →
        FetchTask.fetching s.fetch.pc = true := by
      intro hpc
      unfold FetchTask.deliver at hpc
      split at hpc
      · rename_i hpc'
        rw [hpc']
        rfl
      · exact hpc
    exact ⟨fun hpc => hawake.fetching (hfetching hpc), fun hpc => hawake.idle (hwaiting hpc),
      fun hpc => hawake.refill (hwaiting hpc)⟩

end System

/-- **The fetch loop loses no wake-up**, at every point of every run. With the event unset,
    a fetch loop in its idle wait has seen no served NOTIFY since it issued its last fetch, so
    every NOTIFY was followed by a fetch; and one in its refill wait has too few free slots. -/
theorem fetch_loop_loses_no_wakeup (b : Backend) (start : Int) (cfgs : List SubscriberConfig)
    (acts : List Act) :
    ∀ sub ∈ ((System.init start cfgs).run b acts).subscribers,
      sub.shared.notifyEvent = false →
      (sub.fetch.pc = .waiting .idle →
        (∃ before after, sub.log = before ++ .fetchIssued :: after ∧ .fetchIssued ∉ after ∧
          .notified ∉ after) ∧
        ∀ before after, sub.log = before ++ .notified :: after → .fetchIssued ∈ after) ∧
      (sub.fetch.pc = .waiting .refill →
        sub.cfg.fetchBatchSize - sub.shared.inflight.length <
          max 1 (sub.cfg.fetchBatchSize / 2)) := by
  intro sub hmem hunset
  obtain ⟨index, hsub⟩ := mem_iff_getElem?.mp hmem
  have hawake := System.run_awake b start cfgs acts index sub hsub
  refine ⟨fun hpc => ?_, fun hpc => hawake.refill hpc hunset⟩
  have hquiet := hawake.idle hpc hunset
  exact ⟨hquiet, fun before after hlog => hquiet.fetch_after hlog⟩

/-- A NOTIFY arrives while the fetch loop is in its first fetch, which returns nothing: the
    idle wait is left at once, and the next one blocks after a second fetch. -/
def notifiedActs : List Act :=
  startActs ++
  [.subscriber 0 (.fetch (.claim 7)),
    .subscriber 0 (.notify (some "orders")),
    .applyFetch 0 [],
    .subscriber 0 (.fetch (.replied {})),
    .subscriber 0 (.fetch .finished)] ++ fetchActs 8

theorem fetch_loop_loses_no_wakeup_notifiedRun : ∃ sub : Subscriber,
    ((System.init 0 [plainConfig]).run .postgres notifiedActs).subscribers = [sub] ∧
    sub.shared.notifyEvent = false ∧ .notified ∈ sub.log ∧
    ∀ before after, sub.log = before ++ .notified :: after → .fetchIssued ∈ after := by
  have hrun : ((System.init 0 [plainConfig]).run .postgres notifiedActs).subscribers.map
      (fun sub => (sub.shared.notifyEvent, match sub.fetch.pc with
        | .waiting wait => some wait
        | _ => none, sub.log.countP fun n => match n with
        | .notified => true
        | _ => false)) = [(false, some .idle, 1)] := by decide
  obtain ⟨sub, rest, hsubs, hsub, hrest⟩ := map_eq_cons_iff.mp hrun
  obtain rfl := map_eq_nil_iff.mp hrest
  obtain ⟨hevent, hsub⟩ := Prod.mk.inj hsub
  obtain ⟨hwait, hnotified⟩ := Prod.mk.inj hsub
  have hpc : sub.fetch.pc = .waiting .idle := by
    split at hwait
    · rename_i wait hpc
      cases hwait
      exact hpc
    · cases hwait
  have hnote : .notified ∈ sub.log := by
    obtain ⟨n, hn, hmatch⟩ := countP_pos_iff.mp (Nat.lt_of_lt_of_eq Nat.zero_lt_one hnotified.symm)
    cases n <;> first | exact hn | cases hmatch
  exact ⟨sub, hsubs, hevent, hnote, ((fetch_loop_loses_no_wakeup .postgres 0 [plainConfig]
    notifiedActs sub (hsubs ▸ mem_cons_self) hevent).1 hpc).2⟩

end Outbox
