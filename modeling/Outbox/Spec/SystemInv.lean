import Outbox.Spec.Claims
import Outbox.Spec.SubscriberBooks

/-!
# The invariant of the system

Every subscriber keeps its books, whatever the others do; every operation the database ran
is an external one or a justified statement of a subscriber; every token was drawn once, so
the rows fetches returned are told apart by id and token; and a row of the store that has a
lease is one a fetch returned.

## Key results

- `System.Inv`, `System.run_inv`: the invariant, and that every run keeps it
- `System.Inv.returned_unique`: one row for each id and token
- `System.Inv.row_of_held`: while its lease is current, a claimed row is as it was returned
-/

namespace Outbox

open List

/-! ## Tokens -/

/-- The token a statement draws. -/
def Stmt.token : Stmt → Option UUID
  | .fetch token _ _ _ => some token
  | _ => none

@[simp] theorem Stmt.op_drawn (stmt : Stmt) (locked : List Nat) :
    (stmt.op locked).drawn = stmt.token := by
  cases stmt <;> rfl

/-- The token of the fetch a subscriber awaits, if the database has not run it yet. -/
def Subscriber.pendingToken (s : Subscriber) : Option UUID :=
  (s.fetch.pending s.cfg).bind Stmt.token

namespace Subscriber

variable {s s' : Subscriber}

theorem pendingToken_congr {cfg : SubscriberConfig} {t t' : FetchTask} (h : t'.pc = t.pc) :
    (t'.pending cfg).bind Stmt.token = (t.pending cfg).bind Stmt.token := by
  unfold FetchTask.pending
  rw [h]

theorem pendingToken_of_idle {cfg : SubscriberConfig} {t : FetchTask}
    (h : FetchTask.fetching t.pc = false) : (t.pending cfg).bind Stmt.token = none := by
  unfold FetchTask.pending
  split
  · rename_i hpc
    rw [hpc] at h
    cases h
  · rfl

/-- Only a claim draws a token, and it awaits its fetch; every other step leaves the awaited
    fetch as it is, abandons it or has its reply. -/
theorem step_tokens {act : SubscriberAct} {orphan : Option Stmt}
    (hstep : s.step act = some (s', orphan)) :
    (∃ token, act = .fetch (.claim token) ∧ s'.drawn = s.drawn ++ [token] ∧
      s'.pendingToken = some token ∧ orphan = none) ∨
    s'.drawn = s.drawn ∧ ∀ token, hit s'.pendingToken token + hit (orphan.bind Stmt.token) token ≤
      hit s.pendingToken token := by
  have hkeep : ∀ {t : Subscriber}, t.drawn = s.drawn → t.cfg = s.cfg → t.fetch.pc = s.fetch.pc →
      t.drawn = s.drawn ∧ ∀ token, hit t.pendingToken token + hit none token ≤
        hit s.pendingToken token := by
    intro t hdrawn hcfg hpc
    refine ⟨hdrawn, fun token => ?_⟩
    rw [pendingToken, hcfg, pendingToken_congr hpc]
    exact Nat.le_refl _
  have hdrain : ∀ call passedLock timedOut,
      (s.afterDrain call passedLock timedOut).fetch.pc = s.fetch.pc := by
    intro call passedLock timedOut
    obtain ⟨_, _, _, _, hfetch, hcancel⟩ := s.cancelTasks_eq
    simp only [afterDrain, hcancel, hfetch]
  cases step_stepped hstep with
  | started _ _ => exact .inr ⟨rfl, fun token => Nat.zero_le _⟩
  | stopRan hmoved =>
    cases hmoved with
    | empty _ _ _ => exact .inr (hkeep rfl rfl (hdrain _ _ _))
    | woken _ _ => exact .inr (hkeep rfl rfl (hdrain _ _ _))
    | _ => exact .inr (hkeep rfl rfl rfl)
  | lockTimedOut _ => exact .inr (hkeep rfl rfl (hdrain _ _ _))
  | joinTimedOut _ => exact .inr (hkeep rfl rfl (hdrain _ _ _))
  | gatherAborted _ =>
    obtain ⟨_, _, _, _, hfetch, hcancel⟩ := s.cancelTasks_eq
    exact .inr (hkeep rfl rfl (by simp only [hcancel, hfetch]))
  | @worker _ _ _ out _ hout =>
    refine .inr ⟨rfl, fun token => ?_⟩
    -- the statement of a worker draws no token
    have hnone : out.orphan.bind Stmt.token = none := by
      cases horphan : out.orphan with
      | none => rfl
      | some stmt =>
        have hpending := Worker.step_orphan hout horphan
        unfold Worker.pending at hpending
        split at hpending <;> cases hpending <;> rfl
    rw [hnone]
    exact Nat.le_refl _
  | @fetch _ out hout =>
    cases FetchTask.step_stepped hout with
    | @claimed token _ _ => exact .inl ⟨token, rfl, rfl, rfl, rfl⟩
    | queued _ hnext =>
      refine .inr ⟨append_nil _, fun token => ?_⟩
      rw [pendingToken, pendingToken_of_idle hnext]
      exact Nat.zero_le _
    | other _ _ hnext _ hdrawn horphan =>
      refine .inr ⟨?_, fun token => ?_⟩
      · show s.drawn ++ out.drawn.toList = s.drawn
        rw [hdrawn]
        exact append_nil _
      · rw [pendingToken, pendingToken_of_idle hnext, hit_none, Nat.zero_add]
        cases ho : out.orphan with
        | none => exact Nat.zero_le _
        | some stmt =>
          rw [pendingToken, horphan stmt ho]
  | _ => exact .inr (hkeep rfl rfl rfl)

end Subscriber

/-! ## What the database ran -/

/-- The operation returned the row to a fetch. -/
def Executed.Returns (e : Executed) (row : Row) : Prop :=
  ∃ rows, e.entry.output = .claimed rows ∧ row ∈ rows

/-- The entry is a step of the database. -/
def Executed.IsStep (b : Backend) (e : Executed) : Prop :=
  e.entry.before.store.WF ∧
    World.step b e.entry.before e.entry.input = (e.entry.output, e.entry.after)

namespace System

/-- The rows returned to the fetches of the subscriber with the given index. -/
def known (s : System) (index : Nat) (row : Row) : Prop :=
  ∃ e ∈ s.executed, (∃ stmt, e.source = .subscriber index stmt) ∧ e.Returns row

/-- A statement the subscriber has issued for claims of its own. -/
def Issues (s : System) (index : Nat) (stmt : Stmt) : Prop :=
  ∃ sub, s.subscribers[index]? = some sub ∧ stmt.Justified (s.known index) sub.cfg ∧
    ∀ c, tally some c stmt.keys ≤ writes c sub.log

/-- An operation the database may run for the source. -/
def Sends (s : System) (source : Source) (op : Op) : Prop :=
  match source with
  | .external => op.isExternal = true
  | .subscriber index stmt => s.Issues index stmt ∧ ∃ locked, op = stmt.op locked

/-- The invariant of the system. -/
structure Inv (b : Backend) (s : System) : Prop where
  wf : s.world.store.WF
  steps : ∀ e ∈ s.executed, e.IsStep b
  subscribers : ∀ (index : Nat) (sub : Subscriber), s.subscribers[index]? = some sub →
    sub.Inv (s.known index)
  sent : ∀ e ∈ s.executed, s.Sends e.source e.entry.input
  orphans : ∀ p ∈ s.orphans, s.Issues p.1 p.2
  /-- A token is run, abandoned or awaited once for each time it was drawn. -/
  tokens : ∀ token, tally (fun e => e.entry.input.drawn) token s.executed +
      tally (fun p => p.2.token) token s.orphans +
      (s.subscribers.map fun sub => hit sub.pendingToken token).sum ≤
    (s.subscribers.map fun sub => tally some token sub.drawn).sum
  drawn : ∀ token, (s.subscribers.map fun sub => tally some token sub.drawn).sum ≤ 1
  /-- A lease of the store was returned by a fetch. -/
  held : ∀ id row token, s.world.store.row? id = some row → row.acquiredToken = some token →
    ∃ e ∈ s.executed, e.Returns row

/-! ## Growth -/

/-- The later system has done what the earlier one has, and more. -/
structure Grows (s s' : System) : Prop where
  executed : ∀ e ∈ s.executed, e ∈ s'.executed
  subscribers : ∀ (index : Nat) (sub : Subscriber), s.subscribers[index]? = some sub →
    ∃ sub' : Subscriber, s'.subscribers[index]? = some sub' ∧ sub'.cfg = sub.cfg ∧
      ∃ notes, sub'.log = sub.log ++ notes

theorem Grows.known {s s' : System} (h : s.Grows s') (index : Nat) (row : Row)
    (hrow : s.known index row) : s'.known index row := by
  obtain ⟨e, he, hrest⟩ := hrow
  exact ⟨e, h.executed e he, hrest⟩

theorem Grows.issues {s s' : System} (h : s.Grows s') {index : Nat} {stmt : Stmt}
    (hstmt : s.Issues index stmt) : s'.Issues index stmt := by
  obtain ⟨sub, hsub, hjustified, hissued⟩ := hstmt
  obtain ⟨sub', hsub', hcfg, notes, hlog⟩ := h.subscribers index sub hsub
  refine ⟨sub', hsub', ?_, fun c => ?_⟩
  · rw [hcfg]
    exact hjustified.mono (h.known index)
  · rw [hlog]
    exact Nat.le_trans (hissued c) (writes_le_append c sub.log notes)

theorem Grows.sends {s s' : System} (h : s.Grows s') {source : Source} {op : Op}
    (hop : s.Sends source op) : s'.Sends source op := by
  cases source with
  | external => exact hop
  | subscriber index stmt => exact ⟨h.issues hop.1, hop.2⟩

/-- Replacing one subscriber by what it became. -/
theorem grows_set {s : System} {index : Nat} {sub : Subscriber} (sub' : Subscriber)
    (hsub : s.subscribers[index]? = some sub) (hcfg : sub'.cfg = sub.cfg)
    (hlog : ∃ notes, sub'.log = sub.log ++ notes) {world : World} {orphans : List (Nat × Stmt)}
    (executed : List Executed) :
    s.Grows
      { world := world
        subscribers := s.subscribers.set index sub'
        orphans := orphans
        executed := s.executed ++ executed } where
  executed e he := mem_append.mpr (.inl he)
  subscribers i t ht := by
    by_cases hi : index = i
    · subst hi
      rw [hsub] at ht
      cases ht
      have hlt : index < s.subscribers.length := (List.getElem?_eq_some_iff.mp hsub).1
      exact ⟨sub', by simp [hlt], hcfg, hlog⟩
    · exact ⟨t, by simp [getElem?_set_ne hi, ht], rfl, [], (append_nil _).symm⟩

/-! ## Steps -/

variable {b : Backend} {s s' : System}

theorem init_inv (b : Backend) (start : Int) (cfgs : List SubscriberConfig) :
    (init start cfgs).Inv b where
  wf := Store.WF.empty
  steps e he := by cases he
  subscribers index sub hsub := by
    obtain ⟨cfg, _, rfl⟩ := mem_map.mp (mem_of_getElem? hsub)
    exact Subscriber.init_inv _ cfg
  sent e he := by cases he
  orphans p hp := by cases hp
  tokens token := by
    have hpending : ((init start cfgs).subscribers.map fun sub =>
        hit sub.pendingToken token).sum = 0 := sum_map_eq_zero _ fun sub hsub => by
      obtain ⟨cfg, _, rfl⟩ := mem_map.mp hsub
      rfl
    rw [hpending]
    exact Nat.zero_le _
  drawn token := by
    have hdrawn :
        ((init start cfgs).subscribers.map fun sub => tally some token sub.drawn).sum = 0 :=
      sum_map_eq_zero _ fun sub hsub => by
        obtain ⟨cfg, _, rfl⟩ := mem_map.mp hsub
        rfl
    rw [hdrawn]
    exact Nat.zero_le _
  held id row token hrow := by cases hrow

/-- What an operation makes of a leased row: it was there, or the operation returned it. -/
theorem held_step {w : World} (hwf : w.store.WF) (b : Backend) (op : Op) {id : Nat} {row : Row}
    {token : UUID} (hrow : (w.step b op).2.store.row? id = some row)
    (htoken : row.acquiredToken = some token) :
    w.store.row? id = some row ∨ ∃ rows, (w.step b op).1 = .claimed rows ∧ row ∈ rows := by
  cases (World.apply_rowStep hwf b op id).frozen hrow htoken with
  | inl hsame => exact .inl hsame
  | inr hclaimed => exact .inr hclaimed.2

/-- The database runs an operation, and the parties move on. -/
theorem executed_inv (h : s.Inv b) (source : Source) (op : Op) (hsends : s.Sends source op)
    {subscribers : List Subscriber} {orphans : List (Nat × Stmt)}
    (hgrows : s.Grows { (s.execute b source op).2 with
      subscribers := subscribers, orphans := orphans })
    (hsubs : ∀ (index : Nat) (sub : Subscriber), subscribers[index]? = some sub →
      sub.Inv (known (s.execute b source op).2 index))
    (horphans : ∀ p ∈ orphans, p ∈ s.orphans)
    (htokens : ∀ token, hit op.drawn token + tally (fun p => p.2.token) token orphans +
        (subscribers.map fun sub => hit sub.pendingToken token).sum ≤
      tally (fun p => p.2.token) token s.orphans +
        (s.subscribers.map fun sub => hit sub.pendingToken token).sum)
    (hdrawn : ∀ token, (subscribers.map fun sub => tally some token sub.drawn).sum =
      (s.subscribers.map fun sub => tally some token sub.drawn).sum) :
    Inv b { (s.execute b source op).2 with subscribers := subscribers, orphans := orphans } where
  wf := World.apply_wf h.wf b op
  steps e he := by
    have he : e ∈ s.executed ++ [_] := he
    rw [mem_append, mem_singleton] at he
    cases he with
    | inl hold => exact h.steps e hold
    | inr hnew =>
      rw [hnew]
      exact ⟨h.wf, rfl⟩
  subscribers := hsubs
  sent e he := by
    have he : e ∈ s.executed ++ [_] := he
    rw [mem_append, mem_singleton] at he
    cases he with
    | inl hold => exact hgrows.sends (h.sent e hold)
    | inr hnew =>
      rw [hnew]
      exact hgrows.sends hsends
  orphans p hp := hgrows.issues (h.orphans p (horphans p hp))
  -- the token of the operation moves from the awaited ones to those that were run
  tokens token := by
    have hold := h.tokens token
    have hmove := htokens token
    show tally _ token (s.executed ++ [_]) + _ + _ ≤
      (subscribers.map fun sub => tally some token sub.drawn).sum
    rw [tally_append, tally_cons, tally_nil, hdrawn token]
    dsimp only
    omega
  drawn token := by
    show (subscribers.map fun sub => tally some token sub.drawn).sum ≤ 1
    rw [hdrawn token]
    exact h.drawn token
  held id row token hrow htoken := by
    -- a row under a token was there before, or this is the fetch that returned it
    cases held_step h.wf b op hrow htoken with
    | inl hsame =>
      obtain ⟨e, he, hreturns⟩ := h.held id row token hsame htoken
      exact ⟨e, mem_append.mpr (.inl he), hreturns⟩
    | inr hreturned => exact ⟨_, mem_append.mpr (.inr mem_cons_self), hreturned⟩

/-- The subscribers after one of them moved on. -/
theorem subs_set (known : Nat → Row → Prop) {subscribers : List Subscriber} {index : Nat}
    {sub sub' : Subscriber} (hsub : subscribers[index]? = some sub)
    (hall : ∀ (i : Nat) (t : Subscriber), subscribers[i]? = some t → t.Inv (known i))
    (hinv : sub'.Inv (known index)) (i : Nat) (t : Subscriber)
    (ht : (subscribers.set index sub')[i]? = some t) : t.Inv (known i) := by
  by_cases hi : index = i
  · subst hi
    have hlt : index < subscribers.length := (List.getElem?_eq_some_iff.mp hsub).1
    rw [getElem?_set_self hlt] at ht
    cases ht
    exact hinv
  · rw [getElem?_set_ne hi] at ht
    exact hall i t ht

/-- Running an operation only adds to what is known. -/
theorem known_execute (source : Source) (op : Op) {index : Nat} {row : Row}
    (h : s.known index row) : known (s.execute b source op).2 index row := by
  obtain ⟨e, he, hrest⟩ := h
  exact ⟨e, mem_append.mpr (.inl he), hrest⟩

theorem external_inv (h : s.Inv b) {op : Op} (hop : op.isExternal = true) :
    (s.execute b .external op).2.Inv b := by
  have hnone : op.drawn = none := by cases op <;> first | rfl | cases hop
  refine executed_inv h .external op hop ?_ (fun index sub hsub => ?_)
    (fun p hp => hp) (fun token => ?_) fun token => rfl
  · exact ⟨fun e he => mem_append.mpr (.inl he),
      fun i t ht => ⟨t, ht, rfl, [], (append_nil _).symm⟩⟩
  · exact (h.subscribers index sub hsub).mono fun row => known_execute .external op
  · rw [hnone, hit_none, Nat.zero_add]

theorem subscriber_inv (h : s.Inv b) {index : Nat} {act : SubscriberAct} {sub sub' : Subscriber}
    (hsub : s.subscribers[index]? = some sub) (hfresh : s.fresh act = true)
    {orphan : Option Stmt} (hstep : sub.step act = some (sub', orphan)) :
    Inv b { s with
      subscribers := s.subscribers.set index sub'
      orphans := s.orphans ++ orphan.toList.map fun stmt => (index, stmt) } := by
  have hinv := h.subscribers index sub hsub
  obtain ⟨hcfg, hlog⟩ := Subscriber.step_frame hstep
  have hgrows : s.Grows
      { world := s.world
        subscribers := s.subscribers.set index sub'
        orphans := s.orphans ++ orphan.toList.map fun stmt => (index, stmt)
        executed := s.executed ++ [] } := grows_set sub' hsub hcfg hlog []
  rw [append_nil] at hgrows
  -- a token just drawn was drawn by nobody before
  have hnew : ∀ token, act = .fetch (.claim token) →
      (s.subscribers.map fun sub => tally some token sub.drawn).sum = 0 := by
    intro token hact
    refine sum_map_eq_zero _ fun t ht => tally_eq_zero fun token' hmem heq => ?_
    rw [hact, fresh, all_eq_true] at hfresh
    have hnot := hfresh t ht
    simp only [Bool.not_eq_true', contains_eq_mem, decide_eq_false_iff_not] at hnot
    exact hnot (Option.some_inj.mp heq ▸ hmem)
  have hinv' : sub'.Inv (s.known index) := Subscriber.step_inv hinv hstep fun token hact hmem => by
    have hpos : 0 < tally some token sub.drawn := tally_pos_iff.mpr ⟨token, hmem, rfl⟩
    have hle := le_sum_map (fun sub : Subscriber => tally some token sub.drawn) hsub
    have hzero := hnew token hact
    omega
  exact {
    wf := h.wf
    steps := h.steps
    subscribers := fun i t ht =>
      subs_set s.known hsub h.subscribers hinv' i t ht
    sent := fun e he => hgrows.sends (h.sent e he)
    orphans := fun p hp => by
      have hp : p ∈ s.orphans ++ _ := hp
      rw [mem_append] at hp
      cases hp with
      | inl hold => exact hgrows.issues (h.orphans p hold)
      | inr hnew =>
        obtain ⟨stmt, hstmt, rfl⟩ := mem_map.mp hnew
        have horphan : orphan = some stmt := Option.mem_toList.mp hstmt
        obtain ⟨hjustified, hissued⟩ := Subscriber.step_orphan hinv (horphan ▸ hstep)
        exact hgrows.issues ⟨sub, hsub, hjustified, hissued⟩
    tokens := fun token => by
      have hold := h.tokens token
      rw [sum_map_split _ hsub, sum_map_split (fun sub : Subscriber =>
        tally some token sub.drawn) hsub] at hold
      show tally _ token s.executed + tally _ token (s.orphans ++ _) +
        ((s.subscribers.set index sub').map _).sum ≤ ((s.subscribers.set index sub').map _).sum
      rw [sum_map_set _ hsub, sum_map_set _ hsub, tally_append]
      cases Subscriber.step_tokens hstep with
      -- a claim: its token is drawn, and awaited
      | inl hclaim =>
        obtain ⟨token', _, hdrawn, hpending, rfl⟩ := hclaim
        rw [hdrawn, hpending, tally_append]
        simp
        omega
      | inr hkept =>
        obtain ⟨hdrawn, hmoved⟩ := hkept
        -- an awaited fetch that is abandoned is an orphan from now on
        have hmoved := hmoved token
        have horphan : tally (fun p : Nat × Stmt => p.2.token) token
            (orphan.toList.map fun stmt => (index, stmt)) = hit (orphan.bind Stmt.token) token := by
          cases orphan <;> simp
        rw [hdrawn, horphan]
        omega
    drawn := fun token => by
      have hold := h.drawn token
      have hzero := fun token' hact => hnew token' hact
      rw [sum_map_split (fun sub : Subscriber => tally some token sub.drawn) hsub] at hold
      show ((s.subscribers.set index sub').map _).sum ≤ 1
      rw [sum_map_set _ hsub]
      cases Subscriber.step_tokens hstep with
      | inl hclaim =>
        obtain ⟨token', hact, hdrawn, _, _⟩ := hclaim
        have hzero := hnew token' hact
        rw [sum_map_split (fun sub : Subscriber => tally some token' sub.drawn) hsub] at hzero
        rw [hdrawn, tally_append, tally_cons, tally_nil]
        -- nobody drew the token before
        by_cases htoken : token' = token
        · subst htoken
          rw [hit_self]
          omega
        · have hmiss : hit (some token') token = 0 := if_neg (by simpa using htoken)
          omega
      | inr hkept =>
        rw [hkept.1]
        exact hold
    held := h.held }

theorem applyWorker_inv (h : s.Inv b) {index worker : Nat} {sub : Subscriber} {w : Worker}
    {stmt : Stmt} (hsub : s.subscribers[index]? = some sub) (hw : sub.workers[worker]? = some w)
    (hstmt : w.pending sub.cfg = some stmt) :
    let out := s.execute b (.subscriber index stmt) (stmt.op [])
    Inv b { out.2 with
      subscribers := s.subscribers.set index
        { sub with workers := sub.workers.set worker (w.deliver out.1) } } := by
  intro out
  have hinv := h.subscribers index sub hsub
  have hwinv := hinv.workers w (mem_of_getElem? hw)
  obtain ⟨hjustified, hkeys⟩ := Worker.pending_justified hwinv.buffer hwinv.legit hstmt
  have hnone : stmt.token = none := by
    unfold Worker.pending at hstmt
    split at hstmt <;> cases hstmt <;> rfl
  refine executed_inv h (.subscriber index stmt) (stmt.op [])
    ⟨⟨sub, hsub, hjustified, hkeys ▸ hwinv.issued⟩, [], rfl⟩ ?_ ?_ (fun p hp => hp) ?_ ?_
  · exact grows_set { sub with workers := sub.workers.set worker (w.deliver out.1) } hsub rfl
      ⟨[], (append_nil _).symm⟩ _
  · refine subs_set (known out.2) hsub ?_ ?_
    · exact fun i t ht => (h.subscribers i t ht).mono fun row => known_execute _ _
    · exact (Subscriber.deliverWorker_inv hinv hw out.1).mono fun row => known_execute _ _
  · intro token
    rw [Stmt.op_drawn, hnone, hit_none, Nat.zero_add, sum_map_set _ hsub,
      sum_map_split (fun sub : Subscriber => hit sub.pendingToken token) hsub]
    exact Nat.le_refl _
  · intro token
    rw [sum_map_set _ hsub, sum_map_split (fun sub : Subscriber => tally some token sub.drawn) hsub]

theorem applyFetch_inv (h : s.Inv b) {index : Nat} {sub : Subscriber} {stmt : Stmt}
    (hsub : s.subscribers[index]? = some sub) (hstmt : sub.fetch.pending sub.cfg = some stmt)
    (locked : List Nat) :
    let out := s.execute b (.subscriber index stmt) (stmt.op locked)
    Inv b { out.2 with
      subscribers := s.subscribers.set index
        { sub with fetch := sub.fetch.deliver out.1 } } := by
  intro out
  have hinv := h.subscribers index sub hsub
  obtain ⟨token, free, hpc, rfl⟩ : ∃ token free, sub.fetch.pc = .fetching token free none ∧
      stmt = .fetch token sub.cfg.queues free sub.cfg.leaseTtlSeconds := by
    unfold FetchTask.pending at hstmt
    split at hstmt
    · rename_i token free hpc
      exact ⟨token, free, hpc, (Option.some_inj.mp hstmt).symm⟩
    · cases hstmt
  have hanswer : ∀ rows, out.1 = .claimed rows →
      Answer (known out.2 index) token free rows := by
    intro rows hrows
    obtain ⟨rows', hreply, hlength, hnodup, hstamped⟩ := World.fetch_reply h.wf b token
      sub.cfg.queues free sub.cfg.leaseTtlSeconds locked
    have hsame : rows = rows' := by
      have hout : out.1 = .claimed rows' := hreply
      rw [hrows] at hout
      exact Reply.claimed.inj hout
    subst hsame
    refine ⟨hlength, fun row hrow => ?_, fun row hrow => ?_, hnodup⟩
    · exact ⟨_, mem_append.mpr (.inr mem_cons_self), ⟨_, rfl⟩, rows, hrows, hrow⟩
    · obtain ⟨r, _, _, rfl⟩ := hstamped row hrow
      rfl
  have hpending : sub.pendingToken = some token := by
    rw [Subscriber.pendingToken, hstmt]
    rfl
  have hdelivered :
      Subscriber.pendingToken { sub with fetch := sub.fetch.deliver out.1 } = none := by
    unfold Subscriber.pendingToken FetchTask.deliver FetchTask.pending
    simp only [hpc]
    rfl
  have hissues : s.Issues index (.fetch token sub.cfg.queues free sub.cfg.leaseTtlSeconds) :=
    ⟨sub, hsub, ⟨rfl, rfl⟩, fun c => Nat.zero_le _⟩
  refine executed_inv h (.subscriber index _) _ ⟨hissues, locked, rfl⟩ ?_ ?_
    (fun p hp => hp) ?_ ?_
  · exact grows_set { sub with fetch := sub.fetch.deliver out.1 } hsub rfl
      ⟨[], (append_nil _).symm⟩ _
  · refine subs_set (known out.2) hsub ?_ ?_
    · exact fun i t ht => (h.subscribers i t ht).mono fun row => known_execute _ _
    · refine Subscriber.deliverFetch_inv (hinv.mono fun row => known_execute _ _) out.1 ?_
        ⟨_, hstmt⟩
      intro token' free' rows hpc' hrows
      rw [hpc] at hpc'
      cases hpc'
      exact hanswer rows hrows
  · -- the awaited token is now a token that was run
    intro token'
    rw [sum_map_set _ hsub, hdelivered,
      sum_map_split (fun sub : Subscriber => hit sub.pendingToken token') hsub, hpending, hit_none]
    show hit (some token) token' + tally (fun p => p.2.token) token' s.orphans + (0 + _) ≤ _
    omega
  · intro token'
    rw [sum_map_set _ hsub,
      sum_map_split (fun sub : Subscriber => tally some token' sub.drawn) hsub]

theorem applyOrphan_inv (h : s.Inv b) {i index : Nat} {stmt : Stmt}
    (horphan : s.orphans[i]? = some (index, stmt)) (locked : List Nat) :
    let out := s.execute b (.subscriber index stmt) (stmt.op locked)
    Inv b { out.2 with orphans := s.orphans.eraseIdx i } := by
  intro out
  have hissues := h.orphans _ (mem_of_getElem? horphan)
  refine executed_inv h (.subscriber index stmt) (stmt.op locked)
    ⟨hissues, locked, rfl⟩ ?_ (fun j t ht => ?_) (fun p hp => mem_of_mem_eraseIdx hp) ?_
    fun token => rfl
  · exact ⟨fun e he => mem_append.mpr (.inl he),
      fun j t ht => ⟨t, ht, rfl, [], (append_nil _).symm⟩⟩
  · exact (h.subscribers j t ht).mono fun row => known_execute _ _
  · intro token
    have hsplit := sum_map_split (fun p : Nat × Stmt => hit p.2.token token) horphan
    have hsplit : tally (fun p : Nat × Stmt => p.2.token) token s.orphans =
        hit stmt.token token + tally (fun p => p.2.token) token (s.orphans.eraseIdx i) := hsplit
    rw [Stmt.op_drawn, hsplit]
    exact Nat.le_refl _

/-- **Every step of the system keeps the invariant.** -/
theorem step_inv (h : s.Inv b) {act : Act} (hstep : s.step b act = some s') : s'.Inv b := by
  cases step_stepped hstep with
  | external hop => exact external_inv h hop
  | subscriber hsub hfresh hout => exact subscriber_inv h hsub hfresh hout
  | appliedWorker hsub hw hstmt => exact applyWorker_inv h hsub hw hstmt
  | appliedFetch hsub hstmt => exact applyFetch_inv h hsub hstmt _
  | appliedOrphan horphan => exact applyOrphan_inv h horphan _

/-- What a step of the system makes of one subscriber. -/
inductive Moved (index : Nat) (sub : Subscriber) : Act → Subscriber → Prop where
  /-- The step is another's. -/
  | idle {act : Act} (hother : ∀ subAct, act ≠ .subscriber index subAct) : Moved index sub act sub
  | stepped {act : SubscriberAct} {sub' : Subscriber} {orphan : Option Stmt}
      (hstep : sub.step act = some (sub', orphan)) :
      Moved index sub (.subscriber index act) sub'
  /-- A worker has got its reply. -/
  | worker {i : Nat} {w : Worker} (hw : sub.workers[i]? = some w) (reply : Reply) :
      Moved index sub (.applyWorker index i)
        { sub with workers := sub.workers.set i (w.deliver reply) }
  /-- The fetch loop has got its reply. -/
  | fetch {locked : List Nat} (reply : Reply) :
      Moved index sub (.applyFetch index locked) { sub with fetch := sub.fetch.deliver reply }

/-- One entry of a list in which another, or this one, was replaced. -/
theorem moved_set {subscribers : List Subscriber} {i index : Nat} {act : Act}
    {sub sub' t : Subscriber} (hsub : subscribers[i]? = some sub)
    (ht : (subscribers.set i sub')[index]? = some t) (hmoved : Moved i sub act sub')
    (hother : i ≠ index → ∀ subAct, act ≠ .subscriber index subAct) :
    ∃ s, subscribers[index]? = some s ∧ Moved index s act t := by
  by_cases hi : i = index
  · subst hi
    have hlt : i < subscribers.length := (List.getElem?_eq_some_iff.mp hsub).1
    rw [getElem?_set_self hlt] at ht
    cases ht
    exact ⟨sub, hsub, hmoved⟩
  · rw [getElem?_set_ne hi] at ht
    exact ⟨t, ht, .idle (hother hi)⟩

/-- What a step of the system makes of one subscriber. -/
theorem step_moved {act : Act} (hstep : s.step b act = some s') {index : Nat} {sub' : Subscriber}
    (hsub' : s'.subscribers[index]? = some sub') :
    ∃ sub, s.subscribers[index]? = some sub ∧ Moved index sub act sub' := by
  cases step_stepped hstep with
  | external _ => exact ⟨sub', hsub', .idle (by simp)⟩
  | subscriber hsub _ hout => exact moved_set hsub hsub' (.stepped hout) (by simp +contextual)
  | appliedWorker hsub hw _ => exact moved_set hsub hsub' (.worker hw _) (by simp)
  | appliedFetch hsub _ => exact moved_set hsub hsub' (.fetch _) (by simp)
  | appliedOrphan _ => exact ⟨sub', hsub', .idle (by simp)⟩

/-! ## Runs -/

/-- The induction rule for runs: what every step on an act of the run carries on. -/
theorem run_induction {P : System → Prop} (hs : P s) (acts : List Act)
    (hstep : ∀ s, ∀ act ∈ acts, ∀ s', P s → s.step b act = some s' → P s') :
    P (s.run b acts) := by
  refine Run.final_induction (fun s act => ((), (s.step b act).getD s)) hs acts
    fun t act hact ht => ?_
  show P ((t.step b act).getD t)
  cases hnext : t.step b act with
  | none => exact ht
  | some t' => exact hstep t act hact t' ht hnext

/-- Every point of a run satisfies the invariant. -/
theorem run_inv (b : Backend) (start : Int) (cfgs : List SubscriberConfig) (acts : List Act) :
    ((init start cfgs).run b acts).Inv b :=
  run_induction (init_inv b start cfgs) acts fun _ _ _ _ h hstep => step_inv h hstep

/-- A property that holds at the start and is kept by every step from a state that satisfies
    the invariant. -/
theorem run_invariant {P : System → Prop} {start : Int} {cfgs : List SubscriberConfig}
    (hinit : P (init start cfgs)) (acts : List Act)
    (hstep : ∀ s, ∀ act ∈ acts, ∀ s', s.Inv b → P s → s.step b act = some s' → P s') :
    P ((init start cfgs).run b acts) :=
  (run_induction (P := fun s => s.Inv b ∧ P s) ⟨init_inv b start cfgs, hinit⟩ acts
    fun s act hact s' h hnext => ⟨step_inv h.1 hnext, hstep s act hact s' h.1 h.2 hnext⟩).2

/-- The rule for the subscribers of a run: a property of a subscriber that its own steps keep,
    and that does not depend on the replies its tasks have got. -/
theorem run_subscribers {P : Subscriber → Prop} {start : Int} {cfgs : List SubscriberConfig}
    (hinit : ∀ cfg ∈ cfgs, P { cfg := cfg }) (acts : List Act)
    (hstep : ∀ (s s' : Subscriber) (known : Row → Prop) (index : Nat) (act : SubscriberAct)
      (orphan : Option Stmt), .subscriber index act ∈ acts → s.Inv known → P s →
      s.step act = some (s', orphan) → P s')
    (hworker : ∀ (s : Subscriber) (i : Nat) (w : Worker) (reply : Reply), P s →
      s.workers[i]? = some w → P { s with workers := s.workers.set i (w.deliver reply) })
    (hfetch : ∀ (s : Subscriber) (reply : Reply), P s →
      P { s with fetch := s.fetch.deliver reply }) (index : Nat) (sub : Subscriber)
    (hsub : ((init start cfgs).run b acts).subscribers[index]? = some sub) : P sub := by
  refine run_invariant (b := b) (P := fun s => ∀ (index : Nat) (sub : Subscriber),
    s.subscribers[index]? = some sub → P sub) ?_ acts ?_ index sub hsub
  · intro index sub hsub
    obtain ⟨cfg, hcfg, rfl⟩ := mem_map.mp (mem_of_getElem? hsub)
    exact hinit cfg hcfg
  · intro s act hact s' hinv hall hnext index sub' hsub'
    obtain ⟨sub, hsub, hmoved⟩ := step_moved hnext hsub'
    have hold := hall index sub hsub
    cases hmoved with
    | idle _ => exact hold
    | stepped hsubstep =>
      exact hstep sub sub' _ index _ _ hact (hinv.subscribers index sub hsub) hold hsubstep
    | worker hw reply => exact hworker sub _ _ reply hold hw
    | fetch reply => exact hfetch sub reply hold

/-! ## Returned rows -/

/-- What an operation that returned a row was. -/
theorem Inv.of_returns (h : s.Inv b) {e : Executed} (he : e ∈ s.executed) {row : Row}
    (hreturns : e.Returns row) : ∃ index sub token limit leaseTtl locked r,
      e.source = .subscriber index (.fetch token sub.cfg.queues limit leaseTtl) ∧
      s.subscribers[index]? = some sub ∧
      e.entry.input = .fetch token sub.cfg.queues limit leaseTtl locked ∧
      e.entry.before.store.row? row.id = some r ∧ row.queue ∈ sub.cfg.queues ∧
      row = OutboxClient.claimSet r e.entry.before.now token ∧
      e.entry.after.store.row? row.id = some row := by
  obtain ⟨rows, hrows, hrow⟩ := hreturns
  obtain ⟨hwf, hstep⟩ := h.steps e he
  have hsent := h.sent e he
  have hreply : (World.step b e.entry.before e.entry.input).1 = .claimed rows := by
    rw [hstep, hrows]
  have hafter : (World.step b e.entry.before e.entry.input).2 = e.entry.after := by rw [hstep]
  cases hsource : e.source with
  | external =>
    -- no external operation returns claimed rows
    rw [hsource] at hsent
    have hop : e.entry.input.isExternal = true := hsent
    cases hinput : e.entry.input <;> rw [hinput] at hop hreply <;>
      first
        | (cases hreply; done)
        | cases hop
  | subscriber index stmt =>
    rw [hsource] at hsent
    obtain ⟨⟨sub, hsub, hjustified, _⟩, locked, hinput⟩ := hsent
    rw [hinput] at hreply hafter
    cases stmt with
    | fetch token queues limit leaseTtl =>
      obtain ⟨rfl, _⟩ := hjustified
      obtain ⟨rows', hreply', _, _, hstamped⟩ := World.fetch_reply hwf b token sub.cfg.queues
        limit leaseTtl locked
      have hstored := World.returned_stored hwf b hreply hrow
      have hsame : rows = rows' := Reply.claimed.inj (hreply.symm.trans hreply')
      obtain ⟨r, hr, hclaimable, hset⟩ := hstamped row (hsame ▸ hrow)
      refine ⟨index, sub, token, limit, leaseTtl, locked, r, rfl, hsub, hinput, hr, ?_, hset, ?_⟩
      · rw [hset]
        exact hclaimable.1
      · rw [← hafter]
        exact hstored
    | deleteWithLease m token dlqTable payload => cases hreply
    | markPendingWithLease m token delay => cases hreply
    | deleteBatchWithLease pending => cases hreply

/-- **One row for each id and token** among those fetches returned. -/
theorem Inv.returned_unique (h : s.Inv b) {e e' : Executed} (he : e ∈ s.executed)
    (he' : e' ∈ s.executed) {row row' : Row} (hreturns : e.Returns row)
    (hreturns' : e'.Returns row') (hid : row.id = row'.id)
    (htoken : row.acquiredToken = row'.acquiredToken) : row = row' := by
  obtain ⟨_, _, token, _, _, _, _, _, _, hinput, _, _, hset, hstored⟩ := h.of_returns he hreturns
  obtain ⟨_, _, token', _, _, _, _, _, _, hinput', _, _, hset', hstored'⟩ :=
    h.of_returns he' hreturns'
  have htokens : token = token' := by
    have hrow : row.acquiredToken = some token := by rw [hset]; rfl
    have hrow' : row'.acquiredToken = some token' := by rw [hset']; rfl
    exact Option.some_inj.mp (hrow.symm.trans (htoken.trans hrow'))
  -- the token was drawn once, so it is one operation
  have honce : tally (fun e => e.entry.input.drawn) token s.executed ≤ 1 := by
    have htokens := h.tokens token
    have hdrawn := h.drawn token
    omega
  have hsame : e = e' := tally_unique honce he he' (by rw [hinput]; rfl)
    (by rw [hinput', htokens]; rfl)
  subst hsame
  rw [hid, hstored'] at hstored
  exact (Option.some_inj.mp hstored).symm

/-- **While its lease is current, a claimed row is as it was returned.** -/
theorem Inv.row_of_held (h : s.Inv b) {index : Nat} {row stored : Row} {token : UUID}
    (hknown : s.known index row) (hstored : s.world.store.row? row.id = some stored)
    (hrow : row.acquiredToken = some token) (htoken : stored.acquiredToken = some token) :
    stored = row := by
  obtain ⟨e, he, _, hreturns⟩ := hknown
  obtain ⟨e', he', hreturns'⟩ := h.held row.id stored token hstored htoken
  have hid : stored.id = row.id := ((Store.row?_eq_some_iff h.wf).mp hstored).2
  exact h.returned_unique he' he hreturns' hreturns hid (htoken.trans hrow.symm)

end System

end Outbox
