import Outbox.ForStd.Latest
import Outbox.Spec.WorldStep

/-!
# Timer extends form a join

An unleased timer row is a register: it shows a deadline with the payload and the headers
that came with it, and an extend with a later deadline replaces the three and forgets the
retry history. What a sequence of extends does is then the join of `Latest.Register`,
through either client.

## Key results

- `timerRegister`, `extendSet_eq_write`: the upsert's `SET` list is the register's write
- `World.inserts_on_live`, `World.inserts_on_free`: the table after a sequence of extends
- `timer_extends_join`: the order makes no difference, and what is left in the end
-/

namespace Outbox

open OutboxClient (insertable conflicts excluded extendSet)

/-! ## The register -/

/-- What an extend asks for. -/
structure Heartbeat where
  deadline : Int
  payload : Bytes
  headers : Option Headers
deriving DecidableEq, Repr

/-- What a timer row is set to. -/
def Row.heartbeat (r : Row) : Heartbeat := ⟨r.nextAttemptAt, r.payload, r.headers⟩

/-- What an insert at the given reading of the clock asks for. -/
def InsertArgs.heartbeat (args : InsertArgs) (now : Int) : Heartbeat :=
  ⟨args.deadline now, args.payload, args.headers⟩

/-- The timer row as a register of heartbeats: a later one restarts the retry history. -/
def timerRegister : Latest.Register Row Heartbeat Int where
  view := Row.heartbeat
  stamp := Heartbeat.deadline
  set r h :=
    { r with
      nextAttemptAt := h.deadline
      payload := h.payload
      headers := h.headers
      attemptsCount := 0
      firstAttemptAt := none
      lastAttemptAt := none }
  view_set _ _ := rfl
  set_set _ _ _ := rfl

/-- An insert that extends the timer and that the client accepts. -/
structure Extends (queue timerId : String) (args : InsertArgs) : Prop where
  queue : args.queue = queue
  timer : args.timerId = some timerId
  mode : args.timerConflict = .extend
  accepted : insertable args.queue args.timerId args.headers = true

theorem excluded_nextAttemptAt (s : Store) (now : Int) (args : InsertArgs) :
    (excluded s now args).nextAttemptAt = args.deadline now := by
  simp only [excluded, InsertArgs.deadline, resolveNextAttemptClientSide]
  cases args.activateIn <;> rfl

/-- The six columns of the `SET` list are one write of the register. -/
theorem extendSet_eq_write (r : Row) (s : Store) (now : Int) (args : InsertArgs) :
    extendSet r (excluded s now args) = timerRegister.write r (args.heartbeat now) := by
  have hstamp : timerRegister.stamp (timerRegister.view r) = r.nextAttemptAt := rfl
  have hasked : timerRegister.stamp (args.heartbeat now) = args.deadline now := rfl
  unfold extendSet
  rw [excluded_nextAttemptAt]
  by_cases hlater : r.nextAttemptAt < args.deadline now
  · rw [timerRegister.write_of_lt (by rwa [hstamp, hasked])]
    have hmax : max r.nextAttemptAt (args.deadline now) = args.deadline now :=
      Int.max_eq_right (Int.le_of_lt hlater)
    simp [hlater, hmax, excluded, timerRegister, InsertArgs.heartbeat]
  · rw [timerRegister.write_of_le (by rw [hstamp, hasked]; exact Int.not_lt.mp hlater)]
    have hmax : max r.nextAttemptAt (args.deadline now) = r.nextAttemptAt :=
      Int.max_eq_left (Int.not_lt.mp hlater)
    simp [hlater, hmax]

/-- A write keeps the columns an extend does not set. -/
theorem timerRegister_write_keeps (r : Row) (h : Heartbeat) :
    let r' := timerRegister.write r h
    r'.id = r.id ∧ r'.queue = r.queue ∧ r'.timerId = r.timerId ∧ r'.createdAt = r.createdAt ∧
      r'.deliveriesCount = r.deliveriesCount ∧ r'.acquiredAt = r.acquiredAt ∧
      r'.acquiredToken = r.acquiredToken := by
  intro r'
  have heq : r' = timerRegister.set r h ∨ r' = r := by
    show timerRegister.write r h = _ ∨ timerRegister.write r h = _
    unfold Latest.Register.write
    split
    · exact .inl rfl
    · exact .inr rfl
  obtain heq | heq := heq <;> rw [heq] <;> exact ⟨rfl, rfl, rfl, rfl, rfl, rfl, rfl⟩

/-! ## One extend -/

/-- The row of the timer is the row the statement conflicts with. -/
theorem Extends.conflicts_eq {queue timerId : String} {args : InsertArgs}
    (h : Extends queue timerId args) (s : Store) (now : Int) (r : Row) :
    conflicts (excluded s now args) r = r.holdsTimer queue timerId := by
  have hqueue : (excluded s now args).queue = queue := h.queue
  have htimer : (excluded s now args).timerId = some timerId := h.timer
  simp only [conflicts, Row.holdsTimer, hqueue, htimer, Option.isSome_some, Bool.true_and]

namespace World

variable {w : World} (hwf : w.store.WF) {queue timerId : String}
include hwf

/-- Both clients leave the tables the statement leaves. -/
theorem insert_tables (b : Backend) (now : Int) {args : InsertArgs}
    (hok : insertable args.queue args.timerId args.headers = true) :
    (w.step b (.insert now args)).2.store.rows = (OutboxClient.insert w.store now args).2.rows ∧
      (w.step b (.insert now args)).2.store.dlqRows =
        (OutboxClient.insert w.store now args).2.dlqRows := by
  cases b with
  | postgres => exact ⟨rfl, rfl⟩
  | fake =>
    have happly : (w.step .fake (.insert now args)).2.store =
        (FakeOutboxClient.insert w.store now args).2 := rfl
    rw [happly, FakeOutboxClient.insert_eq hwf now hok]
    exact ⟨rfl, rfl⟩

/-- An extend of a live, unleased timer writes its register. -/
theorem extend_on_live (b : Backend) (now : Int) {args : InsertArgs}
    (hargs : Extends queue timerId args) {r : Row} (hr : r ∈ w.store.rows)
    (hkey : r.holdsTimer queue timerId = true) (hfree : r.acquiredToken = none) :
    (w.step b (.insert now args)).2.store.rows = (w.store.rows.map fun x =>
        if x.holdsTimer queue timerId then timerRegister.write x (args.heartbeat now) else x) ∧
      (w.step b (.insert now args)).2.store.dlqRows = w.store.dlqRows := by
  obtain ⟨hrows, hdlq⟩ := insert_tables hwf b now hargs.accepted
  rw [hrows, hdlq]
  have hconflicts : conflicts (excluded w.store now args) = fun x =>
      x.holdsTimer queue timerId := funext fun x => hargs.conflicts_eq w.store now x
  have hfind : w.store.rows.find? (fun x => x.holdsTimer queue timerId) = some r := by
    cases hfind : w.store.rows.find? (fun x => x.holdsTimer queue timerId) with
    | none => exact absurd hkey (List.find?_eq_none.mp hfind r hr)
    | some x =>
      have hx := List.find?_some hfind
      exact congrArg some (List.eq_of_pairwise_not (hwf.holdsTimer_unique queue timerId)
        (List.mem_of_find?_eq_some hfind) hr hx hkey)
  unfold OutboxClient.insert
  rw [if_neg (by simp [hargs.accepted])]
  simp only [hconflicts, hfind, hargs.mode, hfree, Option.isNone_none, if_true,
    extendSet_eq_write, and_self]

/-- An extend of a timer no live row holds inserts its row. -/
theorem extend_on_free (b : Backend) (now : Int) {args : InsertArgs}
    (hargs : Extends queue timerId args)
    (hnone : ∀ r ∈ w.store.rows, ¬r.holdsTimer queue timerId = true) :
    (w.step b (.insert now args)).2.store.rows =
        w.store.rows ++ [excluded w.store now args] ∧
      (w.step b (.insert now args)).2.store.dlqRows = w.store.dlqRows := by
  obtain ⟨hrows, hdlq⟩ := insert_tables hwf b now hargs.accepted
  rw [hrows, hdlq]
  have hfind : w.store.rows.find? (conflicts (excluded w.store now args)) = none := by
    refine List.find?_eq_none.mpr fun r hr => ?_
    rw [hargs.conflicts_eq]
    exact hnone r hr
  unfold OutboxClient.insert
  rw [if_neg (by simp [hargs.accepted])]
  simp only [hfind, and_self]

end World

/-! ## A sequence of extends -/

/-- The inserts of a list, in order, each with its reading of the clock. -/
def World.inserts (b : Backend) (w : World) (calls : List (Int × InsertArgs)) : World :=
  Run.final (World.step b) w (calls.map fun c => .insert c.1 c.2)

/-- What the calls ask for. -/
def heartbeats (calls : List (Int × InsertArgs)) : List Heartbeat :=
  calls.map fun c => c.2.heartbeat c.1

/-- The live rows of a timer. -/
def Store.timerRows (s : Store) (queue timerId : String) : List Row :=
  s.rows.filter fun r => r.holdsTimer queue timerId

namespace World

variable {queue timerId : String}

@[simp] theorem inserts_cons (b : Backend) (w : World) (c : Int × InsertArgs)
    (calls : List (Int × InsertArgs)) :
    w.inserts b (c :: calls) = (w.step b (.insert c.1 c.2)).2.inserts b calls := rfl

theorem inserts_wf {w : World} (hwf : w.store.WF) (b : Backend)
    (calls : List (Int × InsertArgs)) : (w.inserts b calls).store.WF :=
  Run.final_invariant (P := fun w : World => w.store.WF) (fun _ op hw => apply_wf hw b op) hwf _

theorem writes_keeps (r : Row) (hs : List Heartbeat) :
    let r' := timerRegister.writes r hs
    r'.id = r.id ∧ r'.queue = r.queue ∧ r'.timerId = r.timerId ∧ r'.createdAt = r.createdAt ∧
      r'.deliveriesCount = r.deliveriesCount ∧ r'.acquiredAt = r.acquiredAt ∧
      r'.acquiredToken = r.acquiredToken := by
  induction hs generalizing r with
  | nil => exact ⟨rfl, rfl, rfl, rfl, rfl, rfl, rfl⟩
  | cons h hs ih =>
    have hhead := timerRegister_write_keeps r h
    have htail := ih (timerRegister.write r h)
    simp only [Latest.Register.writes_cons] at hhead htail ⊢
    simp only [htail, hhead, and_self]

theorem holdsTimer_writes (r : Row) (hs : List Heartbeat) :
    (timerRegister.writes r hs).holdsTimer queue timerId = r.holdsTimer queue timerId := by
  obtain ⟨-, hqueue, htimer, -⟩ := writes_keeps r hs
  simp only [Row.holdsTimer, hqueue, htimer]

/-- A sequence of extends of a live, unleased timer writes its register in order, and
    touches no other row. -/
theorem inserts_on_live {w : World} (hwf : w.store.WF) (b : Backend)
    {calls : List (Int × InsertArgs)} (hcalls : ∀ c ∈ calls, Extends queue timerId c.2)
    {r : Row} (hr : r ∈ w.store.rows) (hkey : r.holdsTimer queue timerId = true)
    (hfree : r.acquiredToken = none) :
    (w.inserts b calls).store.rows = (w.store.rows.map fun x =>
        if x.holdsTimer queue timerId then timerRegister.writes x (heartbeats calls) else x) ∧
      (w.inserts b calls).store.dlqRows = w.store.dlqRows := by
  induction calls generalizing w r with
  | nil =>
    refine ⟨?_, rfl⟩
    show w.store.rows = _
    have hsame : ∀ x ∈ w.store.rows,
        (if x.holdsTimer queue timerId then timerRegister.writes x (heartbeats []) else x) = x :=
      fun x _ => ite_self x
    rw [List.map_congr_left hsame, List.map_id']
  | cons c calls ih =>
    have hargs := hcalls c List.mem_cons_self
    obtain ⟨hrows, hdlq⟩ := extend_on_live hwf b c.1 hargs hr hkey hfree
    -- the row the call leaves is live and unleased, too
    obtain ⟨-, -, -, -, -, -, htoken⟩ := timerRegister_write_keeps r (c.2.heartbeat c.1)
    have hmem : timerRegister.write r (c.2.heartbeat c.1) ∈
        (w.step b (.insert c.1 c.2)).2.store.rows := by
      rw [hrows, List.mem_map]
      exact ⟨r, hr, by rw [if_pos hkey]⟩
    have hholds : ∀ x : Row, (timerRegister.write x (c.2.heartbeat c.1)).holdsTimer queue timerId =
        x.holdsTimer queue timerId := fun x => holdsTimer_writes x [c.2.heartbeat c.1]
    obtain ⟨hrest, hdlq'⟩ := ih (apply_wf hwf b _)
      (fun c' hc' => hcalls c' (List.mem_cons_of_mem c hc')) hmem ((hholds r).trans hkey)
      (htoken.trans hfree)
    refine ⟨?_, hdlq'.trans hdlq⟩
    rw [inserts_cons, hrest, hrows, List.map_map]
    refine List.map_congr_left fun x _ => ?_
    by_cases hx : x.holdsTimer queue timerId = true
    · simp only [Function.comp_apply, hx, if_true, hholds]
      rfl
    · simp only [Function.comp_apply, hx, if_false, Bool.false_eq_true]

/-- A sequence of extends of a timer no live row holds: the first inserts the row. -/
theorem inserts_on_free {w : World} (hwf : w.store.WF) (b : Backend) {c : Int × InsertArgs}
    {calls : List (Int × InsertArgs)}
    (hcalls : ∀ c' ∈ c :: calls, Extends queue timerId c'.2)
    (hnone : ∀ r ∈ w.store.rows, ¬r.holdsTimer queue timerId = true) :
    (w.inserts b (c :: calls)).store.rows = w.store.rows ++
        [timerRegister.writes (excluded w.store c.1 c.2) (heartbeats calls)] ∧
      (w.inserts b (c :: calls)).store.dlqRows = w.store.dlqRows := by
  have hargs := hcalls c List.mem_cons_self
  obtain ⟨hrows, hdlq⟩ := extend_on_free hwf b c.1 hargs hnone
  have hkey : (excluded w.store c.1 c.2).holdsTimer queue timerId = true := by
    have hqueue : (excluded w.store c.1 c.2).queue = queue := hargs.queue
    have htimer : (excluded w.store c.1 c.2).timerId = some timerId := hargs.timer
    simp [Row.holdsTimer, hqueue, htimer]
  have hmem : excluded w.store c.1 c.2 ∈ (w.step b (.insert c.1 c.2)).2.store.rows := by
    rw [hrows]
    exact List.mem_append_right _ List.mem_cons_self
  obtain ⟨hrest, hdlq'⟩ := inserts_on_live (apply_wf hwf b (.insert c.1 c.2)) b
    (fun c' hc' => hcalls c' (List.mem_cons_of_mem c hc')) hmem hkey rfl
  refine ⟨?_, hdlq'.trans hdlq⟩
  rw [inserts_cons, hrest]
  show (w.step b (.insert c.1 c.2)).2.store.rows.map _ = _
  have hsame : ∀ x ∈ w.store.rows, (if x.holdsTimer queue timerId then
      timerRegister.writes x (heartbeats calls) else x) = x :=
    fun x hx => if_neg (hnone x hx)
  rw [hrows, List.map_append, List.map_congr_left hsame, List.map_id', List.map_singleton,
    if_pos hkey]

end World

/-! ## The claim -/

/-- What extends that ask for `hs` leave of the live row `r`: the heartbeat with the latest
    deadline, the stored one included; the retry history only if it is the stored one; and
    everything else. -/
structure Joined (r : Row) (hs : List Heartbeat) (row : Row) : Prop where
  latest : row.heartbeat ∈ r.heartbeat :: hs ∧
    ∀ h ∈ r.heartbeat :: hs, h.deadline ≤ row.nextAttemptAt
  history : if ∃ h ∈ hs, r.nextAttemptAt < h.deadline
    then row.attemptsCount = 0 ∧ row.firstAttemptAt = none ∧ row.lastAttemptAt = none
    else row.attemptsCount = r.attemptsCount ∧ row.firstAttemptAt = r.firstAttemptAt ∧
      row.lastAttemptAt = r.lastAttemptAt
  keeps : row.id = r.id ∧ row.queue = r.queue ∧ row.timerId = r.timerId ∧
    row.createdAt = r.createdAt ∧ row.deliveriesCount = r.deliveriesCount ∧
    row.acquiredAt = r.acquiredAt ∧ row.acquiredToken = r.acquiredToken

theorem joined_writes (r : Row) (hs : List Heartbeat) :
    Joined r hs (timerRegister.writes r hs) where
  latest := by
    have hfirst := timerRegister.first_writes r hs
    exact ⟨hfirst.mem, fun h hh => hfirst.le hh⟩
  history := by
    have heq := timerRegister.writes_eq r hs
    by_cases hlater : ∃ h ∈ hs, r.nextAttemptAt < h.deadline
    · have hset := heq.trans (if_pos hlater)
      rw [if_pos hlater, hset]
      exact ⟨rfl, rfl, rfl⟩
    · have hsame := heq.trans (if_neg hlater)
      rw [if_neg hlater, hsame]
      exact ⟨rfl, rfl, rfl⟩
  keeps := World.writes_keeps r hs

namespace World

variable {w : World} (hwf : w.store.WF) {queue timerId : String}
include hwf

/-- One row holds the timer. -/
theorem timerRows_eq {r : Row} (hr : r ∈ w.store.rows) (hkey : r.holdsTimer queue timerId = true) :
    w.store.timerRows queue timerId = [r] := by
  unfold Store.timerRows
  have hunique := hwf.holdsTimer_unique queue timerId
  rw [List.filter_eq_find?_toList hunique]
  cases hfind : w.store.rows.find? (fun x => x.holdsTimer queue timerId) with
  | none => exact absurd hkey (List.find?_eq_none.mp hfind r hr)
  | some x =>
    have hx := List.find?_some hfind
    rw [List.eq_of_pairwise_not hunique (List.mem_of_find?_eq_some hfind) hr hx hkey]
    rfl

/-- The row extends leave of a live, unleased row. -/
theorem timerRows_on_live (b : Backend) {calls : List (Int × InsertArgs)}
    (hcalls : ∀ c ∈ calls, Extends queue timerId c.2) {r : Row} (hr : r ∈ w.store.rows)
    (hkey : r.holdsTimer queue timerId = true) (hfree : r.acquiredToken = none) :
    (w.inserts b calls).store.timerRows queue timerId =
      [timerRegister.writes r (heartbeats calls)] := by
  refine timerRows_eq (inserts_wf hwf b calls) ?_ ((holdsTimer_writes r _).trans hkey)
  rw [(inserts_on_live hwf b hcalls hr hkey hfree).1, List.mem_map]
  exact ⟨r, hr, by rw [if_pos hkey]⟩

/-- The row extends leave of a timer no live row holds: it has the id the first of them
    drew and counts its age from there, and shows the first of the latest heartbeats. -/
theorem timerRows_on_free (b : Backend) {c : Int × InsertArgs} {calls : List (Int × InsertArgs)}
    (hcalls : ∀ c' ∈ c :: calls, Extends queue timerId c'.2)
    (hnone : ∀ r ∈ w.store.rows, ¬r.holdsTimer queue timerId = true) :
    ∃ h, Latest.First Heartbeat.deadline (heartbeats (c :: calls)) h ∧
      (w.inserts b (c :: calls)).store.timerRows queue timerId =
        [freshRow w.store.nextId queue h.payload h.headers (some timerId) c.1 h.deadline] := by
  have hargs := hcalls c List.mem_cons_self
  have hview : (excluded w.store c.1 c.2).heartbeat = c.2.heartbeat c.1 := by
    simp only [Row.heartbeat, InsertArgs.heartbeat, excluded_nextAttemptAt]
    rfl
  have hfresh : ∀ h : Heartbeat, timerRegister.set (excluded w.store c.1 c.2) h =
      freshRow w.store.nextId queue h.payload h.headers (some timerId) c.1 h.deadline := by
    intro h
    rw [← hargs.queue, ← hargs.timer]
    rfl
  have hstart : timerRegister.set (excluded w.store c.1 c.2) (excluded w.store c.1 c.2).heartbeat =
      excluded w.store c.1 c.2 := rfl
  have hfirst := timerRegister.first_writes (excluded w.store c.1 c.2) (heartbeats calls)
  have hrow := timerRegister.writes_eq (excluded w.store c.1 c.2) (heartbeats calls)
  generalize hend : timerRegister.writes (excluded w.store c.1 c.2) (heartbeats calls) = row
    at hfirst hrow
  -- a fresh row is what its register is set to, whether or not a later call replaced it
  have hset : row = timerRegister.set (excluded w.store c.1 c.2) row.heartbeat := by
    split at hrow
    · exact hrow
    · rw [hrow, hstart]
  refine ⟨row.heartbeat, ?_, ?_⟩
  · have hview' : timerRegister.view (excluded w.store c.1 c.2) = c.2.heartbeat c.1 := hview
    rw [hview'] at hfirst
    exact hfirst
  · rw [← hfresh, ← hset]
    refine timerRows_eq (inserts_wf hwf b _) ?_ ?_
    · rw [(inserts_on_free hwf b hcalls hnone).1, hend]
      exact List.mem_append_right _ List.mem_cons_self
    · rw [hset, hfresh]
      simp [freshRow, Row.holdsTimer]

/-- An extend that was applied already changes nothing. -/
theorem extend_again (b : Backend) {calls : List (Int × InsertArgs)}
    (hcalls : ∀ c ∈ calls, Extends queue timerId c.2)
    (hfree : ∀ r ∈ w.store.rows, r.holdsTimer queue timerId = true → r.acquiredToken = none)
    {c : Int × InsertArgs} (hc : c ∈ calls) :
    ((w.inserts b calls).step b (.insert c.1 c.2)).2.store.rows = (w.inserts b calls).store.rows ∧
      ((w.inserts b calls).step b (.insert c.1 c.2)).2.store.dlqRows =
        (w.inserts b calls).store.dlqRows := by
  have hwf' := inserts_wf hwf b calls
  -- the timer's row, with a deadline no earlier than the call's
  have hrow : ∃ row ∈ (w.inserts b calls).store.rows, row.holdsTimer queue timerId = true ∧
      row.acquiredToken = none ∧ c.2.deadline c.1 ≤ row.nextAttemptAt := by
    have hmem : ∀ row, (w.inserts b calls).store.timerRows queue timerId = [row] →
        row ∈ (w.inserts b calls).store.rows ∧ row.holdsTimer queue timerId = true :=
      fun row htimer => List.mem_filter.mp (htimer ▸ List.mem_cons_self)
    have hasked : c.2.heartbeat c.1 ∈ heartbeats calls := List.mem_map_of_mem hc
    by_cases hlive : ∃ r ∈ w.store.rows, r.holdsTimer queue timerId = true
    · obtain ⟨r, hr, hkey⟩ := hlive
      have htimer := timerRows_on_live hwf b hcalls hr hkey (hfree r hr hkey)
      obtain ⟨hin, hholds⟩ := hmem _ htimer
      obtain ⟨-, -, -, -, -, -, htoken⟩ := writes_keeps r (heartbeats calls)
      exact ⟨_, hin, hholds, htoken.trans (hfree r hr hkey), timerRegister.le_writes hasked⟩
    · have hnone : ∀ r ∈ w.store.rows, ¬r.holdsTimer queue timerId = true :=
        fun r hr hkey => hlive ⟨r, hr, hkey⟩
      cases calls with
      | nil => cases hc
      | cons c₀ calls =>
        obtain ⟨h, hfirst, htimer⟩ := timerRows_on_free hwf b hcalls hnone
        obtain ⟨hin, hholds⟩ := hmem _ htimer
        exact ⟨_, hin, hholds, rfl, hfirst.le hasked⟩
  obtain ⟨row, hin, hkey, htoken, hle⟩ := hrow
  obtain ⟨hrows, hdlq⟩ := extend_on_live hwf' b c.1 (hcalls c hc) hin hkey htoken
  refine ⟨?_, hdlq⟩
  rw [hrows]
  have hsame : ∀ x ∈ (w.inserts b calls).store.rows, (if x.holdsTimer queue timerId then
      timerRegister.write x (c.2.heartbeat c.1) else x) = x := by
    intro x hx
    split
    · rename_i hxkey
      rw [List.eq_of_pairwise_not (hwf'.holdsTimer_unique queue timerId) hx hin hxkey hkey]
      exact timerRegister.write_of_le hle
    · rfl
  rw [List.map_congr_left hsame, List.map_id']

/-- The two clients agree on the tables. -/
theorem inserts_agree {calls : List (Int × InsertArgs)}
    (hcalls : ∀ c ∈ calls, Extends queue timerId c.2)
    (hfree : ∀ r ∈ w.store.rows, r.holdsTimer queue timerId = true → r.acquiredToken = none) :
    (w.inserts .fake calls).store.rows = (w.inserts .postgres calls).store.rows ∧
      (w.inserts .fake calls).store.dlqRows = (w.inserts .postgres calls).store.dlqRows := by
  by_cases hlive : ∃ r ∈ w.store.rows, r.holdsTimer queue timerId = true
  · obtain ⟨r, hr, hkey⟩ := hlive
    have h := fun b => inserts_on_live hwf b hcalls hr hkey (hfree r hr hkey)
    exact ⟨(h .fake).1.trans (h .postgres).1.symm, (h .fake).2.trans (h .postgres).2.symm⟩
  · cases calls with
    | nil => exact ⟨rfl, rfl⟩
    | cons c calls =>
      have h := fun b => inserts_on_free hwf b hcalls fun r hr hkey => hlive ⟨r, hr, hkey⟩
      exact ⟨(h .fake).1.trans (h .postgres).1.symm, (h .fake).2.trans (h .postgres).2.symm⟩

end World

/-- **Timer extends form a join.** Take extends of one timer whose row, if it has one, is not
    leased, through either client. With distinct deadlines every order of them ends with the
    same row for the timer: the latest heartbeat, the retry history reset iff some deadline
    is later than the stored one, and all else as it was; no other row changes. A timer
    without a row gets one that only takes its `created_at` from the order. Equal deadlines
    keep the earliest; an extend applied again changes nothing; and the two clients agree. -/
theorem timer_extends_join (b : Backend) (w : World) (hwf : w.store.WF) (queue timerId : String)
    (hfree : ∀ r ∈ w.store.rows, r.holdsTimer queue timerId = true → r.acquiredToken = none)
    (calls : List (Int × InsertArgs)) (hcalls : ∀ c ∈ calls, Extends queue timerId c.2) :
    (∀ r ∈ w.store.rows, r.holdsTimer queue timerId = true →
      ((r.nextAttemptAt :: (heartbeats calls).map Heartbeat.deadline).Nodup →
        ∃ row, Joined r (heartbeats calls) row ∧ ∀ order, order.Perm calls →
          (w.inserts b order).store.timerRows queue timerId = [row] ∧
          (w.inserts b order).store.rows =
            w.store.rows.map fun x => if x.holdsTimer queue timerId then row else x) ∧
      ∃ row, (w.inserts b calls).store.timerRows queue timerId = [row] ∧
        Latest.First Heartbeat.deadline (r.heartbeat :: heartbeats calls) row.heartbeat) ∧
    ((∀ r ∈ w.store.rows, ¬r.holdsTimer queue timerId = true) → calls ≠ [] →
      (((heartbeats calls).map Heartbeat.deadline).Nodup →
        ∃ h ∈ heartbeats calls, (∀ h' ∈ heartbeats calls, h'.deadline ≤ h.deadline) ∧
          ∀ c order, (c :: order).Perm calls →
            (w.inserts b (c :: order)).store.timerRows queue timerId =
              [freshRow w.store.nextId queue h.payload h.headers (some timerId) c.1 h.deadline]) ∧
      ∃ row, (w.inserts b calls).store.timerRows queue timerId = [row] ∧
        Latest.First Heartbeat.deadline (heartbeats calls) row.heartbeat) ∧
    (∀ c ∈ calls,
      ((w.inserts b calls).step b (.insert c.1 c.2)).2.store.rows =
        (w.inserts b calls).store.rows ∧
      ((w.inserts b calls).step b (.insert c.1 c.2)).2.store.dlqRows =
        (w.inserts b calls).store.dlqRows) ∧
    (w.inserts .fake calls).store.rows = (w.inserts .postgres calls).store.rows ∧
      (w.inserts .fake calls).store.dlqRows = (w.inserts .postgres calls).store.dlqRows := by
  refine ⟨?_, ?_, fun c hc => World.extend_again hwf b hcalls hfree hc,
    World.inserts_agree hwf hcalls hfree⟩
  · intro r hr hkey
    refine ⟨fun hnodup => ⟨_, joined_writes r (heartbeats calls), fun order hp => ?_⟩,
      _, World.timerRows_on_live hwf b hcalls hr hkey (hfree r hr hkey),
      timerRegister.first_writes r (heartbeats calls)⟩
    have horder : ∀ c ∈ order, Extends queue timerId c.2 := fun c hc =>
      hcalls c (hp.mem_iff.mp hc)
    have heq : timerRegister.writes r (heartbeats order) =
        timerRegister.writes r (heartbeats calls) :=
      (timerRegister.writes_perm (List.nodup_cons.mp hnodup).2 (hp.map _).symm r).symm
    refine ⟨heq ▸ World.timerRows_on_live hwf b horder hr hkey (hfree r hr hkey), ?_⟩
    rw [(World.inserts_on_live hwf b horder hr hkey (hfree r hr hkey)).1]
    refine List.map_congr_left fun x hx => ?_
    by_cases hxkey : x.holdsTimer queue timerId = true
    · -- the one row that holds the timer
      rw [if_pos hxkey, if_pos hxkey, ← heq,
        List.eq_of_pairwise_not (hwf.holdsTimer_unique queue timerId) hx hr hxkey hkey]
    · rw [if_neg hxkey, if_neg hxkey]
  · intro hnone hne
    obtain ⟨c₀, calls₀, rfl⟩ := List.exists_cons_of_ne_nil hne
    obtain ⟨h, hfirst, htimer⟩ := World.timerRows_on_free hwf b hcalls hnone
    refine ⟨fun hnodup => ⟨h, hfirst.mem, fun h' hh' => hfirst.le hh', ?_⟩, _, htimer, hfirst⟩
    intro c order hp
    obtain ⟨h', hfirst', htimer'⟩ := World.timerRows_on_free hwf b
      (fun c' hc' => hcalls c' (hp.mem_iff.mp hc')) hnone
    have heq : h' = h := hfirst.unique hfirst' (hp.map _) hnodup
    rw [htimer', heq]

/-- A timer with a retry behind it, and two heartbeats that arrive out of order. -/
def timerWorld : World :=
  { store :=
      { rows := [{ id := 1, queue := "orders", payload := [1], headers := none, createdAt := 0
                   attemptsCount := 2, firstAttemptAt := some 3, lastAttemptAt := some 4
                   nextAttemptAt := 10, timerId := some "t" }]
        nextId := 2 }
    now := 5 }

/-- The heartbeat that asks for a deadline `activateIn` from now. -/
def heartbeatCall (activateIn : Int) (payload : Bytes) : Int × InsertArgs :=
  (5, { queue := "orders", payload := payload, activateIn := some activateIn
        timerId := some "t", timerConflict := .extend })

theorem timer_extends_join_timerWorld :
    ((timerWorld.inserts .postgres [heartbeatCall 20 [3], heartbeatCall 15 [2]]).store.timerRows
        "orders" "t").map Row.heartbeat = [⟨25, [3], none⟩] ∧
    ∃ row, ∀ order, order.Perm [heartbeatCall 20 [3], heartbeatCall 15 [2]] →
      (timerWorld.inserts .postgres order).store.timerRows "orders" "t" = [row] := by
  have hwf : timerWorld.store.WF :=
    { nodup_ids := by decide
      ids_lt := by decide
      lease_ck := by decide
      timer_uq := by decide }
  have hcalls : ∀ c ∈ [heartbeatCall 20 [3], heartbeatCall 15 [2]], Extends "orders" "t" c.2 := by
    intro c hc
    simp only [List.mem_cons, List.not_mem_nil, or_false] at hc
    obtain rfl | rfl := hc <;> exact ⟨rfl, rfl, rfl, by decide⟩
  have hfree : ∀ r ∈ timerWorld.store.rows, r.holdsTimer "orders" "t" = true →
      r.acquiredToken = none := by decide
  obtain ⟨hlive, -⟩ := timer_extends_join .postgres timerWorld hwf "orders" "t" hfree _ hcalls
  obtain ⟨horders, -⟩ := hlive _ List.mem_cons_self (by decide)
  obtain ⟨row, -, hrow⟩ := horders (by decide)
  exact ⟨by decide, row, fun order hp => (hrow order hp).1⟩

end Outbox
