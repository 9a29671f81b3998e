import Outbox.ForStd.List

/-!
# Outbox schema

The columns of the outbox table and of the dead-letter table (`schema.py`), the
values they hold, and the activation arguments of a publish (`_scheduling.py`).

A timestamp is an `Int` of microseconds, the resolution both a Python `datetime`
and a Postgres `timestamptz` store; an interval given in float seconds is taken
after its conversion to that resolution. A `bigint` column is a `Nat`.
-/

namespace Outbox

/-- A lease token (`uuid4`): only ever compared for equality. -/
abbrev UUID := Nat

/-- The bytes of a payload. -/
abbrev Bytes := List UInt8

/-- A value of a headers dict: a `str`, or an object of the named type that
    `json.dumps` refuses. -/
inductive HeaderValue where
  | str (s : String)
  | object (typeName : String)
deriving DecidableEq, Repr

/-- `dict[str, str]`, in insertion order. -/
abbrev Headers := List (String × HeaderValue)

/-- What `publish(..., timer_id=...)` does when a live row holds the key. -/
inductive TimerConflict where
  | ignore
  | extend
deriving DecidableEq, Repr

/-- One outbox record: the columns of `make_outbox_table`, which are also the fields
    of `_FakeRow`, with their server defaults. -/
structure Row where
  id : Nat
  queue : String
  payload : Bytes
  headers : Option Headers
  attemptsCount : Nat := 0
  deliveriesCount : Nat := 0
  createdAt : Int
  nextAttemptAt : Int
  firstAttemptAt : Option Int := none
  lastAttemptAt : Option Int := none
  acquiredAt : Option Int := none
  acquiredToken : Option UUID := none
  timerId : Option String := none
deriving DecidableEq, Repr

namespace Row

/-- The `<table>_lease_ck` CHECK: a lease is fully set or fully unset. -/
def LeaseCk (r : Row) : Prop := r.acquiredToken = none ↔ r.acquiredAt = none

instance (r : Row) : Decidable r.LeaseCk := inferInstanceAs (Decidable (_ ↔ _))

/-- The row is the live row of `(queue, timer_id)`, the key of `<table>_timer_id_uq`. -/
def holdsTimer (r : Row) (queue timerId : String) : Bool :=
  r.queue == queue && r.timerId == some timerId

/-- `ORDER BY next_attempt_at, id`. -/
def claimLe (a b : Row) : Prop :=
  a.nextAttemptAt < b.nextAttemptAt ∨ a.nextAttemptAt = b.nextAttemptAt ∧ a.id ≤ b.id

instance : DecidableRel claimLe := fun _ _ => inferInstanceAs (Decidable (_ ∨ _))

instance : Std.Total claimLe where
  total a b := by simp only [claimLe]; omega

instance : IsTrans Row claimLe where
  trans a b c := by simp only [claimLe]; omega

/-- `ORDER BY id`. -/
def idLe (a b : Row) : Prop := a.id ≤ b.id

instance : DecidableRel idLe := fun _ _ => inferInstanceAs (Decidable (_ ≤ _))

instance : Std.Total idLe where
  total a b := Nat.le_total a.id b.id

instance : IsTrans Row idLe where
  trans _ _ _ := Nat.le_trans

end Row

/-- Rows with distinct ids are told apart by `ORDER BY next_attempt_at, id`. -/
theorem untied_claimLe {rows : List Row} (h : (rows.map Row.id).Nodup) :
    rows.Untied Row.claimLe := by
  intro a ha b hb hab hba
  have hid : a.id = b.id := by
    simp only [Row.claimLe] at hab hba
    omega
  exact List.inj_on_of_nodup_map h ha hb hid

/-- The columns of `make_dlq_table`; its surrogate key is never read. -/
structure DlqRow where
  originalId : Nat
  queue : String
  payload : Bytes
  headers : Option Headers
  deliveriesCount : Nat
  createdAt : Int
  timerId : Option String
  failedAt : Int
  failureReason : String
  lastException : Option String
deriving DecidableEq, Repr

/-- The columns `_DLQ_PROJECTION` copies from the outbox row, `_DLQ_INJECTED_COLUMNS`
    from the caller, and `failed_at` from its server default. -/
def dlqProjection (r : Row) (failedAt : Int) (failureReason : String)
    (lastException : Option String) : DlqRow :=
  { originalId := r.id
    queue := r.queue
    payload := r.payload
    headers := r.headers
    deliveriesCount := r.deliveriesCount
    createdAt := r.createdAt
    timerId := r.timerId
    failedAt := failedAt
    failureReason := failureReason
    lastException := lastException }

/-- The `dlq_payload` mapping; `none` where the key is absent. -/
structure DlqPayload where
  failureReason : Option String
  lastException : Option (Option String)
deriving DecidableEq, Repr

/-- The exceptions a client call raises. -/
inductive Error where
  | typeError (msg : String)
  | valueError (msg : String)
  /-- A date or an interval out of Python's range. -/
  | overflowError
  | runtimeError (msg : String)
  | keyError (key : String)
  /-- The driver or the server refused the statement. -/
  | statementError
deriving DecidableEq, Repr

/-- The rows a client stores: the outbox table, the next row id (the fake's `_next_id`,
    Postgres's sequence) and the dead-letter table. -/
structure Store where
  rows : List Row := []
  nextId : Nat := 1
  dlqRows : List DlqRow := []
deriving DecidableEq, Repr

/-- The arguments of `insert`. -/
structure InsertArgs where
  queue : String
  payload : Bytes
  headers : Option Headers := none
  activateIn : Option Int := none
  activateAt : Option Int := none
  timerId : Option String := none
  timerConflict : TimerConflict := .ignore
deriving DecidableEq, Repr

/-- The arguments of `insert_batch`; `rows` are `(payload, headers)` pairs. -/
structure InsertBatchArgs where
  queue : String
  rows : List (Bytes × Option Headers)
  activateIn : Option Int := none
  activateAt : Option Int := none
deriving DecidableEq, Repr

/-! ## Scheduling -/

/-- Whether a row is genuinely future-dated, so that its NOTIFY is skipped. -/
def isFutureDated (activateIn : Option Int) (activateAt : Option Int) (now : Int) : Bool :=
  match activateIn, activateAt with
  | some d, _ => decide (0 < d)
  | none, some t => decide (now < t)
  | none, none => false

/-- Resolve `activate_in` / `activate_at` to a `next_attempt_at` (client clock). -/
def resolveNextAttemptClientSide (activateIn : Option Int) (activateAt : Option Int)
    (now : Int) : Option Int :=
  match activateIn with
  | some d => some (now + d)
  | none => activateAt

/-- The deadline an `insert` asks for: the resolved activation, or the clock. -/
def InsertArgs.deadline (args : InsertArgs) (now : Int) : Int :=
  (resolveNextAttemptClientSide args.activateIn args.activateAt now).getD now

/-! ## Values Postgres refuses -/

/-- `_MAX_QUEUE_LENGTH`, the width of the `String(255)` columns. -/
def maxQueueLength : Nat := 255

/-- The object `json.dumps` stops at, if any. -/
def Headers.unserializable (headers : Option Headers) : Option String :=
  (headers.getD []).findSome? fun entry =>
    match entry.2 with
    | .str _ => none
    | .object typeName => some typeName

end Outbox
