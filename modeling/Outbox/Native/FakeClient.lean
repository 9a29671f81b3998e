import Mathlib.Data.Finset.Basic
import Outbox.Native.Schema

/-!
# FakeOutboxClient

The in-memory client of `testing.py`: a list of `_FakeRow`s mutated in place. Each
method takes the store and the reading of `utcnow()` and returns its result with the
store it leaves; a raised exception is an `Except.error`. A Python `for` loop that
stops at its first match is `find?`, `eraseP` or `updateFirst`.
-/

namespace Outbox

/-- `_NO_DLQ_TABLE_MSG`, shared by both clients. -/
def noDlqTableMsg : String :=
  "delete_with_lease received a dlq_payload but the client has no dlq_table; " ++
    "refusing to drop the audit row silently"

/-- The message both `fetch_unprocessed` methods refuse a non-positive limit with. -/
def limitMsg (limit : Int) : String := "limit must be >= 1, got " ++ toString limit

/-- What `mark_pending_with_lease` writes besides clearing the lease. -/
structure MarkPendingArgs where
  delaySeconds : Int
  attemptsCount : Nat
  firstAttemptAt : Option Int
  lastAttemptAt : Option Int
deriving DecidableEq, Repr

namespace FakeOutboxClient

/-- `_claim_fake_row`: set the lease and bump `deliveries_count`. -/
def claimFakeRow (row : Row) (now : Int) (token : UUID) : Row :=
  { row with
    acquiredAt := some now
    acquiredToken := some token
    deliveriesCount := row.deliveriesCount + 1 }

/-- `_lease_token_matches`: a `None` claim token matches nothing. -/
def leaseTokenMatches (rowToken claimToken : Option UUID) : Bool :=
  claimToken.isSome && rowToken == claimToken

/-- `_validate_like_postgres`: the error it raises, if any. -/
def validateLikePostgres (queue : String) (timerId : Option String)
    (headers : Option Headers) : Option Error :=
  if queue.length > maxQueueLength then
    some (.valueError ("queue must be at most " ++ toString maxQueueLength ++
      " characters (got " ++ toString queue.length ++ ")"))
  else if (timerId.getD "").length > maxQueueLength then
    some (.valueError ("timer_id must be at most " ++ toString maxQueueLength ++
      " characters (got " ++ toString (timerId.getD "").length ++ ")"))
  else
    (Headers.unserializable headers).map fun typeName =>
      .valueError ("headers must be JSON-serializable: Object of type " ++ typeName ++
        " is not JSON serializable")

/-! ## Inserting -/

/-- `_append`: store a new row under the next id. -/
def append (s : Store) (now : Int) (queue : String) (payload : Bytes)
    (headers : Option Headers) (nextAttemptAt : Option Int) (timerId : Option String) :
    Row × Store :=
  let row : Row :=
    { id := s.nextId
      queue := queue
      payload := payload
      headers := headers
      createdAt := now
      nextAttemptAt := nextAttemptAt.getD now
      timerId := timerId }
  (row, { s with rows := s.rows ++ [row], nextId := s.nextId + 1 })

/-- The rows that hold the timer key of an insert; none do when it has no timer id. -/
def holdsKey (queue : String) (timerId : Option String) (r : Row) : Bool :=
  match timerId with
  | none => false
  | some t => r.holdsTimer queue t

/-- `_store`: re-feeding a timer that already exists is a no-op. -/
def store (s : Store) (now : Int) (queue : String) (payload : Bytes)
    (headers : Option Headers) (nextAttemptAt : Option Int) (timerId : Option String) :
    Option Row × Store :=
  if s.rows.any (holdsKey queue timerId) then
    (none, s)
  else
    let (row, s') := append s now queue payload headers nextAttemptAt timerId
    (some row, s')

/-- `_extend`: the result and the row it leaves. -/
def extend (row : Row) (payload : Bytes) (headers : Option Headers) (nextAttemptAt : Int) :
    Option Nat × Row :=
  if row.acquiredToken.isSome then
    (none, row)
  else if nextAttemptAt > row.nextAttemptAt then
    (some row.id,
      { row with
        nextAttemptAt := nextAttemptAt
        payload := payload
        headers := headers
        attemptsCount := 0
        firstAttemptAt := none
        lastAttemptAt := none })
  else
    (some row.id, row)

/-- `insert`: the row id, or `none` when a live row already holds the timer key. -/
def insert (s : Store) (now : Int) (args : InsertArgs) : Except Error (Option Nat) × Store :=
  match validateLikePostgres args.queue args.timerId args.headers with
  | some e => (.error e, s)
  | none =>
    match s.rows.find? (holdsKey args.queue args.timerId), args.timerConflict with
    | some live, .extend =>
      let (rowId, row) := extend live args.payload args.headers (args.deadline now)
      (.ok rowId,
        { s with rows := s.rows.updateFirst (holdsKey args.queue args.timerId) fun _ => row })
    | _, _ =>
      let (row, s') :=
        store s now args.queue args.payload args.headers (some (args.deadline now)) args.timerId
      (.ok (row.map Row.id), s')

/-- `insert_batch`: every row is validated before the first one is stored. -/
def insertBatch (s : Store) (now : Int) (args : InsertBatchArgs) : Except Error Unit × Store :=
  match args.rows.findSome? fun row => validateLikePostgres args.queue none row.2 with
  | some e => (.error e, s)
  | none =>
    let nextAt := resolveNextAttemptClientSide args.activateIn args.activateAt now
    (.ok (), args.rows.foldl
      (fun s row => (append s now args.queue row.1 row.2 nextAt none).2) s)

/-! ## Claiming -/

/-- The filter of `fetch`: due rows of the queues, unleased or with an expired lease. -/
def eligible (now leaseCutoff : Int) (queues : List String) (r : Row) : Bool :=
  queues.contains r.queue && decide (r.nextAttemptAt ≤ now) &&
    (r.acquiredToken.isNone || (r.acquiredAt.any fun t => decide (t < leaseCutoff)))

/-- `fetch`: claim up to `limit` eligible rows, oldest first. -/
def fetch (s : Store) (now : Int) (token : UUID) (queues : List String) (limit : Nat)
    (leaseTtl : Int) : List Row × Store :=
  if queues.isEmpty then
    ([], s)
  else
    let leaseCutoff := now - leaseTtl
    let claimed := ((s.rows.filter (eligible now leaseCutoff queues)).insertionSort
      Row.claimLe).take limit
    (claimed.map fun r => claimFakeRow r now token,
      { s with rows := s.rows.map fun r =>
          if (claimed.map Row.id).contains r.id then claimFakeRow r now token else r })

/-! ## Terminal writes -/

/-- The guard of the terminal writes: the row and its lease token. -/
def holdsLease (messageId : Nat) (acquiredToken : UUID) (r : Row) : Bool :=
  r.id == messageId && leaseTokenMatches r.acquiredToken (some acquiredToken)

/-- `delete_with_lease`: delete the row, archiving it when a payload is given. -/
def deleteWithLease (s : Store) (now : Int) (dlqEnabled : Bool) (messageId : Nat)
    (acquiredToken : UUID) (dlqPayload : Option DlqPayload) : Except Error Bool × Store :=
  match s.rows.find? (holdsLease messageId acquiredToken) with
  | none => (.ok false, s)
  | some row =>
    let rows := s.rows.eraseP (holdsLease messageId acquiredToken)
    match dlqPayload with
    | none => (.ok true, { s with rows := rows })
    | some payload =>
      if !dlqEnabled then
        (.error (.runtimeError noDlqTableMsg), s)
      else
        match payload.failureReason, payload.lastException with
        | none, _ => (.error (.keyError "failure_reason"), s)
        | some _, none => (.error (.keyError "last_exception"), s)
        | some failureReason, some lastException =>
          (.ok true,
            { s with
              rows := rows
              dlqRows := s.dlqRows ++ [dlqProjection row now failureReason lastException] })

/-- The pair a row is deleted under: its id and its token, when it is leased. -/
def leasePair (r : Row) : Option (Nat × UUID) := r.acquiredToken.map fun token => (r.id, token)

/-- The loop of `delete_batch_with_lease` over the indices below `i`, high to low. -/
def deleteBatchLoop (wanted : Finset (Nat × UUID)) :
    Nat → List Row → Finset (Nat × UUID) → Finset (Nat × UUID) × List Row
  | 0, rows, deleted => (deleted, rows)
  | i + 1, rows, deleted =>
    match rows[i]?.bind leasePair with
    | some pair =>
      if pair ∈ wanted then
        deleteBatchLoop wanted i (rows.eraseIdx i) (Insert.insert pair deleted)
      else
        deleteBatchLoop wanted i rows deleted
    | none => deleteBatchLoop wanted i rows deleted

/-- `delete_batch_with_lease`: the set of pairs that were deleted. -/
def deleteBatchWithLease (s : Store) (pairs : List (Nat × UUID)) :
    Finset (Nat × UUID) × Store :=
  let (deleted, rows) := deleteBatchLoop pairs.toFinset s.rows.length s.rows ∅
  (deleted, { s with rows := rows })

/-- `mark_pending_with_lease`: clear the lease and reschedule. -/
def markPendingWithLease (s : Store) (now : Int) (messageId : Nat) (acquiredToken : UUID)
    (args : MarkPendingArgs) : Bool × Store :=
  if s.rows.any (holdsLease messageId acquiredToken) then
    (true, { s with rows := s.rows.updateFirst (holdsLease messageId acquiredToken) fun row =>
      { row with
        nextAttemptAt := now + max 0 args.delaySeconds
        attemptsCount := args.attemptsCount
        firstAttemptAt := args.firstAttemptAt
        lastAttemptAt := args.lastAttemptAt
        acquiredAt := none
        acquiredToken := none } })
  else
    (false, s)

/-! ## Timers and reads -/

/-- The guard of `cancel_timer`: the unleased row of the timer key. -/
def cancellable (queue timerId : String) (r : Row) : Bool :=
  r.holdsTimer queue timerId && r.acquiredToken.isNone

/-- `cancel_timer`: drop a not-yet-leased timer row. -/
def cancelTimer (s : Store) (queue timerId : String) : Bool × Store :=
  if s.rows.any (cancellable queue timerId) then
    (true, { s with rows := s.rows.eraseP (cancellable queue timerId) })
  else
    (false, s)

/-- `fetch_unprocessed`: the first `limit` rows by id, of one queue when given. -/
def fetchUnprocessed (s : Store) (queue : Option String) (limit : Int) :
    Except Error (List Row) :=
  if limit < 1 then
    .error (.valueError (limitMsg limit))
  else
    let rows := s.rows.insertionSort Row.idLe
    let rows := match queue with
      | none => rows
      | some q => rows.filter fun r => r.queue == q
    .ok (rows.take limit.toNat)

end FakeOutboxClient

end Outbox
