import Outbox.Native.FakeClient

/-!
# OutboxClient

The Postgres client of `client.py`. Each method issues one statement; the model gives
the statement's meaning over the table, a list of rows whose order no statement
observes. `now` is the reading of `now()`. A statement that the client or the server
refuses is an `Except.error` and leaves the store as it was.
-/

namespace Outbox.OutboxClient

/-! ## Inserting -/

/-- The values the INSERT accepts: `String(255)` columns that fit, headers JSONB can hold. -/
def insertable (queue : String) (timerId : Option String) (headers : Option Headers) : Bool :=
  decide (queue.length ≤ maxQueueLength) &&
    decide ((timerId.getD "").length ≤ maxQueueLength) &&
    (Headers.unserializable headers).isNone

/-- The row proposed for insertion (`EXCLUDED`): its id is the next value of the
    sequence, `activate_in` counts from `now()`, and a missing `next_attempt_at` is the
    server default. -/
def excluded (s : Store) (now : Int) (args : InsertArgs) : Row :=
  { id := s.nextId
    queue := args.queue
    payload := args.payload
    headers := args.headers
    createdAt := now
    nextAttemptAt :=
      match args.activateIn with
      | some seconds => now + seconds
      | none => args.activateAt.getD now
    timerId := args.timerId }

/-- The `SET` list of the extend upsert. -/
def extendSet (t excluded : Row) : Row :=
  let later := decide (excluded.nextAttemptAt > t.nextAttemptAt)
  { t with
    nextAttemptAt := max t.nextAttemptAt excluded.nextAttemptAt
    payload := if later then excluded.payload else t.payload
    headers := if later then excluded.headers else t.headers
    attemptsCount := if later then 0 else t.attemptsCount
    firstAttemptAt := if later then none else t.firstAttemptAt
    lastAttemptAt := if later then none else t.lastAttemptAt }

/-- A row the partial unique index on `(queue, timer_id)` finds equal to `excluded`. -/
def conflicts (excluded r : Row) : Bool :=
  excluded.timerId.isSome && r.queue == excluded.queue && r.timerId == excluded.timerId

/-- `insert`: the statement of `_build_insert_stmts` for the call, returning the id.
    Every attempt draws from the sequence, also one that conflicts. -/
def insert (s : Store) (now : Int) (args : InsertArgs) : Except Error (Option Nat) × Store :=
  if !insertable args.queue args.timerId args.headers then
    (.error .statementError, s)
  else
    let new := excluded s now args
    let drawn := { s with nextId := s.nextId + 1 }
    match s.rows.find? (conflicts new) with
    | none => (.ok (some new.id), { drawn with rows := s.rows ++ [new] })
    | some t =>
      match args.timerConflict with
      | .ignore => (.ok none, drawn)
      | .extend =>
        -- ON CONFLICT DO UPDATE ... WHERE acquired_token IS NULL RETURNING id
        if t.acquiredToken.isNone then
          (.ok (some t.id),
            { drawn with
              rows := s.rows.map fun r => if conflicts new r then extendSet r new else r })
        else
          (.ok none, drawn)

/-- `insert_batch`: one INSERT of every row, or of none. -/
def insertBatch (s : Store) (now : Int) (args : InsertBatchArgs) : Except Error Unit × Store :=
  if !(args.rows.all fun row => insertable args.queue none row.2) then
    (.error .statementError, s)
  else
    let nextAt := resolveNextAttemptClientSide args.activateIn args.activateAt now
    let new := args.rows.zipIdx.map fun (row, i) =>
      ({ id := s.nextId + i
         queue := args.queue
         payload := row.1
         headers := row.2
         createdAt := now
         nextAttemptAt := nextAt.getD now } : Row)
    (.ok (), { s with rows := s.rows ++ new, nextId := s.nextId + new.length })

/-! ## Claiming -/

/-- `_claimable_branches`: the lease predicates of the unleased and the expired branch. -/
def claimableBranches (leaseCutoff : Int) : (Row → Bool) × (Row → Bool) :=
  (fun r => r.acquiredToken.isNone,
    fun r => r.acquiredToken.isSome && r.acquiredAt.any fun t => decide (t < leaseCutoff))

/-- One branch of the fetch: per distinct queue, the first `limit` due rows of the lease
    state in `(next_attempt_at, id)` order, stepping over rows other transactions lock
    (`LATERAL ... ORDER BY ... LIMIT n FOR UPDATE SKIP LOCKED`). -/
def branch (rows : List Row) (locked : Nat → Bool) (now : Int) (limit : Nat)
    (queues : List String) (leaseState : Row → Bool) : List Row :=
  queues.flatMap fun name =>
    (((rows.filter fun r =>
        r.queue == name && decide (r.nextAttemptAt ≤ now) && leaseState r).insertionSort
      Row.claimLe).filter fun r => !locked r.id).take limit

/-- The ids the fetch updates: the first `limit` of the two branches together. -/
def ready (rows : List Row) (locked : Nat → Bool) (now leaseTtl : Int) (limit : Nat)
    (queues : List String) : List Nat :=
  let (unleased, expiredLease) := claimableBranches (now - leaseTtl)
  let pending := branch rows locked now limit queues.dedup unleased
  let expired := branch rows locked now limit queues.dedup expiredLease
  ((pending ++ expired).topN Row.claimLe limit).map Row.id

/-- The `SET` list of the claim. -/
def claimSet (r : Row) (now : Int) (token : UUID) : Row :=
  { r with
    acquiredAt := some now
    acquiredToken := some token
    deliveriesCount := r.deliveriesCount + 1 }

/-- `fetch`: claim the ready rows and return them in `(next_attempt_at, id)` order.
    `locked` are the rows other transactions hold locked while the statement runs. -/
def fetch (s : Store) (now : Int) (token : UUID) (queues : List String) (limit : Nat)
    (leaseTtl : Int) (locked : Nat → Bool) : List Row × Store :=
  if queues.isEmpty then
    ([], s)
  else
    let ids := ready s.rows locked now leaseTtl limit queues
    (((s.rows.filter fun r => ids.contains r.id).map
        fun r => claimSet r now token).insertionSort Row.claimLe,
      { s with rows := s.rows.map fun r =>
          if ids.contains r.id then claimSet r now token else r })

/-! ## Terminal writes -/

/-- `WHERE id = :id AND acquired_token = :token`. -/
def leased (messageId : Nat) (acquiredToken : UUID) (r : Row) : Bool :=
  r.id == messageId && r.acquiredToken == some acquiredToken

/-- `delete_with_lease`: a plain DELETE, or with a payload the DELETE-then-archive CTE.
    The payload is refused before a statement is issued. -/
def deleteWithLease (s : Store) (now : Int) (dlqTable : Bool) (messageId : Nat)
    (acquiredToken : UUID) (dlqPayload : Option DlqPayload) : Except Error Bool × Store :=
  let deleted := s.rows.filter (leased messageId acquiredToken)
  let rows := s.rows.filter fun r => !leased messageId acquiredToken r
  match dlqPayload with
  | none => (.ok (decide (0 < deleted.length)), { s with rows := rows })
  | some payload =>
    if !dlqTable then
      (.error (.runtimeError noDlqTableMsg), s)
    else
      match payload.failureReason, payload.lastException with
      | none, _ => (.error (.keyError "failure_reason"), s)
      | some _, none => (.error (.keyError "last_exception"), s)
      | some failureReason, some lastException =>
        (.ok (decide (0 < deleted.length)),
          { s with
            rows := rows
            dlqRows := s.dlqRows ++
              deleted.map fun r => dlqProjection r now failureReason lastException })

/-- `t.id = wanted.id AND t.acquired_token = wanted.token` for some wanted pair. -/
def wanted (pairs : List (Nat × UUID)) (r : Row) : Bool :=
  pairs.any fun pair => r.id == pair.1 && r.acquiredToken == some pair.2

/-- `delete_batch_with_lease`: the pairs the statement deleted. -/
def deleteBatchWithLease (s : Store) (pairs : List (Nat × UUID)) :
    Finset (Nat × UUID) × Store :=
  if pairs.isEmpty then
    (∅, s)
  else
    (((s.rows.filter (wanted pairs)).filterMap fun r =>
        r.acquiredToken.map fun token => (r.id, token)).toFinset,
      { s with rows := s.rows.filter fun r => !wanted pairs r })

/-- `mark_pending_with_lease`: clear the lease and reschedule, counting from `now()`. -/
def markPendingWithLease (s : Store) (now : Int) (messageId : Nat) (acquiredToken : UUID)
    (args : MarkPendingArgs) : Bool × Store :=
  (decide (0 < (s.rows.filter (leased messageId acquiredToken)).length),
    { s with rows := s.rows.map fun r =>
        if leased messageId acquiredToken r then
          { r with
            nextAttemptAt := now + max 0 args.delaySeconds
            attemptsCount := args.attemptsCount
            firstAttemptAt := args.firstAttemptAt
            lastAttemptAt := args.lastAttemptAt
            acquiredAt := none
            acquiredToken := none }
        else r })

/-! ## Timers and reads -/

/-- `cancel_timer`: delete the not-yet-leased `(queue, timer_id)` row. -/
def cancelTimer (s : Store) (queue timerId : String) : Bool × Store :=
  let p := fun r : Row =>
    r.queue == queue && r.timerId == some timerId && r.acquiredToken.isNone
  (decide (0 < (s.rows.filter p).length), { s with rows := s.rows.filter fun r => !p r })

/-- `fetch_unprocessed`: `SELECT ... [WHERE queue = :queue] ORDER BY id LIMIT :limit`. -/
def fetchUnprocessed (s : Store) (queue : Option String) (limit : Int) :
    Except Error (List Row) :=
  if limit < 1 then
    .error (.valueError (limitMsg limit))
  else
    .ok ((s.rows.filter fun r => queue.all fun q => r.queue == q).topN Row.idLe limit.toNat)

end Outbox.OutboxClient
