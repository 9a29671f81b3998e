import Outbox.ForStd.Run
import Outbox.Native.FakeClient

/-!
# Every way into the fake

The entry points of `testing.py` that change the rows of a `FakeOutboxClient`: the client
surface, `feed`, and the claim a test broker makes in sync mode before it dispatches a row.
A call may raise; `outOfRange` tells the points in time Python's `datetime` cannot hold,
which the arithmetic of the calls raises on.
-/

namespace Outbox

namespace FakeOutboxClient

/-- The arguments of `feed`; `naive` tells a `next_attempt_at` without a time zone. -/
structure FeedArgs where
  queue : String
  payload : Bytes
  headers : Option Headers := none
  nextAttemptAt : Option Int := none
  naive : Bool := false
  timerId : Option String := none
deriving DecidableEq, Repr

/-- `feed`: store a row, due at once unless told otherwise. -/
def feed (s : Store) (now : Int) (args : FeedArgs) : Except Error (Option Nat) × Store :=
  if args.nextAttemptAt.isSome && args.naive then
    (.error (.valueError "feed() requires next_attempt_at to be timezone-aware"), s)
  else
    match validateLikePostgres args.queue args.timerId args.headers with
    | some e => (.error e, s)
    | none =>
      let (row, s') :=
        store s now args.queue args.payload args.headers args.nextAttemptAt args.timerId
      (.ok (row.map Row.id), s')

/-- `_sync_dispatch`, up to the dispatch: claim the row where it is, due or not, leased or
    not, and hand a copy on. -/
def syncDispatch (s : Store) (now : Int) (token : UUID) (rowId : Nat) : Option Row × Store :=
  match s.rows.find? fun r => r.id == rowId with
  | none => (none, s)
  | some row =>
    (some (claimFakeRow row now token),
      { s with rows := s.rows.updateFirst (fun r => r.id == rowId) fun r =>
          claimFakeRow r now token })

end FakeOutboxClient

/-- The message of `require_session_or_connection`. -/
def sessionMsg (context : String) : String :=
  context ++ " requires an sqlalchemy.ext.asyncio.AsyncSession or AsyncConnection"

/-- A call that may change the rows; each reads `utcnow()` anew. -/
inductive FakeCall where
  | feed (now : Int) (args : FakeOutboxClient.FeedArgs)
  | insert (now : Int) (args : InsertArgs)
  | insertBatch (now : Int) (args : InsertBatchArgs)
  | fetch (now : Int) (token : UUID) (queues : List String) (limit : Nat) (leaseTtl : Int)
  | deleteWithLease (now : Int) (messageId : Nat) (acquiredToken : UUID)
      (dlqPayload : Option DlqPayload)
  | deleteBatchWithLease (pairs : List (Nat × UUID))
  | markPendingWithLease (now : Int) (messageId : Nat) (acquiredToken : UUID)
      (args : MarkPendingArgs)
  /-- `session` tells whether a session or a connection was given. -/
  | cancelTimer (queue timerId : String) (session : Bool)
  | syncDispatch (now : Int) (token : UUID) (rowId : Nat)
deriving DecidableEq, Repr

namespace FakeCall

/-- The exception an operation raised, if any, and the rows it leaves. -/
def outcome {α : Type} (r : Except Error α × Store) : Option Error × Store :=
  match r.1 with
  | .error e => (some e, r.2)
  | .ok _ => (none, r.2)

variable (outOfRange : Int → Bool) (dlqEnabled : Bool)

/-- One call: the exception it raises, if any, and the rows it leaves. -/
def apply (s : Store) : FakeCall → Option Error × Store
  | .feed now args => outcome (FakeOutboxClient.feed s now args)
  | .insert now args =>
    match FakeOutboxClient.validateLikePostgres args.queue args.timerId args.headers with
    | some e => (some e, s)
    | none =>
      if args.activateIn.any fun d => outOfRange (now + d) then (some .overflowError, s)
      else outcome (FakeOutboxClient.insert s now args)
  | .insertBatch now args =>
    match args.rows.findSome? fun row =>
        FakeOutboxClient.validateLikePostgres args.queue none row.2 with
    | some e => (some e, s)
    | none =>
      if args.activateIn.any fun d => outOfRange (now + d) then (some .overflowError, s)
      else outcome (FakeOutboxClient.insertBatch s now args)
  | .fetch now token queues limit leaseTtl =>
    if !queues.isEmpty && outOfRange (now - leaseTtl) then (some .overflowError, s)
    else (none, (FakeOutboxClient.fetch s now token queues limit leaseTtl).2)
  | .deleteWithLease now messageId token payload =>
    outcome (FakeOutboxClient.deleteWithLease s now dlqEnabled messageId token payload)
  | .deleteBatchWithLease pairs => (none, (FakeOutboxClient.deleteBatchWithLease s pairs).2)
  | .markPendingWithLease now messageId token args =>
    -- the new deadline is computed before the first field of the row is set
    if s.rows.any (FakeOutboxClient.holdsLease messageId token) &&
        outOfRange (now + max 0 args.delaySeconds) then (some .overflowError, s)
    else (none, (FakeOutboxClient.markPendingWithLease s now messageId token args).2)
  | .cancelTimer queue timerId session =>
    if !session then
      (some (.typeError (sessionMsg "FakeOutboxClient.cancel_timer")), s)
    else (none, (FakeOutboxClient.cancelTimer s queue timerId).2)
  | .syncDispatch now token rowId =>
    (none, (FakeOutboxClient.syncDispatch s now token rowId).2)

/-- What a sequence of calls does to a new fake, one entry per call. -/
def trace (calls : List FakeCall) : List (Run.Entry Store FakeCall (Option Error)) :=
  Run.trace (apply outOfRange dlqEnabled) {} calls

end FakeCall

end Outbox
