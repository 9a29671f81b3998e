import Outbox.ForStd.Run
import Outbox.Native.Client

/-!
# The store and its clock

Every call of `AbstractOutboxClient` as one atomic operation on a database, behind
either client. The clock of the database only advances; the operations that run under
a lease read it. An insert runs in its caller's transaction, whose `now()` may lie
anywhere before (and a batch reads the client's clock), so it carries its own reading.
-/

namespace Outbox

/-- The client a call goes through. -/
inductive Backend where
  | postgres
  | fake
deriving DecidableEq, Repr

/-- A call of the client surface, or the clock advancing. -/
inductive Op where
  /-- `elapsed` microseconds pass. -/
  | tick (elapsed : Nat)
  | insert (now : Int) (args : InsertArgs)
  | insertBatch (now : Int) (args : InsertBatchArgs)
  /-- `locked`: the rows other transactions hold locked (Postgres steps over them). -/
  | fetch (token : UUID) (queues : List String) (limit : Nat) (leaseTtl : Int)
      (locked : List Nat)
  /-- `dlqTable`: the calling client was built with a dead-letter table. -/
  | deleteWithLease (dlqTable : Bool) (messageId : Nat) (acquiredToken : UUID)
      (dlqPayload : Option DlqPayload)
  | deleteBatchWithLease (pairs : List (Nat × UUID))
  | markPendingWithLease (messageId : Nat) (acquiredToken : UUID) (args : MarkPendingArgs)
  | cancelTimer (queue timerId : String)
  | fetchUnprocessed (queue : Option String) (limit : Int)
deriving DecidableEq, Repr

/-- What a call returns, or the exception it raises. -/
inductive Reply where
  | ticked
  | inserted (rowId : Except Error (Option Nat))
  | insertedBatch (result : Except Error Unit)
  | claimed (rows : List Row)
  | deleted (landed : Except Error Bool)
  | deletedBatch (pairs : Finset (Nat × UUID))
  | rescheduled (landed : Bool)
  | cancelled (landed : Bool)
  | unprocessed (rows : Except Error (List Row))

/-- A database: its tables and its clock. -/
structure World where
  store : Store := {}
  now : Int := 0
deriving DecidableEq, Repr

namespace World

/-- The reply of one operation and the store it leaves. -/
def apply (b : Backend) (w : World) : Op → Reply × Store
  | .tick _ => (.ticked, w.store)
  | .insert now args =>
    let r := match b with
      | .postgres => OutboxClient.insert w.store now args
      | .fake => FakeOutboxClient.insert w.store now args
    (.inserted r.1, r.2)
  | .insertBatch now args =>
    let r := match b with
      | .postgres => OutboxClient.insertBatch w.store now args
      | .fake => FakeOutboxClient.insertBatch w.store now args
    (.insertedBatch r.1, r.2)
  | .fetch token queues limit leaseTtl locked =>
    let r := match b with
      | .postgres =>
        OutboxClient.fetch w.store w.now token queues limit leaseTtl locked.contains
      | .fake => FakeOutboxClient.fetch w.store w.now token queues limit leaseTtl
    (.claimed r.1, r.2)
  | .deleteWithLease dlqTable messageId token payload =>
    let r := match b with
      | .postgres => OutboxClient.deleteWithLease w.store w.now dlqTable messageId token payload
      | .fake => FakeOutboxClient.deleteWithLease w.store w.now dlqTable messageId token payload
    (.deleted r.1, r.2)
  | .deleteBatchWithLease pairs =>
    let r := match b with
      | .postgres => OutboxClient.deleteBatchWithLease w.store pairs
      | .fake => FakeOutboxClient.deleteBatchWithLease w.store pairs
    (.deletedBatch r.1, r.2)
  | .markPendingWithLease messageId token args =>
    let r := match b with
      | .postgres => OutboxClient.markPendingWithLease w.store w.now messageId token args
      | .fake => FakeOutboxClient.markPendingWithLease w.store w.now messageId token args
    (.rescheduled r.1, r.2)
  | .cancelTimer queue timerId =>
    let r := match b with
      | .postgres => OutboxClient.cancelTimer w.store queue timerId
      | .fake => FakeOutboxClient.cancelTimer w.store queue timerId
    (.cancelled r.1, r.2)
  | .fetchUnprocessed queue limit =>
    let r := match b with
      | .postgres => OutboxClient.fetchUnprocessed w.store queue limit
      | .fake => FakeOutboxClient.fetchUnprocessed w.store queue limit
    (.unprocessed r, w.store)

/-- The clock after an operation. -/
def clock (w : World) : Op → Int
  | .tick elapsed => w.now + elapsed
  | _ => w.now

/-- The database before its first insert, at clock `start`. -/
def init (start : Int) : World := { now := start }

/-- One operation. -/
def step (b : Backend) (w : World) (op : Op) : Reply × World :=
  let r := w.apply b op
  (r.1, { store := r.2, now := w.clock op })

/-- One operation of a run: the world before it, its reply and the world after it. -/
abbrev Entry := Run.Entry World Op Reply

/-- What a run of operations does, one entry per operation. -/
def trace (b : Backend) (start : Int) (ops : List Op) : List World.Entry :=
  Run.trace (World.step b) (World.init start) ops

end World

end Outbox
