import Outbox.Native.Schema

/-!
# `_OutboxInserter` on a caller's session

The INSERT and the NOTIFY of a publish (`client.py`) run on a session of the caller, inside
transactions and savepoints the caller opens and ends. Each of them is an object with an
identity of its own, and `_notified` remembers, for each object, the queues a `pg_notify`
was executed for in it; an object that has ended is never met again.

Of the database the model keeps what each open transaction or savepoint has done and not
committed yet. A savepoint that is rolled back takes its part along, NOTIFYs included, and
a commit delivers the rest. What a statement returns, or that it fails, is given with the
call. A statement the server fails aborts the innermost transaction or savepoint.
-/

namespace Outbox

/-- What a statement did: a row that was inserted or that an extend returned (and whether
    `is_future_dated` held of its call), or a NOTIFY. -/
inductive Effect where
  | row (rowId : Nat) (queue : String) (futureDated : Bool)
  | notify (channel queue : String)
deriving DecidableEq, Repr

/-- An open transaction or savepoint. -/
structure Transaction where
  /-- The identity of the object. -/
  id : Nat
  effects : List Effect := []
  /-- A statement failed in it: the server refuses every other until it is rolled back. -/
  aborted : Bool := false
deriving DecidableEq, Repr

/-- A session, with the memo the inserter keeps for it. -/
structure Session where
  /-- The open transaction objects, innermost first. -/
  transactions : List Transaction := []
  nextTransaction : Nat := 0
  /-- `_notified`. -/
  notified : List (Nat × String) := []
  /-- The `pg_notify` calls that were executed, with the object each was executed in. -/
  executed : List (Nat × String) := []
  /-- What each committed transaction has done. -/
  committed : List (List Effect) := []
deriving DecidableEq, Repr

/-- How a statement goes. -/
inductive StatementResult (α : Type) where
  /-- The driver does not send it (a value it cannot encode). -/
  | refused
  /-- The server fails it. -/
  | failed
  | returned (a : α)
deriving DecidableEq, Repr

/-- The channel of a table. -/
def channel (table : String) : String := "outbox_" ++ table

namespace Session

/-- The innermost open transaction object. -/
def innermost (s : Session) : Option Nat := s.transactions.head?.map Transaction.id

/-- `_notified_queues`. -/
def notifiedQueues (s : Session) : Option (List String) :=
  s.innermost.map fun txn => (s.notified.filter fun entry => entry.1 == txn).map Prod.snd

/-- `emitted.add(queue)`, on the set of the innermost object. -/
def addNotified (s : Session) (queue : String) : Session :=
  match s.innermost with
  | none => s
  | some txn => { s with notified := (txn, queue) :: s.notified }

/-- A transaction begins where none is open. -/
def autobegin (s : Session) : Session :=
  if s.transactions.isEmpty then
    { s with
      transactions := [{ id := s.nextTransaction }]
      nextTransaction := s.nextTransaction + 1 }
  else s

/-- The queues of the NOTIFYs among the effects. -/
def notifies (effects : List Effect) : List String :=
  effects.filterMap fun e => match e with
    | .notify _ queue => some queue
    | .row _ _ _ => none

/-- `session.execute`: what it returns (`none` if it raises), and the session. -/
def execute {α : Type} (s : Session) (result : StatementResult α) (effects : α → List Effect) :
    Option α × Session :=
  let s := s.autobegin
  match s.transactions with
  | [] => (none, s)
  | t :: rest =>
    if t.aborted then (none, s)
    else
      match result with
      | .refused => (none, s)
      | .failed => (none, { s with transactions := { t with aborted := true } :: rest })
      | .returned a =>
        (some a, { s with
          transactions := { t with effects := t.effects ++ effects a } :: rest
          executed := s.executed ++ (notifies (effects a)).map fun queue => (t.id, queue) })

/-! ## Publishing -/

/-- `insert`: what it returns (`none` if it raises), and the session. The notify variants of
    the statement call `pg_notify` in `RETURNING`, once for the row they return. -/
def insert (table : String) (s : Session) (now : Int) (args : InsertArgs)
    (result : StatementResult (Option Nat)) : Option (Option Nat) × Session :=
  let emitted := s.notifiedQueues
  let futureDated := isFutureDated args.activateIn args.activateAt now
  let notify := !futureDated && !(emitted.any fun queues => queues.contains args.queue)
  let (rowId, s) := s.execute result fun rowId =>
    match rowId with
    | none => []
    | some id => .row id args.queue futureDated ::
        if notify then [.notify (channel table) args.queue] else []
  -- the transaction is read again: under autobegin it only exists once the INSERT has run
  if (rowId.getD none).isSome && notify then (rowId, s.addNotified args.queue) else (rowId, s)

/-- `_notify`; `ok` tells whether the server executes it. Its two strings are none a driver
    refuses. -/
def notify (table : String) (s : Session) (queue : String) (ok : Bool) : Option Unit × Session :=
  let run (s : Session) :=
    s.execute (if ok then .returned () else .failed) fun _ => [.notify (channel table) queue]
  match s.notifiedQueues with
  | none => run s
  | some emitted => if emitted.contains queue then (some (), s) else run (s.addNotified queue)

/-- `insert_batch`. -/
def insertBatch (table : String) (s : Session) (now : Int) (args : InsertBatchArgs)
    (result : StatementResult (List Nat)) (notified : Bool) : Option Unit × Session :=
  let futureDated := isFutureDated args.activateIn args.activateAt now
  match s.execute result fun rowIds => rowIds.map fun id => .row id args.queue futureDated with
  | (none, s) => (none, s)
  | (some _, s) => if futureDated then (some (), s) else s.notify table args.queue notified

/-! ## Transactions -/

/-- `begin()`, on a session without a transaction. -/
def begin (s : Session) : Session := s.autobegin

/-- `begin_nested()`: a savepoint. -/
def beginNested (s : Session) : Session :=
  let s := s.autobegin
  match s.transactions with
  | [] => s
  | t :: rest =>
    if t.aborted then s
    else
      { s with
        transactions := { id := s.nextTransaction } :: t :: rest
        nextTransaction := s.nextTransaction + 1 }

/-- The innermost savepoint is released: its part becomes its parent's. -/
def release (s : Session) : Session :=
  match s.transactions with
  | t :: parent :: rest =>
    if t.aborted then s
    else { s with
      transactions := { parent with effects := parent.effects ++ t.effects } :: rest }
  | _ => s

/-- The innermost savepoint is rolled back. -/
def rollbackNested (s : Session) : Session :=
  match s.transactions with
  | _ :: parent :: rest => { s with transactions := parent :: rest }
  | _ => s

/-- `commit()`, of the transaction with all its savepoints. The COMMIT of an aborted
    transaction is a ROLLBACK. -/
def commit (s : Session) : Session :=
  if s.transactions.isEmpty then s
  else if s.transactions.any Transaction.aborted then { s with transactions := [] }
  else
    { s with
      transactions := []
      committed := s.committed ++ [s.transactions.reverse.flatMap Transaction.effects] }

/-- `rollback()`, of the transaction with all its savepoints. -/
def rollback (s : Session) : Session := { s with transactions := [] }

end Session

/-- What a caller does with its session. -/
inductive SessionAct where
  | begin
  | beginNested
  | release
  | rollbackNested
  | commit
  | rollback
  | insert (now : Int) (args : InsertArgs) (result : StatementResult (Option Nat))
  | insertBatch (now : Int) (args : InsertBatchArgs) (result : StatementResult (List Nat))
      (notified : Bool)
deriving DecidableEq, Repr

namespace Session

/-- One of them. -/
def step (table : String) (s : Session) (act : SessionAct) : Session :=
  match act with
  | .begin => s.begin
  | .beginNested => s.beginNested
  | .release => s.release
  | .rollbackNested => s.rollbackNested
  | .commit => s.commit
  | .rollback => s.rollback
  | .insert now args result => (s.insert table now args result).2
  | .insertBatch now args result notified => (s.insertBatch table now args result notified).2

/-- A new session after a sequence of them. -/
def run (table : String) (acts : List SessionAct) : Session := acts.foldl (step table) {}

end Session

end Outbox
