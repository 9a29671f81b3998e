import Outbox.Native.World

/-!
# Claims in open transactions

`OutboxClient.fetch` runs its statement in a transaction of its own (`async with
conn.begin()`), so there is a time between the statement and its commit. Until then nobody
else sees the leases, and the rows both of its branches read stay locked: `FOR UPDATE` takes
its locks below the outer `LIMIT`, so they are more than the rows that are claimed. A claim
steps over what others have locked (`SKIP LOCKED`); any other statement that would write a
locked row waits.

That the statement takes its locks one after another is left out: it runs in one step.

A transaction may also be rolled back. An act says beforehand how its transaction is to end,
so that a run of the model is what a run of the database looks like afterwards.
-/

namespace Outbox

namespace OutboxClient

/-- The rows the claim statement locks: what its two branches return. -/
def locks (rows : List Row) (locked : Nat → Bool) (now leaseTtl : Int) (limit : Nat)
    (queues : List String) : List Nat :=
  let (unleased, expiredLease) := claimableBranches (now - leaseTtl)
  (branch rows locked now limit queues.dedup unleased ++
    branch rows locked now limit queues.dedup expiredLease).map Row.id

end OutboxClient

/-- A claim statement that has run in a transaction that is still open. -/
structure OpenClaim where
  now : Int
  token : UUID
  /-- The rows it has put under the token. -/
  claimed : List Nat
  /-- The rows it holds locked. -/
  locks : List Nat
  /-- The transaction is to be committed. -/
  commits : Bool

/-- A database: what is committed, and the claims in open transactions, oldest first. -/
structure Database where
  world : World := {}
  openClaims : List OpenClaim := []

namespace Database

/-- What can happen to a database. -/
inductive Act where
  /-- `fetch`, up to its commit. -/
  | claim (token : UUID) (queues : List String) (limit : Nat) (leaseTtl : Int) (commits : Bool)
  /-- The transaction of a claim ends. -/
  | ended (index : Nat)
  /-- A statement in a transaction of its own, or the clock advancing. -/
  | statement (op : Op)

/-- The rows that are locked. -/
def locked (d : Database) : List Nat := d.openClaims.flatMap OpenClaim.locks

/-- The statement would write the row, or lock it. -/
def writes (op : Op) (r : Row) : Bool :=
  match op with
  | .insert _ args =>
    -- DO NOTHING locks no row
    args.timerConflict = .extend && args.timerId.isSome && r.queue == args.queue &&
      r.timerId == args.timerId
  | .deleteWithLease _ messageId _ _ => r.id == messageId
  | .deleteBatchWithLease pairs => pairs.any fun pair => r.id == pair.1
  | .markPendingWithLease messageId _ _ => r.id == messageId
  | .cancelTimer queue timerId => r.holdsTimer queue timerId
  | _ => false

/-- The operations that are a statement of their own; a plain read sees no open claim. -/
def isStatement : Op → Bool
  | .fetch _ _ _ _ _ | .fetchUnprocessed _ _ => false
  | _ => true

/-- One step, with the reply a caller gets; `none` if the act has to wait. -/
def step (d : Database) (act : Act) : Option (Option Reply × Database) :=
  match act with
  | .claim token queues limit leaseTtl commits =>
    let skip := d.locked.contains
    let r := OutboxClient.fetch d.world.store d.world.now token queues limit leaseTtl skip
    let claim : OpenClaim :=
      { now := d.world.now
        token := token
        claimed := r.1.map Row.id
        locks := OutboxClient.locks d.world.store.rows skip d.world.now leaseTtl limit queues
        commits := commits }
    some (if commits then some (.claimed r.1) else none,
      { d with openClaims := d.openClaims ++ [claim] })
  | .ended index =>
    d.openClaims[index]?.map fun claim =>
      let rows := d.world.store.rows.map fun r =>
        if claim.commits && claim.claimed.contains r.id then
          OutboxClient.claimSet r claim.now claim.token
        else r
      (none, {
        world := { d.world with store := { d.world.store with rows := rows } }
        openClaims := d.openClaims.eraseIdx index })
  | .statement op =>
    if isStatement op && !d.world.store.rows.any fun r => d.locked.contains r.id && writes op r then
      let r := d.world.step .postgres op
      some (some r.1, { d with world := r.2 })
    else none

/-- The replies of a run, and the database it leaves; an act that has to wait changes
    nothing. -/
def run (d : Database) : List Act → List Reply × Database
  | [] => ([], d)
  | act :: acts =>
    match d.step act with
    | none => d.run acts
    | some (reply, d) =>
      let r := d.run acts
      (reply.toList ++ r.1, r.2)

end Database

end Outbox
