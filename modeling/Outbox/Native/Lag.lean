import Outbox.Native.Client

/-!
# Queue lag

The statement `metrics/lag.py` samples for each queue: the age of its oldest claimable
row, from two index probes. `now` is the reading of `now()`, the same throughout a
statement.
-/

namespace Outbox

/-- `LEAST`, which ignores NULLs. -/
def least (a b : Option Int) : Option Int := a.merge min b

/-- `due.where(...)` as a scalar subquery: the first `next_attempt_at` of the queue's due
    rows that meet the clause, NULL when there is none. -/
def due (rows : List Row) (queue : String) (now : Int) (clause : Row → Bool) : Option Int :=
  (((rows.filter fun r =>
      r.queue == queue && decide (r.nextAttemptAt ≤ now) && clause r).map
    Row.nextAttemptAt).topN (· ≤ ·) 1).head?

/-- `_lag_statement`: the oldest claimable row's age and the sample time. The expired
    leases are searched up to the oldest unleased row only. -/
def lagStatement (rows : List Row) (queue : String) (leaseTtl now : Int) : Option Int × Int :=
  let (unleased, expired) := OutboxClient.claimableBranches (now - leaseTtl)
  let pending := due rows queue now unleased
  let overdue := due rows queue now fun r =>
    expired r && decide (r.nextAttemptAt ≤ pending.getD now)
  ((least pending overdue).map fun oldest => now - oldest, now)

end Outbox
