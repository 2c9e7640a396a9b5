import SnapshotTable.Table.Publish

/-! Transactions: changes staged in order against the snapshot that was current at the start, and
published as one chain with one move of the pointer, or not at all. -/

namespace SnapshotTable

structure Transaction where
  base : Option SnapshotId
  staged : List Change := []

def Transaction.stage (txn : Transaction) (change : Change) : Transaction :=
  { txn with staged := txn.staged ++ [change] }

namespace Table

variable {σ : Type} [PointerStore σ]

def beginTransaction (t : Table σ) : Except TableError Transaction × Table σ :=
  match t.currentId with
  | (.error e, t) => (.error e, t)
  | (.ok base, t) => (.ok { base }, t)

/-- Publishes the staged changes. An empty transaction publishes nothing and does not look at the
table. -/
def commitTransaction (t : Table σ) (txn : Transaction) :
    Except Failure (List Snapshot) × Table σ :=
  if txn.staged.isEmpty then (.ok [], t)
  else match t.publish txn.base txn.staged with
    | (.error e, t) => (.error e, t)
    | (.ok chain, t) =>
      (.ok chain, t.report
        (.transactionCommitted txn.base chain.length (chain.getLast?.map Snapshot.id)))

end Table

end SnapshotTable
