import SnapshotTable.Proofs.ReplayChain

/-! What a replay makes of the files. Under the standard rules it goes by the files alone: it succeeds exactly
if each change is accepted against the files that the changes before it leave, and the chain ends with the
files that all of them leave. The invariant along the chain is that no path is live twice. -/

namespace SnapshotTable

def AcceptedFrom : FileSet → List Change → Prop
  | _, [] => True
  | files, change :: rest =>
    Validator.evaluate files change Validator.standard = .ok () ∧ AcceptedFrom (change.apply files) rest

def filesAfter (files : FileSet) (changes : List Change) : FileSet :=
  changes.foldl (fun files change => change.apply files) files

namespace Production
variable {p : Production} {parent : Option Snapshot} {changes : List Change}

/-- A chain was accepted change by change, and ends with the files that its changes leave. -/
theorem Builds.files (hrules : p.validators = Validator.standard) {id : SnapshotId}
    {chain : List Snapshot} (h : p.Builds parent id changes chain) (honce : LiveOnce parent) :
    AcceptedFrom (filesAt parent) changes ∧ LiveOnce (topOf parent chain) ∧
      filesAt (topOf parent chain) = filesAfter (filesAt parent) changes := by
  induction h with
  | nil => exact ⟨trivial, honce, rfl⟩
  | @cons parent id change rest chain fresh now accepted _ ih =>
    rw [hrules] at accepted
    obtain ⟨hnext, hfiles⟩ := build_files p id fresh now honce accepted
    obtain ⟨hrest, htop, hleft⟩ := ih hnext
    rw [hfiles] at hrest hleft
    rw [topOf_cons]
    exact ⟨⟨accepted, hrest⟩, htop, hleft⟩

/-- Changes that are accepted one after the other are replayed. -/
theorem replay_accepted (hrules : p.validators = Validator.standard) (honce : LiveOnce parent)
    (h : AcceptedFrom (filesAt parent) changes) (id : SnapshotId) (supply : Supply) :
    ∃ chain left, p.replay parent id changes supply = (.ok chain, left) := by
  induction changes generalizing parent id supply with
  | nil => exact ⟨[], supply, rfl⟩
  | cons change rest ih =>
    obtain ⟨haccept, hrest⟩ := h
    obtain ⟨hnext, hfiles⟩ := build_files p id supply.freshManifest supply.clock.now honce haccept
    let s := p.build parent id change supply.freshManifest supply.clock.now
    obtain ⟨more, hproduce⟩ : ∃ more, p.produce parent id change supply = (.ok s, more) := by
      rw [produce, hrules, haccept]
      exact ⟨_, rfl⟩
    obtain ⟨chain, left, hchain⟩ := ih hnext (hfiles ▸ hrest) (id + 1) more
    refine ⟨s :: chain, left, ?_⟩
    rw [replay, hproduce]
    dsimp only
    rw [hchain]

end Production
end SnapshotTable
