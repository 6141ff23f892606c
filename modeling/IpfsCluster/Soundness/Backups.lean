import IpfsCluster.Proofs.Raft.DataHelper

/-! # Rotation of backups

However often the data folder is backed up, the backups that exist are the newest ones, as many of them as
are kept, and each has the content of its round.
-/

namespace IpfsCluster.Soundness

open Model.Raft Proofs.Raft Golang

variable {Content : Type} {dbh : DataBackupHelper} {files : Files Content}

/-- From files without backups, any number of rounds succeeds. Afterwards the backups are those below the number
of rounds and the number that is kept, and each number has the content of as many rounds before the last one. -/
theorem backups_rotate (some_kept : 1 ≤ dbh.keep) (clean : ∀ i, files.lookup (dbh.makeName i) = none)
    (contents : List Content) : ∃ made, dbh.makeBackups contents files = (none, made) ∧
      (∀ i, (made.lookup (dbh.makeName i)).isSome ↔ i < min contents.length dbh.keep.toNat) ∧
      (∀ i < min contents.length dbh.keep.toNat, made.lookup (dbh.makeName i) = contents.reverse[i]?) ∧
      dbh.listBackups made = (List.range (min contents.length dbh.keep.toNat)).map dbh.makeName := by
  have empty : Holds dbh files (BoundedQueue.empty Content dbh.keep.toNat).items := clean
  obtain ⟨made, done, held⟩ := makeBackups_push some_kept contents empty
  rw [BoundedQueue.items_foldl_push] at held
  have length : (contents.reverse.take dbh.keep.toNat).length = min contents.length dbh.keep.toNat := by
    rw [List.length_take, List.length_reverse, min_comm]
  refine ⟨made, done, fun i => ?_, fun i within => ?_, ?_⟩
  · rw [held, Option.isSome_iff_ne_none, Ne, List.getElem?_eq_none_iff, not_le, length]
  · rw [held, List.getElem?_take_of_lt (lt_of_lt_of_le within (min_le_right _ _))]
  · rw [held.listBackups (by rw [length]; exact min_le_right _ _), length, names]

theorem backups_rotate_three :
    ∃ made, (newDataBackupHelper ⟨"/data", "raft"⟩ 2).makeBackups ["a", "b", "c"] ∅ = (none, made) ∧
      made.lookup ⟨"/data", "raft.old.0"⟩ = some "c" ∧ made.lookup ⟨"/data", "raft.old.1"⟩ = some "b" := by
  obtain ⟨made, done, -, held, -⟩ :=
    @backups_rotate String (newDataBackupHelper ⟨"/data", "raft"⟩ 2) ∅ (by decide) (fun _ => rfl) ["a", "b", "c"]
  exact ⟨made, done, held 0 (by decide), held 1 (by decide)⟩

end IpfsCluster.Soundness
