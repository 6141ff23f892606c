import IpfsCluster.Golang.Ring
import IpfsCluster.Model.Raft.DataHelper

/-! # The backups are a bounded queue

The numbered names hold a list of contents, the newest one first. Making a backup moves a gap from behind the last of
them to the front, by renaming one backup after the other, and fills it with the data folder.
-/

namespace IpfsCluster.Proofs.Raft

open Model.Raft Golang List DataBackupHelper AList

variable {Content : Type}

section

variable {files : Files Content} {old new : Path} {content : Content}

theorem notExist_eq_false {path : Path} (found : files.lookup path = some content) : files.notExist path = false := by
  rw [Files.notExist, found]
  rfl

theorem rename_eq_ok (found : files.lookup old = some content) (free : files.lookup new = none) :
    files.rename old new = .ok (insert new content (files.removeAll old)) := by
  have absent : files.notExist new = true := by
    rw [Files.notExist, free]
    rfl
  rw [Files.rename, found]
  exact if_pos absent

theorem lookup_renamed {path : Path} (other : path ≠ new) (kept : path ≠ old) :
    (insert new content (files.removeAll old)).lookup path = files.lookup path := by
  rw [lookup_insert_ne other, Files.removeAll, lookup_erase_ne kept]

end

section

variable (dbh : DataBackupHelper)

theorem makeName_inj {i j : ℕ} : dbh.makeName i = dbh.makeName j ↔ i = j := by
  refine ⟨fun same => ?_, congrArg dbh.makeName⟩
  have bases := congrArg Path.base same
  exact decimal_inj.mp (String.append_right_inj _ |>.mp bases)

theorem folder_ne_makeName (i : ℕ) : dbh.folder ≠ dbh.makeName i := by
  intro same
  have bases := congrArg (fun path => path.base.length) same
  simp only [folder, makeName, String.length_append] at bases
  have mark : ".old.".length = 5 := rfl
  omega

end

variable (dbh : DataBackupHelper) {files : Files Content} {items : List Content}

/-- The numbered names hold the items, and no other name does. -/
def Holds (files : Files Content) (items : List Content) : Prop :=
  ∀ i, files.lookup (dbh.makeName i) = items[i]?

/-- The names hold the items, but from a position on they are moved up by one. -/
structure Gap (files : Files Content) (items : List Content) (position : ℕ) : Prop where
  below : ∀ i < position, files.lookup (dbh.makeName i) = items[i]?
  gap : files.lookup (dbh.makeName position) = none
  above : ∀ i, position ≤ i → files.lookup (dbh.makeName (i + 1)) = items[i]?

variable {dbh}

theorem Holds.gap (holds : Holds dbh files items) : Gap dbh files items items.length where
  below i _ := holds i
  gap := by rw [holds, getElem?_eq_none le_rfl]
  above i later := by rw [holds, getElem?_eq_none later, getElem?_eq_none (Nat.le_succ_of_le later)]

theorem Gap.rename {position : ℕ} (gap : Gap dbh files items (position + 1)) (within : position < items.length) :
    ∃ renamed, files.rename (dbh.makeName position) (dbh.makeName (position + 1)) = .ok renamed ∧
      Gap dbh renamed items position ∧ renamed.lookup dbh.folder = files.lookup dbh.folder := by
  have found := gap.below position (Nat.lt_succ_self position)
  rw [getElem?_eq_getElem within] at found
  refine ⟨_, rename_eq_ok found gap.gap, ⟨fun i lower => ?_, ?_, fun i later => ?_⟩, ?_⟩
  · rw [lookup_renamed (by rw [Ne, makeName_inj]; omega) (by rw [Ne, makeName_inj]; omega)]
    exact gap.below i (by omega)
  · rw [lookup_insert_ne (by rw [Ne, makeName_inj]; omega), Files.removeAll, lookup_erase]
  · obtain rfl | above := eq_or_lt_of_le later
    · rw [lookup_insert, getElem?_eq_getElem within]
    · rw [lookup_renamed (by rw [Ne, makeName_inj]; omega) (by rw [Ne, makeName_inj]; omega)]
      exact gap.above i above
  · exact lookup_renamed (folder_ne_makeName dbh _) (folder_ne_makeName dbh _)

theorem Gap.increase {backups : List Path} {position : ℕ} (gap : Gap dbh files items position)
    (within : position ≤ items.length) (named : ∀ i ≤ position, backups[i]? = some (dbh.makeName i)) :
    ∃ increased, increase backups position files = (none, increased) ∧ Gap dbh increased items 0 ∧
      increased.lookup dbh.folder = files.lookup dbh.folder := by
  induction position generalizing files with
  | zero => exact ⟨files, rfl, gap, rfl⟩
  | succ position ih =>
    obtain ⟨renamed, done, lower, folder⟩ := gap.rename within
    obtain ⟨increased, finished, first, kept⟩ := ih lower (by omega) (fun i low => named i (by omega))
    refine ⟨increased, ?_, first, kept.trans folder⟩
    rw [increase, named position (by omega), named (position + 1) le_rfl]
    dsimp only
    rw [done]
    exact finished

def names (dbh : DataBackupHelper) (count : ℕ) : List Path := (List.range count).map dbh.makeName

theorem getElem?_names {count i : ℕ} (within : i < count) : (names dbh count)[i]? = some (dbh.makeName i) := by
  rw [names, getElem?_map, getElem?_range within, Option.map_some]

theorem names_succ (count : ℕ) : names dbh (count + 1) = names dbh count ++ [dbh.makeName count] := by
  rw [names, range_succ, map_append, map_singleton, names]

theorem length_names (count : ℕ) : (names dbh count).length = count := by
  rw [names, length_map, length_range]

theorem Holds.listBackups (holds : Holds dbh files items) (bounded : items.length ≤ dbh.keep.toNat) :
    dbh.listBackups files = names dbh items.length := by
  obtain ⟨free, total⟩ := Nat.exists_eq_add_of_le bounded
  have existing : ∀ name ∈ names dbh items.length, (!files.notExist name) = true := by
    intro name member
    obtain ⟨i, within, rfl⟩ := mem_map.mp member
    rw [mem_range] at within
    rw [notExist_eq_false ((holds i).trans (getElem?_eq_getElem within)), Bool.not_false]
  rw [DataBackupHelper.listBackups, total, range_add, map_append, ← names, takeWhile_append_of_pos existing]
  refine append_right_eq_self.mpr ?_
  cases free with
  | zero => rfl
  | succ free =>
    rw [range_succ_eq_map, map_cons, map_cons, Nat.add_zero, takeWhile_cons_of_neg]
    rw [Files.notExist, holds, getElem?_eq_none le_rfl]
    exact Bool.false_ne_true

variable {content : Content}

theorem Gap.fill (gap : Gap dbh files items 0) (found : files.lookup dbh.folder = some content) :
    ∃ filled, files.rename dbh.folder (dbh.makeName 0) = .ok filled ∧ Holds dbh filled (content :: items) := by
  refine ⟨_, rename_eq_ok found gap.gap, fun i => ?_⟩
  cases i with
  | zero => rw [lookup_insert, getElem?_cons_zero]
  | succ i =>
    rw [lookup_renamed (by rw [Ne, makeName_inj]; omega) (folder_ne_makeName dbh _).symm, getElem?_cons_succ]
    exact gap.above i (Nat.zero_le i)

theorem Holds.removeAll (holds : Holds dbh files (items ++ [content])) :
    Holds dbh (files.removeAll (dbh.makeName items.length)) items := by
  intro i
  rw [Files.removeAll]
  by_cases last : i = items.length
  · rw [last, lookup_erase, getElem?_eq_none le_rfl]
  · rw [lookup_erase_ne (by rw [Ne, makeName_inj]; exact last), holds]
    obtain lower | higher := lt_or_gt_of_ne last
    · exact getElem?_append_left lower
    · rw [getElem?_eq_none (by rw [length_append, length_singleton]; omega), getElem?_eq_none higher.le]

theorem Holds.moveUp (holds : Holds dbh files items) (found : files.lookup dbh.folder = some content) :
    ∃ increased filled, increase (names dbh (items.length + 1)) items.length files = (none, increased) ∧
      increased.rename dbh.folder (dbh.makeName 0) = .ok filled ∧ Holds dbh filled (content :: items) := by
  obtain ⟨increased, done, first, folder⟩ :=
    holds.gap.increase le_rfl fun i low => getElem?_names (Nat.lt_succ_of_le low)
  obtain ⟨filled, finished, held⟩ := first.fill (folder.trans found)
  exact ⟨increased, filled, done, finished, held⟩

variable {queue : BoundedQueue Content dbh.keep.toNat}

/-- Making a backup pushes the content of the data folder to the queue of backups. -/
theorem makeBackup_push (some_kept : 0 < dbh.keep) (holds : Holds dbh files queue.items)
    (found : files.lookup dbh.folder = some content) :
    ∃ made, dbh.makeBackup files = (none, made) ∧ Holds dbh made (queue.push content).items := by
  obtain ⟨items, bounded⟩ := queue
  have listed := holds.listBackups bounded
  rw [BoundedQueue.items_push]
  dsimp only at *
  rw [makeBackup, notExist_eq_false found, if_neg Bool.false_ne_true]
  dsimp only
  rw [listed, length_names]
  by_cases full : dbh.keep ≤ items.length
  · have count : items.length = dbh.keep.toNat := by omega
    obtain ⟨kept, last, rfl⟩ : ∃ kept last, items = kept ++ [last] :=
      ⟨_, _, (dropLast_append_getLast (ne_nil_of_length_pos (by omega))).symm⟩
    have length : (kept ++ [last]).length = kept.length + 1 := length_append
    rw [if_pos full, length, names_succ, getLast?_concat]
    dsimp only
    have still : (files.removeAll (dbh.makeName kept.length)).lookup dbh.folder = some content := by
      rw [Files.removeAll, lookup_erase_ne (folder_ne_makeName dbh _)]
      exact found
    obtain ⟨increased, filled, done, finished, held⟩ := holds.removeAll.moveUp still
    rw [← names_succ, length_names, Nat.add_sub_cancel, done]
    dsimp only
    rw [finished]
    refine ⟨filled, rfl, ?_⟩
    rw [← count, length, take_succ_cons, take_left]
    exact held
  · rw [if_neg full]
    dsimp only
    obtain ⟨increased, filled, done, finished, held⟩ := holds.moveUp found
    rw [← names_succ, length_names, Nat.add_sub_cancel, done]
    dsimp only
    rw [finished]
    refine ⟨filled, rfl, ?_⟩
    rw [take_of_length_le (by rw [length_cons]; omega)]
    exact held

theorem makeBackups_push (some_kept : 0 < dbh.keep) (contents : List Content) (holds : Holds dbh files queue.items) :
    ∃ made, dbh.makeBackups contents files = (none, made) ∧ Holds dbh made (contents.foldl .push queue).items := by
  induction contents generalizing files queue with
  | nil => exact ⟨files, rfl, holds⟩
  | cons content contents ih =>
    have unchanged : Holds dbh (insert dbh.folder content files) queue.items := fun i => by
      rw [lookup_insert_ne (folder_ne_makeName dbh i).symm]
      exact holds i
    obtain ⟨made, done, pushed⟩ := makeBackup_push some_kept unchanged (lookup_insert _)
    obtain ⟨rest, finished, held⟩ := ih pushed
    refine ⟨rest, ?_, held⟩
    rw [makeBackups, done]
    exact finished

end IpfsCluster.Proofs.Raft
