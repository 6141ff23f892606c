import Mathlib

/-! # Maps that hold a sequence

A Go map from strings can hold a sequence: the next item is stored under the decimal form of the
number of items so far. `Lists` says that a map holds exactly the items of a list in this way; it is
kept by storing one more item, and it determines all lookups and the values that a loop visits.
-/

namespace IpfsCluster.Golang

open List AList

variable {α : Type*}

/-- The text that `fmt.Sprintf("%d", i)` gives for a number that is not negative. -/
def decimal (i : ℕ) : String := i.repr

theorem decimal_inj {i j : ℕ} : decimal i = decimal j ↔ i = j := Nat.repr_inj

namespace Indexed

/-- Store an item under the number of items so far. -/
def push (obj : AList (fun _ : String => α)) (item : α) : AList (fun _ : String => α) :=
  obj.insert (decimal obj.entries.length) item

def entries (items : List α) : List (Sigma fun _ : String => α) :=
  items.zipIdx.map fun item => ⟨decimal item.2, item.1⟩

/-- The map holds the items of the list under their positions, and nothing else. -/
def Lists (obj : AList (fun _ : String => α)) (items : List α) : Prop := obj.entries.Perm (entries items)

/-- The items in the order of their positions. -/
def toList (obj : AList (fun _ : String => α)) : List α :=
  (range obj.entries.length).filterMap fun i => obj.lookup (decimal i)

variable {obj : AList (fun _ : String => α)} {items : List α}

theorem lists_empty : Lists (∅ : AList (fun _ : String => α)) [] := .refl _

theorem Lists.length (lists : Lists obj items) : obj.entries.length = items.length := by
  rw [List.Perm.length_eq lists, entries, length_map, length_zipIdx]

theorem mem_entries_iff {entry : Sigma fun _ : String => α} :
    entry ∈ entries items ↔ ∃ i, items[i]? = some entry.2 ∧ entry.1 = decimal i := by
  rw [entries, mem_map]
  constructor
  · rintro ⟨⟨item, i⟩, member, rfl⟩
    exact ⟨i, mk_mem_zipIdx_iff_getElem?.mp member, rfl⟩
  · rintro ⟨i, found, key⟩
    exact ⟨(entry.2, i), mk_mem_zipIdx_iff_getElem?.mpr found, Sigma.ext key.symm HEq.rfl⟩

theorem Lists.lookup (lists : Lists obj items) (i : ℕ) : obj.lookup (decimal i) = items[i]? := by
  refine Option.ext fun item => ?_
  rw [← Option.mem_def, mem_lookup_iff, List.Perm.mem_iff lists, mem_entries_iff]
  constructor
  · rintro ⟨j, found, key⟩
    rw [decimal_inj.mp key]
    exact found
  · intro found
    exact ⟨i, found, rfl⟩

private theorem filterMap_getElem?_range (items : List α) : (range items.length).filterMap (items[·]?) = items := by
  induction items using reverseRecOn with
  | nil => rfl
  | append_singleton items item ih =>
    have before : (range items.length).filterMap ((items ++ [item])[·]?) = (range items.length).filterMap (items[·]?) :=
      filterMap_congr fun i inside => getElem?_append_left (mem_range.mp inside)
    rw [length_append, length_singleton, range_succ, filterMap_append, before, ih]
    simp

section

variable (lists : Lists obj items)

include lists

theorem Lists.toList_eq : toList obj = items := by
  rw [toList, lists.length]
  simp only [lists.lookup]
  exact filterMap_getElem?_range items

theorem Lists.values_perm : (obj.entries.map (·.2)).Perm items := by
  have values : (entries items).map (·.2) = items := by
    rw [entries, map_map]
    exact zipIdx_map_fst 0 items
  exact values ▸ List.Perm.map _ lists

theorem Lists.push (item : α) : Lists (push obj item) (items ++ [item]) := by
  have new : decimal obj.entries.length ∉ obj := by
    rw [← lookup_eq_none, lists.lookup, lists.length]
    exact getElem?_eq_none (Nat.le_refl _)
  rw [Lists, Indexed.push, entries_insert_of_notMem new, lists.length, entries, zipIdx_append, map_append, Nat.zero_add]
  exact (List.Perm.cons _ lists).trans (perm_append_singleton _ _).symm

theorem Lists.mem_iff (key : String) : key ∈ obj ↔ ∃ i < items.length, key = decimal i := by
  rw [← lookup_isSome, Option.isSome_iff_exists]
  constructor
  · rintro ⟨item, found⟩
    obtain ⟨i, listed, same⟩ := mem_entries_iff.mp ((List.Perm.mem_iff lists).mp (mem_lookup_iff.mp found))
    exact ⟨i, (List.getElem?_eq_some_iff.mp listed).1, same⟩
  · rintro ⟨i, inside, rfl⟩
    exact ⟨items[i], (lists.lookup i).trans (getElem?_eq_getElem inside)⟩

/-- What is found under the positions up to the number of entries. -/
def lookups (obj : AList (fun _ : String => α)) : List (Option α) :=
  (range obj.entries.length).map fun i => obj.lookup (decimal i)

theorem Lists.lookups_eq : lookups obj = items.map some := by
  refine ext_getElem? fun i => ?_
  rw [lookups, lists.length, getElem?_map, getElem?_map]
  obtain inside | outside := lt_or_ge i items.length
  · rw [getElem?_range inside, Option.map_some, lists.lookup, getElem?_eq_getElem inside, Option.map_some]
  · rw [getElem?_eq_none (length_range.trans_le outside), getElem?_eq_none outside, Option.map_none, Option.map_none]

end

theorem nodup_entries (items : List α) : (entries items).Nodup := by
  refine List.Nodup.of_map (·.1) ?_
  rw [entries, map_map, show (Sigma.fst ∘ fun item : α × ℕ => (⟨decimal item.2, item.1⟩ : Sigma fun _ => α)) =
    decimal ∘ Prod.snd from rfl, ← map_map, zipIdx_map_snd]
  exact (nodup_range').map fun _ _ same => decimal_inj.mp same

/-- A map whose keys are the first positions holds a sequence. -/
theorem exists_lists {n : ℕ} (keys : ∀ key, key ∈ obj ↔ ∃ i < n, key = decimal i) :
    ∃ items, Lists obj items ∧ items.length = n := by
  have present (i : Fin n) : ∃ value, obj.lookup (decimal i) = some value :=
    Option.isSome_iff_exists.mp (lookup_isSome.mpr ((keys _).mpr ⟨i, i.isLt, rfl⟩))
  choose value found using present
  refine ⟨ofFn value, ?_, length_ofFn⟩
  refine (perm_ext_iff_of_nodup obj.nodupKeys.nodup (nodup_entries _)).mpr fun entry => ?_
  rw [mem_entries_iff, ← mem_lookup_iff, Option.mem_def]
  constructor
  · intro stored
    obtain ⟨i, inside, key⟩ := (keys entry.1).mp (lookup_isSome.mp (Option.isSome_iff_exists.mpr ⟨_, stored⟩))
    refine ⟨i, ?_, key⟩
    rw [List.getElem?_ofFn, dif_pos inside, ← found ⟨i, inside⟩, ← stored, key]
  · rintro ⟨i, listed, key⟩
    rw [List.getElem?_ofFn] at listed
    split_ifs at listed with inside
    · rw [key, found ⟨i, inside⟩, listed]

end Indexed

end IpfsCluster.Golang
