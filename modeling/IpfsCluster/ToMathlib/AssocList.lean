import Mathlib.Data.List.AList
import Mathlib.Data.List.Perm.Basic

/-! # Entries of association lists and maps of lists

Mathlib describes lookups after an update. Programs that keep counters next to a map also need the
entries themselves: an entry that is looked up can be moved to the front, what is left being the
map with its key erased, so that any count over the entries splits at one key. A map whose values
are lists reads an absent key as the empty list; appending items at their keys groups them. A relation
between the values of different keys survives an insertion if the new value is related to all others.
-/

namespace AList

open List

universe u v

variable {α : Type u} {β : α → Type v} [DecidableEq α] {s : AList β} {a : α} {b : β a}

/-- The entry of a key and the entries of all others. -/
theorem entries_perm_cons_erase (found : s.lookup a = some b) : s.entries.Perm (⟨a, b⟩ :: (s.erase a).entries) := by
  have present : a ∈ s.entries.keys := dlookup_isSome.mp (by
    rw [show s.entries.dlookup a = some b from found]
    rfl)
  obtain ⟨other, before, after, absent, split, erased⟩ := exists_of_kerase present
  have same : other = b := by
    have here : (⟨a, other⟩ : Sigma β) ∈ s.entries := by simp [split]
    have read : s.lookup a = some other := (mem_lookup_iff.mpr here)
    exact Option.mem_unique read found
  subst same
  change s.entries.Perm (⟨a, other⟩ :: s.entries.kerase a)
  rw [erased]
  nth_rewrite 1 [split]
  exact perm_middle

theorem mem_entries_iff {entry : Sigma β} : entry ∈ s.entries ↔ s.lookup entry.1 = some entry.2 := by
  obtain ⟨key, value⟩ := entry
  exact mem_lookup_iff.symm

theorem lookup_erase_eq_some {c : α} {value : β c} (found : (s.erase a).lookup c = some value) :
    c ≠ a ∧ s.lookup c = some value := by
  have other : c ≠ a := by
    rintro rfl
    rw [lookup_erase] at found
    cases found
  exact ⟨other, (lookup_erase_ne other).symm.trans found⟩

theorem lookup_insert_eq_ite {δ : Type v} (m : AList fun _ : α => δ) (a c : α) (value : δ) :
    (m.insert a value).lookup c = if c = a then some value else m.lookup c := by
  split
  next same => rw [same, lookup_insert]
  next other => exact lookup_insert_ne other

theorem lookup_erase_eq_ite {δ : Type v} (m : AList fun _ : α => δ) (a c : α) :
    (m.erase a).lookup c = if c = a then none else m.lookup c := by
  split
  next same => rw [same, lookup_erase]
  next other => exact lookup_erase_ne other

theorem lookup_insert_eq_some {δ : Type v} {m : AList fun _ : α => δ} {c : α} {new value : δ}
    (found : (m.insert a new).lookup c = some value) : (c = a ∧ new = value) ∨ (c ≠ a ∧ m.lookup c = some value) := by
  rw [lookup_insert_eq_ite] at found
  split at found
  next same => exact .inl ⟨same, Option.some.inj found⟩
  next other => exact .inr ⟨other, found⟩

section

variable {γ : Type v}

/-- The list at a key; an absent key has the empty one. -/
def listAt (s : AList (fun _ : α => List γ)) (a : α) : List γ := (s.lookup a).getD []

/-- Append an item to the list at a key. -/
def appendAt (s : AList (fun _ : α => List γ)) (a : α) (item : γ) : AList (fun _ : α => List γ) :=
  s.insert a (s.listAt a ++ [item])

@[simp] theorem listAt_empty (a : α) : (∅ : AList (fun _ : α => List γ)).listAt a = [] := rfl

theorem listAt_appendAt (s : AList (fun _ : α => List γ)) (key a : α) (item : γ) :
    (s.appendAt key item).listAt a = if a = key then s.listAt a ++ [item] else s.listAt a := by
  rw [appendAt, listAt, lookup_insert_eq_ite]
  split
  next same => rw [same, Option.getD_some]
  · rfl

/-- Group the selected items of a list under their keys. -/
def appendAll (key : γ → α) (select : γ → Bool) (items : List γ)
    (s : AList (fun _ : α => List γ)) : AList (fun _ : α => List γ) :=
  items.foldl (fun acc item => if select item then acc.appendAt (key item) item else acc) s

section

variable (key : γ → α) (select : γ → Bool) (items : List γ) (s : AList (fun _ : α => List γ)) (a : α)

/-- Grouping keeps the order of the items of each key. -/
theorem listAt_appendAll : (s.appendAll key select items).listAt a =
      s.listAt a ++ items.filter (fun item => select item && decide (key item = a)) := by
  induction items generalizing s with
  | nil => simp [appendAll]
  | cons item rest ih =>
    simp only [appendAll, foldl_cons] at ih ⊢
    rw [ih]
    cases selected : select item
    · simp [selected]
    · by_cases same : a = key item
      · simp [selected, same, listAt_appendAt]
      · simp [selected, same, Ne.symm same, listAt_appendAt]

theorem mem_appendAll :
    a ∈ s.appendAll key select items ↔ a ∈ s ∨ ∃ item ∈ items, select item = true ∧ key item = a := by
  induction items generalizing s with
  | nil => simp [appendAll]
  | cons item rest ih =>
    simp only [appendAll, foldl_cons] at ih ⊢
    rw [ih]
    cases selected : select item
    · simp [selected]
    · simp only [↓reduceIte, appendAt, mem_insert, mem_cons, exists_eq_or_imp, selected, true_and]
      rw [or_comm (a := a = key item), or_assoc, eq_comm (a := a)]

end

theorem lookup_eq_some_listAt {s : AList (fun _ : α => List γ)} {a : α} (present : a ∈ s) :
    s.lookup a = some (s.listAt a) := by
  obtain ⟨items, found⟩ := Option.isSome_iff_exists.mp (lookup_isSome.mpr present)
  simp [listAt, found]

end

section

variable {γ : Type u} {δ : Type v}

/-- Insert one entry for each item; later items replace earlier ones. -/
def insertAll (key : γ → α) (value : γ → δ) (items : List γ) (s : AList (fun _ : α => δ)) : AList (fun _ : α => δ) :=
  items.foldl (fun acc item => acc.insert (key item) (value item)) s

section

variable (key : γ → α) (value : γ → δ) (items : List γ) (s : AList (fun _ : α => δ)) (a : α)

theorem lookup_insertAll : (s.insertAll key value items).lookup a =
      ((items.filter fun item => key item = a).getLast?.map value).or (s.lookup a) := by
  induction items generalizing s with
  | nil => rfl
  | cons item rest ih =>
    change ((s.insert (key item) (value item)).insertAll key value rest).lookup a = _
    rw [ih, filter_cons]
    by_cases same : key item = a
    · subst same
      rw [decide_eq_true rfl, if_pos rfl, lookup_insert, getLast?_cons]
      cases (rest.filter fun other => key other = key item).getLast? <;> rfl
    · rw [decide_eq_false same, if_neg Bool.false_ne_true, lookup_insert_ne (Ne.symm same)]

theorem mem_insertAll : a ∈ s.insertAll key value items ↔ (∃ item ∈ items, key item = a) ∨ a ∈ s := by
  rw [← lookup_isSome, ← lookup_isSome, lookup_insertAll, Option.isSome_or, Option.isSome_map, Bool.or_eq_true,
    getLast?_isSome]
  refine or_congr_left ?_
  rw [ne_eq, filter_eq_nil_iff]
  simp [not_forall]

end

/-- Inserting the entries of a map under other keys, which tell the original ones apart. -/
theorem lookup_insertAll_entries {κ : Type u} [DecidableEq κ] {ν : Type u} {m : AList (fun _ : κ => ν)}
    {items : List (Sigma fun _ : κ => ν)} (perm : items.Perm m.entries) {key : κ → α}
    (injective : Function.Injective key) (value : ν → δ) (s : AList (fun _ : α => δ)) (k : κ) :
    (s.insertAll (fun item => key item.1) (fun item => value item.2) items).lookup (key k) =
      ((m.lookup k).map value).or (s.lookup (key k)) := by
  have mem_iff (item : Sigma fun _ : κ => ν) :
      item ∈ items.filter (fun item => key item.1 = key k) ↔ item.1 = k ∧ m.lookup item.1 = some item.2 := by
    rw [mem_filter, perm.mem_iff, mem_entries_iff, decide_eq_true_iff, injective.eq_iff, and_comm]
  rw [lookup_insertAll]
  cases last : (items.filter fun item => key item.1 = key k).getLast? with
  | none =>
    rw [getLast?_eq_none_iff] at last
    cases found : m.lookup k with
    | none => rfl
    | some v =>
      have member := (mem_iff ⟨k, v⟩).mpr ⟨rfl, found⟩
      rw [last] at member
      cases member
  | some item =>
    obtain ⟨rfl, found⟩ := (mem_iff item).mp (mem_of_getLast? last)
    rw [found]
    rfl

end

section

variable {γ δ : Type v}

/-- Change every value, whatever its key. -/
def mapValues (f : γ → δ) (s : AList (fun _ : α => γ)) : AList (fun _ : α => δ) where
  entries := s.entries.map (.map id fun _ => f)
  nodupKeys := by
    have keys : (s.entries.map (.map id fun _ => f) : List (Σ _ : α, δ)).keys = s.entries.keys := by
      rw [List.keys, List.keys, map_map]
      rfl
    rw [List.NodupKeys, keys]
    exact s.nodupKeys

theorem lookup_mapValues (f : γ → δ) (s : AList (fun _ : α => γ)) (a : α) :
    (s.mapValues f).lookup a = (s.lookup a).map f :=
  dlookup_map₂ a

end

end AList
