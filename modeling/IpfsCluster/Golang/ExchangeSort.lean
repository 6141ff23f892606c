import Mathlib.Data.List.Basic
import Mathlib.Data.List.Perm.Basic
import Mathlib.Data.List.Sort
import Mathlib.Order.Basic

/-! # Sorting by exchanges

The nested loops that compare every position with every later one and exchange two items if the later one has a larger
key. The result is sorted by keys, largest first. Items with equal keys come in an order that depends on the input: a
sorted input is left as it is.
-/

namespace IpfsCluster.Golang

open List

variable {α κ : Type} [LinearOrder κ] (key : α → κ)

/-- The inner loop: the item at a position is exchanged with every later one that has a larger key. -/
def exchangePass : α → List α → α × List α
  | item, [] => (item, [])
  | item, next :: rest =>
    if key item < key next then ((exchangePass next rest).1, item :: (exchangePass next rest).2)
    else ((exchangePass item rest).1, next :: (exchangePass item rest).2)

/-- The outer loop over a number of positions. -/
def exchangeLoop : ℕ → List α → List α
  | 0, items => items
  | _ + 1, [] => []
  | count + 1, item :: rest => (exchangePass key item rest).1 :: exchangeLoop count (exchangePass key item rest).2

def exchangeSort (items : List α) : List α := exchangeLoop key items.length items

variable {key}

theorem exchangePass_perm (item : α) (rest : List α) :
    ((exchangePass key item rest).1 :: (exchangePass key item rest).2).Perm (item :: rest) := by
  induction rest generalizing item with
  | nil => exact .refl _
  | cons next rest ih =>
    rw [exchangePass]
    split
    · exact (List.Perm.swap _ _ _).trans ((ih next).cons item)
    · exact (List.Perm.swap _ _ _).trans (((ih item).cons next).trans (.swap _ _ _))

/-- The inner loop brings the largest key to its position. -/
theorem exchangePass_le (item : α) (rest : List α) :
    ∀ other ∈ item :: rest, key other ≤ key (exchangePass key item rest).1 := by
  induction rest generalizing item with
  | nil =>
    intro other member
    rw [mem_singleton.mp member]
    exact le_rfl
  | cons next rest ih =>
    rw [exchangePass]
    intro other member
    split
    next smaller =>
      rcases mem_cons.mp member with rfl | later
      · exact smaller.le.trans (ih next next mem_cons_self)
      · exact ih next other later
    next notSmaller =>
      rcases mem_cons.mp member with rfl | later
      · exact ih other other mem_cons_self
      · rcases mem_cons.mp later with rfl | later
        · exact (not_lt.mp notSmaller).trans (ih item item mem_cons_self)
        · exact ih item other (mem_cons_of_mem item later)

theorem exchangeLoop_perm (count : ℕ) (items : List α) : (exchangeLoop key count items).Perm items := by
  induction count generalizing items with
  | zero => exact .refl _
  | succ count ih =>
    cases items with
    | nil => exact .refl _
    | cons item rest => exact ((ih _).cons _).trans (exchangePass_perm item rest)

theorem exchangeSort_perm (items : List α) : (exchangeSort key items).Perm items := exchangeLoop_perm _ items

variable {items : List α}

theorem exchangeLoop_pairwise {count : ℕ} (enough : items.length ≤ count) :
    (exchangeLoop key count items).Pairwise fun first second => key second ≤ key first := by
  induction count generalizing items with
  | zero =>
    rw [length_eq_zero_iff.mp (Nat.le_zero.mp enough)]
    exact .nil
  | succ count ih =>
    cases items with
    | nil => exact .nil
    | cons item rest =>
      have perm : ((exchangePass key item rest).1 :: (exchangePass key item rest).2).Perm (item :: rest) :=
        exchangePass_perm item rest
      have length := perm.length_eq
      rw [length_cons, length_cons] at length
      rw [length_cons] at enough
      refine .cons (fun other member => ?_) (ih (by omega))
      have later : other ∈ (exchangePass key item rest).2 := (exchangeLoop_perm _ _).mem_iff.mp member
      exact exchangePass_le item rest other (perm.mem_iff.mp (mem_cons_of_mem _ later))

theorem exchangeSort_pairwise (items : List α) :
    (exchangeSort key items).Pairwise fun first second => key second ≤ key first :=
  exchangeLoop_pairwise (Nat.le_refl _)

variable {item : α}

theorem exchangePass_of_le {rest : List α} (largest : ∀ other ∈ rest, key other ≤ key item) :
    exchangePass key item rest = (item, rest) := by
  induction rest with
  | nil => rfl
  | cons next rest ih =>
    obtain ⟨here, later⟩ := forall_mem_cons.mp largest
    rw [exchangePass, if_neg (not_lt.mpr here), ih later]

theorem exchangeSort_of_pairwise (sorted : items.Pairwise fun first second => key second ≤ key first) :
    exchangeSort key items = items := by
  induction sorted with
  | nil => rfl
  | @cons item rest largest later ih =>
    change (exchangePass key item rest).1 :: exchangeLoop key rest.length (exchangePass key item rest).2 = _
    rw [exchangePass_of_le largest]
    exact congrArg (item :: ·) ih

/-- The first item of a sorted list with a property has the largest key of all that have it. -/
theorem find?_exchangeSort {holds : α → Bool} (found : (exchangeSort key items).find? holds = some item) :
    item ∈ items ∧ holds item = true ∧ ∀ other ∈ items, holds other = true → key other ≤ key item := by
  obtain ⟨isItem, before, after, split, notBefore⟩ := find?_eq_some_iff_append.mp found
  have sorted : (exchangeSort key items).Pairwise fun first second => key second ≤ key first := exchangeSort_pairwise _
  have perm : (exchangeSort key items).Perm items := exchangeSort_perm _
  rw [split] at sorted perm
  refine ⟨perm.mem_iff.mp (mem_append_right _ mem_cons_self), isItem, fun other member otherHolds => ?_⟩
  rcases mem_append.mp (perm.mem_iff.mpr member) with early | late
  · have absurd := notBefore other early
    rw [otherHolds] at absurd
    cases absurd
  · rcases mem_cons.mp late with rfl | later
    · exact le_rfl
    · exact (pairwise_cons.mp (pairwise_append.mp sorted).2.1).1 other later

/-- Every item with the largest key of all that have a property is the first of them in some order. -/
theorem exists_perm_find? {holds : α → Bool} (member : item ∈ items) (isItem : holds item = true)
    (largest : ∀ other ∈ items, holds other = true → key other ≤ key item) :
    ∃ visited, visited.Perm items ∧ (exchangeSort key visited).find? holds = some item := by
  let above (first second : α) : Prop := key second ≤ key first
  have : Std.Total above := ⟨fun first second => le_total (key second) (key first)⟩
  have : IsTrans α above := ⟨fun _ _ _ first second => second.trans first⟩
  obtain ⟨front, back, rfl⟩ := append_of_mem member
  have sorted : (exchangeSort key (front ++ back)).Pairwise above := exchangeSort_pairwise _
  have visitedPerm : ((exchangeSort key (front ++ back)).orderedInsert above item).Perm (front ++ item :: back) :=
    (perm_orderedInsert above item _).trans (((exchangeSort_perm _).cons item).trans perm_middle.symm)
  refine ⟨_, visitedPerm, ?_⟩
  rw [exchangeSort_of_pairwise (sorted.orderedInsert item _), orderedInsert_eq_take_drop, find?_eq_some_iff_append]
  refine ⟨isItem, _, _, rfl, fun other early => ?_⟩
  have higher : ¬ above item other := of_decide_eq_true (all_eq_true.mp all_takeWhile other early)
  have isOther : other ∈ front ++ item :: back :=
    visitedPerm.mem_iff.mp ((mem_orderedInsert above).mpr (.inr ((takeWhile_sublist _).subset early)))
  rw [Bool.not_eq_true']
  exact Bool.eq_false_iff.mpr fun otherHolds => higher (largest other isOther otherHolds)
end IpfsCluster.Golang
