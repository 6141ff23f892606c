import Mathlib.Data.Finset.Insert
import Mathlib.Order.Basic
import Mathlib.Data.Set.Function

/-! # The element of least key

In a finite set whose elements have different keys, exactly one element has a key that is at most the
key of every element.
-/

namespace IpfsCluster.ToMathlib

open Finset

variable {α β : Type*} [Ord β] [Std.TransOrd β]

theorem exists_leastKey (key : α → β) {s : Finset α} (nonempty : s.Nonempty) :
    ∃ a ∈ s, ∀ b ∈ s, (compare (key a) (key b)).isLE := by
  induction nonempty using Finset.Nonempty.cons_induction with
  | singleton a =>
    refine ⟨a, mem_singleton_self a, fun b member => ?_⟩
    rw [mem_singleton.mp member]
    exact Std.ReflCmp.isLE_rfl
  | cons a s new _ ih =>
    obtain ⟨least, member, lower⟩ := ih
    by_cases before : (compare (key a) (key least)).isLE
    · refine ⟨a, mem_cons_self a s, fun b either => ?_⟩
      rcases mem_cons.mp either with rfl | old
      · exact Std.ReflCmp.isLE_rfl
      · exact Std.TransCmp.isLE_trans before (lower b old)
    · refine ⟨least, mem_cons_of_mem member, fun b either => ?_⟩
      rcases mem_cons.mp either with rfl | old
      · have after : compare (key b) (key least) = .gt := by
          simpa only [Ordering.isLE_iff_ne_gt, not_not] using before
        exact Std.OrientedCmp.isGE_iff_isLE.mp (by rw [after]; rfl)
      · exact lower b old

theorem existsUnique_leastKey [Std.LawfulEqOrd β] (key : α → β) {s : Finset α} (distinct : Set.InjOn key s)
    (nonempty : s.Nonempty) : ∃! a, a ∈ s ∧ ∀ b ∈ s, (compare (key a) (key b)).isLE := by
  obtain ⟨least, member, lower⟩ := exists_leastKey key nonempty
  refine ⟨least, ⟨member, lower⟩, fun other ⟨otherMember, otherLower⟩ => ?_⟩
  exact distinct otherMember member (Std.LawfulEqOrd.eq_of_compare
    (Std.OrientedCmp.isLE_antisymm (otherLower least member) (lower other otherMember)))

end IpfsCluster.ToMathlib
