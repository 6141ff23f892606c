import Mathlib.Algebra.Order.Group.Nat
import Mathlib.Data.List.Count
import Mathlib.Data.List.Perm.Basic

/-! # Counting over a list with a switch

The items of a list are asked one after the other. Some turn a switch on, which stays on, and an item may answer
differently before and after that. How many answers are positive depends on the order of the list: between the number of
items that always answer so and that of items that sometimes do, both being reached.
-/

namespace IpfsCluster.ToMathlib

open List

variable {α : Type} (flips : α → Bool) (value : Bool → α → Bool)

/-- How many items of a list hold, each in the state that those before it leave. An item that flips leaves the state on,
and the state stays on. -/
def held : Bool → List α → ℕ
  | _, [] => 0
  | on, item :: rest => (value on item).toNat + held (on || flips item) rest

/-- An item holds in both states, or in one of them. -/
def heldIn (either : Bool) (item : α) : Bool :=
  if either then value false item || value true item else value false item && value true item

variable {flips value} {items : List α}

theorem held_of_constant {on : Bool} (constant : ∀ item ∈ items, (on || flips item) = on) :
    held flips value on items = items.countP (value on) := by
  induction items with
  | nil => rfl
  | cons item rest ih =>
    obtain ⟨here, later⟩ := forall_mem_cons.mp constant
    rw [held, here, ih later, countP_cons, add_comm]
    cases value on item <;> rfl

theorem held_append {on : Bool} (front back : List α) : held flips value on (front ++ back) =
      held flips value on front + held flips value (on || front.any flips) back := by
  induction front generalizing on with
  | nil => rw [nil_append, held, any_nil, Bool.or_false, zero_add]
  | cons item rest ih => rw [cons_append, held, held, ih, any_cons, Bool.or_assoc, add_assoc]

theorem held_bounds (on : Bool) (items : List α) : items.countP (heldIn value false) ≤ held flips value on items ∧
      held flips value on items ≤ items.countP (heldIn value true) := by
  induction items generalizing on with
  | nil => exact ⟨le_rfl, le_rfl⟩
  | cons item rest ih =>
    obtain ⟨least, most⟩ := ih (on || flips item)
    have here : (if heldIn value false item = true then 1 else 0) ≤ (value on item).toNat ∧
        (value on item).toNat ≤ if heldIn value true item = true then 1 else 0 := by
      cases on <;> cases before : value false item <;> cases after : value true item <;> simp [heldIn, before, after]
    rw [held, countP_cons, countP_cons]
    omega

/-- Both bounds are reached if an item flips: items that hold, or do not hold, while the state is off come before it. -/
theorem exists_perm_held (kept : ∀ item, flips item = true → value false item = value true item)
    (some_flip : ∃ item ∈ items, flips item = true) (either : Bool) :
    ∃ order : List α, order.Perm items ∧ held flips value false order = items.countP (heldIn value either) := by
  obtain ⟨first, member, turns⟩ := some_flip
  obtain ⟨front, back, rfl⟩ := append_of_mem member
  let early (item : α) : Bool := !flips item && (value false item == either)
  have parted := filter_append_perm early (front ++ back)
  have perm : ((front ++ back).filter early ++ first :: (front ++ back).filter (!early ·)).Perm
      (front ++ first :: back) :=
    perm_middle.trans ((parted.cons first).trans perm_middle.symm)
  refine ⟨_, perm, ?_⟩
  have still : ∀ item ∈ (front ++ back).filter early, flips item = false := by
    intro item isEarly
    simpa using (Bool.and_eq_true_iff.mp (mem_filter.mp isEarly).2).1
  have noFlip : ((front ++ back).filter early).any flips = false :=
    any_eq_false.mpr fun item isEarly => by rw [still item isEarly]; exact Bool.false_ne_true
  have before : held flips value false ((front ++ back).filter early) =
      ((front ++ back).filter early).countP (value false) := held_of_constant still
  have after : held flips value true ((front ++ back).filter (!early ·)) =
      ((front ++ back).filter (!early ·)).countP (value true) := held_of_constant fun item _ => rfl
  rw [held_append, noFlip, ← perm.countP_eq, countP_append, held, turns, before, Bool.or_self, Bool.false_or,
    after, countP_cons, add_comm (Bool.toNat _)]
  refine congrArg₂ (· + ·) (countP_congr fun item isEarly => ?_)
    (congrArg₂ (· + ·) (countP_congr fun item isLate => ?_) ?_)
  · have holds : value false item = either := by
      simpa using (Bool.and_eq_true_iff.mp (mem_filter.mp isEarly).2).2
    cases either <;> simp [heldIn, holds]
  · have late : early item = false := by simpa using (mem_filter.mp isLate).2
    cases turned : flips item with
    | true => cases either <;> simp [heldIn, kept item turned]
    | false =>
      have holds : value false item = !either := by
        cases either <;> simpa [early, turned] using late
      cases either <;> simp [heldIn, holds]
  · have same := kept first turns
    cases holds : value true first <;> rw [holds] at same <;> cases either <;> simp [heldIn, same, holds]

/-- A monotone property of the count does not depend on the order exactly if no item flips, or the property holds of the
least count if it does of the greatest. -/
theorem forall_perm_held_iff {Enough : ℕ → Prop} (mono : ∀ {few more : ℕ}, few ≤ more → Enough few → Enough more)
    (kept : ∀ item, flips item = true → value false item = value true item) :
    (∀ order order' : List α, order.Perm items → order'.Perm items →
      Enough (held flips value false order) → Enough (held flips value false order')) ↔
    ((∃ item ∈ items, flips item = true) →
      Enough (items.countP (heldIn value true)) → Enough (items.countP (heldIn value false))) := by
  constructor
  · intro same some_flip enough
    obtain ⟨most, permMost, reachesMost⟩ := exists_perm_held kept some_flip true
    obtain ⟨least, permLeast, reachesLeast⟩ := exists_perm_held kept some_flip false
    exact reachesLeast ▸ same most least permMost permLeast (reachesMost ▸ enough)
  · intro guarded order order' perm perm' enough
    by_cases some_flip : ∃ item ∈ items, flips item = true
    · have most : held flips value false order ≤ items.countP (heldIn value true) :=
        (held_bounds false order).2.trans_eq (perm.countP_eq _)
      have least : items.countP (heldIn value false) ≤ held flips value false order' :=
        (perm'.countP_eq _).symm.trans_le (held_bounds false order').1
      exact mono least (guarded some_flip (mono most enough))
    · have off {order : List α} (perm : order.Perm items) :
          held flips value false order = items.countP (value false) := by
        rw [held_of_constant fun item member => ?_, perm.countP_eq]
        exact Bool.eq_false_iff.mpr fun turns => some_flip ⟨item, perm.mem_iff.mp member, turns⟩
      rwa [off perm', ← off perm]

end IpfsCluster.ToMathlib
