import Mathlib.Data.Fin.Basic
import Mathlib.Data.List.Basic
import Mathlib.Data.List.Induction
import Mathlib.Data.ZMod.Defs

/-! # Bounded queues and circular lists

A bounded queue has the last items that were pushed to it, as many of them as there is room for. It is what a rotation
of numbered files keeps. A `ring.Ring` is a circular list seen from one of its elements. Here its elements are the slots
of a vector, and the element it is seen from is an index that wraps around. A ring that is written at the cursor and
moved on holds a bounded queue.
-/

namespace IpfsCluster.Golang

universe u

/-- A queue, newest first, that forgets its oldest items when it is full. -/
structure BoundedQueue (α : Type u) (capacity : ℕ) where
  items : List α
  bounded : items.length ≤ capacity

namespace BoundedQueue

variable {α : Type u} {capacity : ℕ}

def empty (α : Type u) (capacity : ℕ) : BoundedQueue α capacity := ⟨[], Nat.zero_le capacity⟩

def push (queue : BoundedQueue α capacity) (v : α) : BoundedQueue α capacity where
  items := (v :: queue.items).take capacity
  bounded := List.length_take_le capacity _

theorem items_push (queue : BoundedQueue α capacity) (v : α) :
    (queue.push v).items = (v :: queue.items).take capacity := rfl

/-- After any number of items, the queue holds the last ones of them. -/
theorem items_foldl_push (vs : List α) : (vs.foldl push (empty α capacity)).items = vs.reverse.take capacity := by
  induction vs using List.reverseRecOn with
  | nil => rw [List.foldl_nil, List.reverse_nil, List.take_nil]; rfl
  | append_singleton vs v ih =>
    rw [List.foldl_concat, items_push, ih, List.reverse_concat]
    cases capacity with
    | zero => rw [List.take_zero, List.take_zero]
    | succ room =>
      rw [List.take_succ_cons, List.take_succ_cons, List.take_take, Nat.min_eq_left (Nat.le_succ room)]

end BoundedQueue

/-- A circular list of some size, seen from a cursor; elements start without a value. -/
structure Ring (α : Type u) (size : ℕ) where
  slots : Vector (Option α) size
  cursor : Fin size

namespace Ring

section

variable {α : Type u} {size : ℕ} (r : Ring α size)

def value : Option α := r.slots[r.cursor]

def setValue (v : α) : Ring α size := { r with slots := r.slots.set r.cursor (some v) }

@[simp] theorem value_setValue (v : α) : (r.setValue v).value = some v := by
  simp [value, setValue]

end

variable {α : Type u} {size : ℕ} [NeZero size]

def new (α : Type u) (size : ℕ) [NeZero size] : Ring α size := ⟨Vector.replicate size none, 0⟩

variable (r : Ring α size)

def next : Ring α size := { r with cursor := r.cursor + 1 }

def prev : Ring α size := { r with cursor := r.cursor - 1 }

@[simp] theorem prev_next : r.next.prev = r := by
  simp [next, prev]

/-- The values in the order in which `Do` visits them, from the cursor on. -/
def visited : List (Option α) := List.ofFn fun offset => r.slots[r.cursor + offset]

/-- Writing at the cursor and moving on drops the first value that is visited and visits the new one last. -/
theorem visited_push (v : α) : (r.setValue v).next.visited = r.visited.tail ++ [some v] := by
  obtain ⟨size, rfl⟩ := Nat.exists_eq_succ_of_ne_zero (NeZero.ne size)
  rw [visited, visited, List.ofFn_succ', List.ofFn_succ, List.concat_eq_append, List.tail_cons]
  congr 1
  · congr 1
    funext offset
    have moved : r.cursor + 1 + offset.castSucc = r.cursor + offset.succ := by
      rw [add_assoc, add_comm 1, Fin.coeSucc_eq_succ]
    have other : (r.cursor : ℕ) ≠ (r.cursor + offset.succ : Fin (size + 1)) := by
      intro same
      exact Fin.succ_ne_zero offset (left_eq_add.mp (Fin.ext same))
    simp only [next, setValue, moved]
    exact Vector.getElem_set_ne _ _ other
  · have back : r.cursor + 1 + Fin.last size = r.cursor := by
      rw [add_assoc, add_comm 1, Fin.last_add_one, add_zero]
    simp only [next, setValue, back]
    exact congrArg (fun v => [v]) (Vector.getElem_set_self _)

theorem visited_new : (new α size).visited = List.replicate size none := by
  simp only [visited, new, Fin.getElem_fin, Vector.getElem_replicate]
  exact List.ofFn_const size none

theorem getLast?_visited : r.visited.getLast? = some r.prev.value := by
  obtain ⟨size, rfl⟩ := Nat.exists_eq_succ_of_ne_zero (NeZero.ne size)
  have last : r.cursor + Fin.last size = r.cursor - 1 := by
    rw [sub_eq_add_neg, eq_neg_of_add_eq_zero_left (Fin.last_add_one size)]
  rw [visited, List.ofFn_succ', List.concat_eq_append, List.getLast?_concat]
  simp only [prev, value, last]

/-- The ring holds a queue: from the cursor on there are empty elements, and then the items, oldest first. -/
def Holds (r : Ring α size) (queue : BoundedQueue α size) : Prop :=
  r.visited = List.replicate (size - queue.items.length) none ++ (queue.items.map some).reverse

theorem holds_new : (new α size).Holds (BoundedQueue.empty α size) := by
  rw [Holds, visited_new, BoundedQueue.empty, List.length_nil, Nat.sub_zero, List.map_nil, List.reverse_nil,
    List.append_nil]

variable {r : Ring α size} {queue : BoundedQueue α size} (holds : r.Holds queue)

include holds

/-- Writing at the cursor and moving on is pushing to the queue, whether or not there is an empty element. -/
theorem Holds.push (v : α) : (r.setValue v).next.Holds (queue.push v) := by
  obtain ⟨items, bounded⟩ := queue
  rw [Holds, visited_push, holds, BoundedQueue.items_push, List.length_take, List.length_cons]
  dsimp only at *
  obtain room | full := lt_or_eq_of_le bounded
  · obtain ⟨free, rfl⟩ := Nat.exists_eq_add_of_lt room
    rw [List.take_of_length_le (by rw [List.length_cons]; omega), List.map_cons, List.reverse_cons,
      show items.length + free + 1 - items.length = free + 1 by omega, List.replicate_succ, List.cons_append,
      List.tail_cons, List.append_assoc]
    congr 2
    omega
  · obtain ⟨kept, rfl⟩ := Nat.exists_eq_succ_of_ne_zero (NeZero.ne size)
    rw [full, Nat.sub_self, Nat.min_eq_left (Nat.le_succ _), Nat.sub_self, List.replicate_zero, List.nil_append,
      List.nil_append, List.take_succ_cons, List.map_cons, List.reverse_cons, List.tail_reverse,
      List.dropLast_eq_take, List.length_map, full, List.map_take]
    rfl

omit [NeZero size] in
/-- Collecting the values with the younger ones first gives the items of the queue. -/
theorem Holds.filterMap_visited : (r.visited.filterMap id).reverse = queue.items := by
  rw [holds, List.filterMap_append, List.filterMap_replicate_of_none rfl, List.nil_append, List.filterMap_reverse,
    List.reverse_reverse, List.filterMap_map]
  exact List.filterMap_some

theorem Holds.value_prev : r.prev.value = queue.items.head? := by
  have last := r.getLast?_visited
  rw [holds] at last
  obtain ⟨_ | ⟨newest, items⟩, bounded⟩ := queue
  · obtain ⟨kept, rfl⟩ := Nat.exists_eq_succ_of_ne_zero (NeZero.ne size)
    rw [List.map_nil, List.reverse_nil, List.append_nil, List.length_nil, Nat.sub_zero, List.replicate_succ',
      List.getLast?_concat] at last
    exact (Option.some.inj last).symm
  · rw [List.map_cons, List.reverse_cons, ← List.append_assoc, List.getLast?_concat] at last
    exact (Option.some.inj last).symm

end Ring

end IpfsCluster.Golang
