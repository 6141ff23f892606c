import Mathlib.Data.Nat.Basic
import Mathlib.Logic.Function.Basic

/-! # Records that are shared by reference

A map of Go is a reference: copies of a struct that holds it share one record. A heap has a record at every address;
the addresses from `next` on are not in use yet.
-/

namespace IpfsCluster.Golang

structure Heap (α : Type) where
  records : ℕ → α
  next : ℕ

namespace Heap

variable {α : Type} (heap : Heap α)

def make (record : α) : ℕ × Heap α :=
  (heap.next, { records := Function.update heap.records heap.next record, next := heap.next + 1 })

/-- Change the record at an address, for all that refer to it. -/
def modify (address : ℕ) (change : α → α) : Heap α :=
  { heap with records := Function.update heap.records address (change (heap.records address)) }

variable {heap} {address other : ℕ}

theorem records_make (record : α) (used : address < heap.next) :
    (heap.make record).2.records address = heap.records address := Function.update_of_ne (Nat.ne_of_lt used) ..

@[simp] theorem records_modify_self (change : α → α) :
    (heap.modify address change).records address = change (heap.records address) := Function.update_self ..

theorem records_modify_of_ne (change : α → α) (apart : other ≠ address) :
    (heap.modify address change).records other = heap.records other := Function.update_of_ne apart ..

end Heap

end IpfsCluster.Golang
