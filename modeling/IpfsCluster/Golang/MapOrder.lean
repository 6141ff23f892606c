import Mathlib.Data.List.Sort
import Mathlib.Data.List.AList
import Mathlib.Data.List.Rotate

/-! # Iteration order of Go maps and unstable sorting

A `range` over a Go map visits every entry once, in an order that may differ at every execution of
the loop. A `MapOrder` fixes one resolution of all these choices: the loop is named by a site, and
at each site the entries are visited in some permutation. A statement that holds for every
`MapOrder` holds for every iteration order. `sort.Slice` may return any sorted permutation of its
input, because it is not stable; permuting first and then sorting stably yields exactly these.
-/

namespace IpfsCluster.Golang

/-- One resolution of all map iteration orders; a site names one execution of a loop. -/
structure MapOrder where
  visit : {α : Type} → List ℕ → List α → List α
  visit_perm : ∀ {α : Type} (site : List ℕ) (entries : List α), (visit site entries).Perm entries

namespace MapOrder

def stored : MapOrder where
  visit _ entries := entries
  visit_perm _ _ := .refl _

def startingAt (position : ℕ) : MapOrder where
  visit _ entries := entries.rotate position
  visit_perm _ entries := List.rotate_perm entries position

variable (order : MapOrder) {α : Type}

/-- The choices inside of a call that is named by a site. -/
def inside (site : List ℕ) : MapOrder where
  visit inner entries := order.visit (site ++ inner) entries
  visit_perm inner entries := order.visit_perm (site ++ inner) entries

variable (site : List ℕ)

include site

@[simp] theorem mem_visit (entries : List α) (entry : α) : entry ∈ order.visit site entries ↔ entry ∈ entries :=
  (order.visit_perm site entries).mem_iff

/-- Every entry is visited first in some order. -/
theorem exists_visit_eq_cons {entries : List α} {entry : α} (member : entry ∈ entries) :
    ∃ (order : MapOrder) (rest : List α), order.visit site entries = entry :: rest := by
  obtain ⟨front, back, rfl⟩ := List.append_of_mem member
  exact ⟨startingAt front.length, back ++ front, List.rotate_append_length_eq front (entry :: back)⟩

/-- Some sorted permutation of the slice, `less` being the strict order of `sort.Slice`. -/
def sortSlice (site : List ℕ) (less : α → α → Bool) (slice : List α) : List α :=
  (order.visit site slice).insertionSort (fun a b => less b a = false)

theorem sortSlice_perm (less : α → α → Bool) (slice : List α) : (order.sortSlice site less slice).Perm slice :=
  (List.perm_insertionSort _ _).trans (order.visit_perm site slice)

/-- The result is sorted if `less` compares by some total preorder. -/
theorem sortSlice_pairwise {less : α → α → Bool} {rel : α → α → Prop} (compares : ∀ a b, less b a = false ↔ rel a b)
    (total : ∀ a b, rel a b ∨ rel b a) (trans : ∀ {a b c}, rel a b → rel b c → rel a c) (slice : List α) :
    (order.sortSlice site less slice).Pairwise rel := by
  have total' : Std.Total fun a b => less b a = false :=
    ⟨fun a b => (total a b).imp (compares a b).mpr (compares b a).mpr⟩
  have trans' : IsTrans α fun a b => less b a = false :=
    ⟨fun a b c first second => (compares a c).mpr (trans ((compares a b).mp first) ((compares b c).mp second))⟩
  exact (List.pairwise_insertionSort _ _).imp fun {a b} before => (compares a b).mp before

end MapOrder

end IpfsCluster.Golang
