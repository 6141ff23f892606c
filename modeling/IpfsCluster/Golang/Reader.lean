import Mathlib.Data.List.Basic

/-! # Readers and loops over records

A reader delivers its bytes in pieces of its own choice: a read yields at most as many bytes as are asked for and at
most what is left of the current piece, and the end of the input after the last one. A loop finds a record at the start
of its input and goes on with what is left, until the input ends, something cannot be read, or a panic. It ends when
every record takes something from the input.
-/

namespace IpfsCluster.Golang

/-- The pieces that a reader still delivers; none is empty. -/
structure Reader where
  pieces : List (List UInt8)
  nonempty : ∀ piece ∈ pieces, piece ≠ []

namespace Reader

def bytes (r : Reader) : List UInt8 := r.pieces.flatten

/-- A reader that puts bytes before another reader. -/
def prepend (front : List UInt8) (r : Reader) : Reader :=
  if isEmpty : front = [] then r
  else ⟨front :: r.pieces, fun piece member => by
    rcases List.mem_cons.mp member with rfl | later
    · exact isEmpty
    · exact r.nonempty piece later⟩

/-- Read once; no bytes are the end of the input, if any are asked for. -/
def read (limit : ℕ) (r : Reader) : List UInt8 × Reader :=
  match pieces : r.pieces with
  | [] => ([], r)
  | piece :: rest =>
    have later : ∀ other ∈ rest, other ≠ [] := fun other member =>
      r.nonempty other (pieces ▸ List.mem_cons_of_mem _ member)
    (piece.take limit, prepend (piece.drop limit) ⟨rest, later⟩)

theorem bytes_prepend (front : List UInt8) (r : Reader) : (prepend front r).bytes = front ++ r.bytes := by
  unfold prepend
  split
  next isEmpty => rw [isEmpty, List.nil_append]
  · exact List.flatten_cons

theorem read_bytes (limit : ℕ) (r : Reader) : (r.read limit).1 ++ (r.read limit).2.bytes = r.bytes := by
  unfold read
  split
  · rfl
  next piece rest pieces =>
    have all : r.bytes = piece ++ rest.flatten := by rw [bytes, pieces, List.flatten_cons]
    rw [bytes_prepend, ← List.append_assoc, List.take_append_drop, all]
    rfl

end Reader

/-- What is found at the start of an input: its end, something that stops the loop or panics, a record to be skipped,
or one that yields an item. -/
inductive Finding (Input Item : Type) where
  | ended
  | stopped (left : Input)
  | panics
  | skipped (left : Input)
  | item (value : Item) (left : Input)

/-- How a loop ends, and with what left of its input. -/
inductive ReadEnd (Input : Type) where
  | ended
  | stopped (left : Input)
  | panicked

section

variable {Input Item : Type} (find : Input → Finding Input Item)

/-- The items that a loop reads from an input, and how it ends. -/
inductive Reads : Input → List Item → ReadEnd Input → Prop where
  | ended {input} (found : find input = .ended) : Reads input [] .ended
  | stopped {input left} (found : find input = .stopped left) : Reads input [] (.stopped left)
  | panics {input} (found : find input = .panics) : Reads input [] .panicked
  | skipped {input left items ending} (found : find input = .skipped left)
      (later : Reads left items ending) : Reads input items ending
  | item {input left value items ending}
      (found : find input = .item value left) (later : Reads left items ending) : Reads input (value :: items) ending

variable {find}

/-- A loop ends if every record takes something from its input. -/
theorem exists_reads (size : Input → ℕ)
    (takes : ∀ input left, (find input = .skipped left ∨ ∃ value, find input = .item value left) →
      size left < size input) (input : Input) : ∃ items ending, Reads find input items ending := by
  induction bound : size input using Nat.strongRecOn generalizing input with
  | _ bound ih =>
    cases found : find input with
    | ended => exact ⟨[], .ended, .ended found⟩
    | stopped left => exact ⟨[], .stopped left, .stopped found⟩
    | panics => exact ⟨[], .panicked, .panics found⟩
    | skipped left =>
      have smaller := takes input left (.inl found)
      obtain ⟨items, ending, later⟩ := ih (size left) (bound ▸ smaller) left rfl
      exact ⟨items, ending, .skipped found later⟩
    | item value left =>
      have smaller := takes input left (.inr ⟨value, found⟩)
      obtain ⟨items, ending, later⟩ := ih (size left) (bound ▸ smaller) left rfl
      exact ⟨value :: items, ending, .item found later⟩

end

end IpfsCluster.Golang
