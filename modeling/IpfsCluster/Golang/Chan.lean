import Mathlib.Data.List.Basic

/-! # Buffered channels

A channel holds at most as many items as its capacity. Operations that would block are refused, so that a select is a
choice among the operations that are not. Receiving from a channel that is closed and empty does not block and yields no
item, which Go turns into the zero value of the item type.

A feeder sends items and is done when none is left. The function that lists the items closes the channel at its end. A
feeder that closes the channel again after that function has returned panics.
-/

namespace IpfsCluster.Golang

structure Chan (α : Type) where
  capacity : ℕ
  buffer : List α := []
  closed : Bool := false
  bounded : buffer.length ≤ capacity

namespace Chan

variable {α : Type}

def make (capacity : ℕ) : Chan α := { capacity := capacity, bounded := Nat.zero_le _ }

variable (ch : Chan α)

/-- Send without blocking; a full channel refuses. -/
def trySend (item : α) : Option (Chan α) :=
  if room : ch.buffer.length < ch.capacity ∧ ch.closed = false then
    some { ch with
      buffer := ch.buffer ++ [item]
      bounded := by rw [List.length_append, List.length_singleton]; exact room.1 }
  else none

/-- Receive without blocking; an empty open channel refuses. -/
def tryReceive : Option (Option α × Chan α) :=
  match items : ch.buffer with
  | [] => if ch.closed then some (none, ch) else none
  | item :: rest =>
    some (some item, { ch with
      buffer := rest
      bounded := by have := ch.bounded; rw [items, List.length_cons] at this; omega })

def close : Chan α := { ch with closed := true }

/-- Receive up to a number of items that are in the channel. -/
def receive (count : ℕ) : Chan α :=
  { ch with buffer := ch.buffer.drop count, bounded := by rw [List.length_drop]; have := ch.bounded; omega }

variable {ch} {next : Chan α}

theorem trySend_eq_some {item : α} (sent : ch.trySend item = some next) :
    next.buffer = ch.buffer ++ [item] ∧ next.closed = false ∧ next.capacity = ch.capacity := by
  unfold trySend at sent
  split at sent
  next room =>
    cases sent
    exact ⟨rfl, room.2, rfl⟩
  · cases sent

theorem trySend_isSome_iff {item : α} :
    (ch.trySend item).isSome = true ↔ ch.buffer.length < ch.capacity ∧ ch.closed = false := by
  unfold trySend
  split
  next room => exact iff_of_true rfl room
  next noRoom => exact iff_of_false nofun noRoom

/-- An item that is sent on an empty channel is received next. -/
theorem trySend_make {capacity : ℕ} (room : 0 < capacity) (item : α) :
    ∃ sent, (make capacity).trySend item = some sent ∧ sent.tryReceive = some (some item, make capacity) ∧
      sent.closed = false :=
  ⟨_, dif_pos ⟨room, rfl⟩, rfl, rfl⟩

theorem tryReceive_eq_some {answer : Option α} (received : ch.tryReceive = some (answer, next)) :
    (answer = none ∧ ch.buffer = [] ∧ ch.closed = true ∧ next = ch) ∨
      ∃ item, answer = some item ∧ ch.buffer = item :: next.buffer ∧ next.closed = ch.closed ∧
        next.capacity = ch.capacity := by
  unfold tryReceive at received
  split at received
  next empty =>
    split at received
    next closed =>
      obtain ⟨rfl, rfl⟩ := Prod.mk.inj (Option.some.inj received)
      exact Or.inl ⟨rfl, empty, closed, rfl⟩
    · cases received
  next item rest items =>
    obtain ⟨rfl, rfl⟩ := Prod.mk.inj (Option.some.inj received)
    exact Or.inr ⟨item, rfl, items, rfl, rfl⟩

theorem tryReceive_eq_item {item : α} (received : ch.tryReceive = some (some item, next)) :
    ch.buffer = item :: next.buffer ∧ next.closed = ch.closed ∧ next.capacity = ch.capacity := by
  rcases tryReceive_eq_some received with ⟨absurd, -⟩ | ⟨_, same, taken⟩
  · cases absurd
  · cases same
    exact taken

theorem tryReceive_eq_closed (received : ch.tryReceive = some (none, next)) : ch.buffer = [] ∧ ch.closed = true := by
  rcases tryReceive_eq_some received with ⟨-, empty, closed, -⟩ | ⟨_, absurd, -⟩
  · exact ⟨empty, closed⟩
  · cases absurd

theorem tryReceive_eq_none (blocked : ch.tryReceive = none) : ch.buffer = [] ∧ ch.closed = false := by
  unfold tryReceive at blocked
  split at blocked
  next empty =>
    split at blocked
    · cases blocked
    next notClosed => exact ⟨empty, Bool.eq_false_iff.mpr notClosed⟩
  · cases blocked

end Chan

/-- Close a channel; closing it again panics. -/
def Chan.tryClose {α : Type} (ch : Chan α) : Option (Chan α) := if ch.closed then none else some ch.close

/-- How far a feeder is: items are left, the list was ended, what follows the list is finished, the channel is
closed by the feeder and it is done, or it panicked. -/
inductive FeederStage (α : Type) where
  | sending (rest : List α)
  | ended
  | finished
  | done
  | panicked
deriving DecidableEq, Repr

def FeederStage.unsent {α : Type} : FeederStage α → List α
  | .sending rest => rest
  | _ => []

structure Feeder (α : Type) where
  stage : FeederStage α
  ch : Chan α

namespace Feeder

variable {α : Type}

def new (capacity : ℕ) (items : List α) : Feeder α := ⟨.sending items, .make capacity⟩

/-- Send the next item, or end the list, which closes the channel if `closes`. A full channel blocks. -/
def list (closes : Bool) (feeder : Feeder α) : Option (Feeder α) :=
  match feeder.stage with
  | .sending (item :: rest) => (feeder.ch.trySend item).map fun ch => ⟨.sending rest, ch⟩
  | .sending [] => some ⟨.ended, if closes then feeder.ch.close else feeder.ch⟩
  | _ => none

/-- The deferred close of the feeder itself. -/
def close (feeder : Feeder α) : Feeder α :=
  match feeder.ch.tryClose with
  | some ch => ⟨.done, ch⟩
  | none => { feeder with stage := .panicked }

theorem list_sending_eq_some {closes : Bool} {item : α} {rest : List α} {ch : Chan α} {next : Feeder α}
    (listed : list closes ⟨.sending (item :: rest), ch⟩ = some next) :
    next.stage = .sending rest ∧ next.ch.buffer = ch.buffer ++ [item] ∧ next.ch.closed = false ∧
      next.ch.capacity = ch.capacity := by
  obtain ⟨sent, trySend, rfl⟩ := Option.map_eq_some_iff.mp listed
  exact ⟨rfl, Chan.trySend_eq_some trySend⟩

theorem list_isSome_of_room {closes : Bool} {items : List α} {ch : Chan α} (isOpen : ch.closed = false)
    (room : ch.buffer.length < ch.capacity) : (list closes ⟨.sending items, ch⟩).isSome = true := by
  cases items with
  | nil => rfl
  | cons item rest =>
    change ((ch.trySend item).map _).isSome = true
    rw [Option.isSome_map]
    exact Chan.trySend_isSome_iff.mpr ⟨room, isOpen⟩

/-- After a list that closed the channel, the close of the feeder panics. -/
theorem close_of_closed {feeder : Feeder α} (closed : feeder.ch.closed = true) :
    feeder.close = { feeder with stage := .panicked } := by
  unfold close Chan.tryClose
  rw [if_pos closed]

theorem close_of_open {feeder : Feeder α} (isOpen : feeder.ch.closed = false) :
    feeder.close = ⟨.done, feeder.ch.close⟩ := by
  unfold close Chan.tryClose
  rw [isOpen]
  rfl

end Feeder

end IpfsCluster.Golang
