import Mathlib.Logic.Basic

/-! # Mutexes of one client

A method that locks a mutex and unlocks it when it returns. Mutexes of Go are not reentrant: a method that
locks a mutex it already holds waits for itself. With a single client there is nobody else who could unlock
it, so that the call has no outcome.
-/

namespace IpfsCluster.Golang

universe u v

structure Mutex (σ : Type u) where
  locked : σ → Bool
  set : Bool → σ → σ
  locked_set : ∀ held s, locked (set held s) = held

namespace Mutex

variable {σ : Type u} {α : Type v} (mu : Mutex σ)

/-- Run a section between locking and unlocking; no outcome is a call that never returns. -/
def sync (body : σ → Option (α × σ)) (s : σ) : Option (α × σ) :=
  if mu.locked s then none else (body (mu.set true s)).map fun outcome => (outcome.1, mu.set false outcome.2)

variable {body : σ → Option (α × σ)} {s s' : σ} {a : α}

/-- A section that locks again never returns. -/
theorem sync_of_locked (held : mu.locked s = true) : mu.sync body s = none := if_pos held

theorem sync_of_free (free : mu.locked s = false) :
    mu.sync body s = (body (mu.set true s)).map fun outcome => (outcome.1, mu.set false outcome.2) :=
  if_neg (by rw [free]; decide)

/-- A call that returns has run its section. -/
theorem exists_of_sync (returned : mu.sync body s = some (a, s')) :
    ∃ inside, body (mu.set true s) = some (a, inside) ∧ s' = mu.set false inside := by
  unfold sync at returned
  split at returned
  · cases returned
  · obtain ⟨⟨result, inside⟩, ran, same⟩ := Option.map_eq_some_iff.mp returned
    cases same
    exact ⟨inside, ran, rfl⟩

theorem locked_of_sync (returned : mu.sync body s = some (a, s')) : mu.locked s' = false := by
  obtain ⟨inside, -, rfl⟩ := mu.exists_of_sync returned
  exact mu.locked_set false inside

end Mutex

end IpfsCluster.Golang
