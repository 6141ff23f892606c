import Mathlib.Data.List.Basic

/-! # Finite runs of labeled machines

A machine executes one label at a time and refuses a label that is not enabled. A run is the
partial fold of its step over a list of labels, so that a concrete run can be evaluated. `Meets`
says that every step of a run satisfies a guard on its source state and label; the invariant rule
asks for preservation under the guard only. The unguarded rule is the instance at the trivial guard.
-/

namespace IpfsCluster.Machine

open Option

universe u v

/-- One labeled step at a time; `none` is a label that is not enabled. -/
structure LabeledMachine (State : Type u) (Event : Type v) where
  step : State → Event → Option State

namespace LabeledMachine

variable {State : Type u} {Event : Type v} (m : LabeledMachine State Event)

/-- Execute the labels in order, stopping at the first one that is not enabled. -/
def run : State → List Event → Option State
  | source, [] => some source
  | source, event :: rest => (m.step source event).bind fun next => run next rest

/-- Every step actually taken satisfies the guard at its own source state. -/
def Meets (guard : State → Event → Prop) : State → List Event → Prop
  | _, [] => True
  | source, event :: rest =>
      guard source event ∧ ∀ next, m.step source event = some next → Meets guard next rest

/-- A guard that can be decided can be decided along a run. -/
instance decidableMeets (guard : State → Event → Prop) [∀ source event, Decidable (guard source event)] :
    ∀ source events, Decidable (m.Meets guard source events)
  | _, [] => isTrue trivial
  | source, event :: rest =>
    haveI := fun next => decidableMeets guard next rest
    inferInstanceAs (Decidable (guard source event ∧ ∀ next ∈ m.step source event, m.Meets guard next rest))

variable {m} {source target : State} {events : List Event}

theorem run_cons_eq_some {event : Event} : m.run source (event :: events) = some target ↔
      ∃ next, m.step source event = some next ∧ m.run next events = some target :=
  bind_eq_some_iff

theorem run_append (more : List Event) :
    m.run source (events ++ more) = (m.run source events).bind fun next => m.run next more := by
  induction events generalizing source with
  | nil => rfl
  | cons event rest ih =>
    rw [List.cons_append, run, run, bind_assoc]
    simp only [ih]

theorem run_trans {mid : State} {more : List Event} (first : m.run source events = some mid)
    (later : m.run mid more = some target) : m.run source (events ++ more) = some target := by
  rw [run_append, first, bind_some, later]

theorem run_eq_some_getD (completes : (m.run source events).isSome = true) (default : State) :
    m.run source events = some ((m.run source events).getD default) := by
  obtain ⟨target, ran⟩ := isSome_iff_exists.mp completes
  rw [ran]
  rfl

variable {guard : State → Event → Prop}

/-- What every guarded step preserves holds at the end of every guarded run. -/
theorem invariant_of_meets (inv : State → Prop)
    (preserved : ∀ s e next, inv s → guard s e → m.step s e = some next → inv next) (initial : inv source)
    (meets : m.Meets guard source events) (ran : m.run source events = some target) : inv target := by
  induction events generalizing source with
  | nil =>
    cases ran
    exact initial
  | cons event rest ih =>
    obtain ⟨next, step, tail⟩ := run_cons_eq_some.mp ran
    exact ih (preserved _ _ _ initial meets.1 step) (meets.2 next step) tail

theorem Meets.imp {weaker : State → Event → Prop} (implies : ∀ s e, guard s e → weaker s e)
    (meets : m.Meets guard source events) : m.Meets weaker source events := by
  induction events generalizing source with
  | nil => trivial
  | cons event rest ih => exact ⟨implies _ _ meets.1, fun next step => ih (meets.2 next step)⟩

theorem Meets.of_append {more : List Event} {mid : State} (meets : m.Meets guard source (events ++ more))
    (ran : m.run source events = some mid) : m.Meets guard source events ∧ m.Meets guard mid more := by
  induction events generalizing source with
  | nil =>
    cases ran
    exact ⟨trivial, meets⟩
  | cons event rest ih =>
    obtain ⟨next, step, tail⟩ := run_cons_eq_some.mp ran
    obtain ⟨first, later⟩ := ih (meets.2 next step) tail
    refine ⟨⟨meets.1, fun next' step' => ?_⟩, later⟩
    obtain rfl := mem_unique step step'
    exact first

theorem meets_of_forall (holds : ∀ event ∈ events, ∀ s, guard s event) (source : State) :
    m.Meets guard source events := by
  induction events generalizing source with
  | nil => trivial
  | cons event rest ih =>
    obtain ⟨here, later⟩ := List.forall_mem_cons.mp holds
    exact ⟨here source, fun next _ => ih later next⟩

theorem invariant_of_run (inv : State → Prop) (preserved : ∀ s e next, inv s → m.step s e = some next → inv next)
    (initial : inv source) (ran : m.run source events = some target) : inv target :=
  invariant_of_meets inv (fun s e next holds _ => preserved s e next holds) initial
    (meets_of_forall (fun _ _ _ => trivial) source) ran

/-- When the guard says exactly which steps keep a property, it says so for runs: all states that a run reaches
have the property if and only if all its steps meet the guard. -/
theorem forall_reached_iff_meets (inv : State → Prop)
    (exactly : ∀ s e next, inv s → m.step s e = some next → (inv next ↔ guard s e)) (initial : inv source)
    (ran : m.run source events = some target) :
    (∀ before after mid, events = before ++ after → m.run source before = some mid → inv mid) ↔
      m.Meets guard source events := by
  induction events generalizing source with
  | nil =>
    refine iff_of_true (fun before after mid split reached => ?_) trivial
    obtain ⟨rfl, -⟩ := List.nil_eq_append_iff.mp split
    cases reached
    exact initial
  | cons event rest ih =>
    obtain ⟨next, step, tail⟩ := run_cons_eq_some.mp ran
    constructor
    · intro all
      have kept : inv next := all [event] rest next rfl (run_cons_eq_some.mpr ⟨next, step, rfl⟩)
      refine ⟨(exactly _ _ _ initial step).mp kept, fun next' step' => ?_⟩
      obtain rfl := mem_unique step step'
      refine (ih kept tail).mp fun before after mid split reached => ?_
      exact all (event :: before) after mid (congrArg (event :: ·) split) (run_cons_eq_some.mpr ⟨next, step, reached⟩)
    · rintro ⟨here, later⟩ before after mid split reached
      cases before with
      | nil =>
        cases reached
        exact initial
      | cons first before =>
        obtain ⟨rfl, restSplit⟩ := List.cons.inj split
        obtain ⟨next', step', reached⟩ := run_cons_eq_some.mp reached
        obtain rfl := mem_unique step step'
        have kept := (exactly _ _ _ initial step).mpr here
        exact (ih kept tail).mpr (later next step) before after mid restSplit reached

/-- When every step lowers a rank, a run is at most as long as the rank goes down. -/
theorem length_le_of_run (inv : State → Prop) (rank : State → ℕ)
    (lowers : ∀ s e next, inv s → m.step s e = some next → inv next ∧ rank next < rank s) (initial : inv source)
    (ran : m.run source events = some target) : events.length + rank target ≤ rank source := by
  induction events generalizing source with
  | nil =>
    cases ran
    exact Nat.le_of_eq (Nat.zero_add _)
  | cons event rest ih =>
    obtain ⟨next, step, tail⟩ := run_cons_eq_some.mp ran
    obtain ⟨holds, lower⟩ := lowers _ _ _ initial step
    have bound := ih holds tail
    rw [List.length_cons]
    omega

/-- Runs of bounded length that can be continued until they are done can be completed. -/
theorem exists_run_of_bounded (done : State → Prop) {bound : ℕ}
    (bounded : ∀ events target, m.run source events = some target → events.length ≤ bound)
    (progress : ∀ events target, m.run source events = some target → ¬ done target →
      ∃ event, (m.step target event).isSome = true) :
    ∃ events target, m.run source events = some target ∧ done target := by
  by_contra never
  have longer (n : ℕ) : ∃ events target, m.run source events = some target ∧ events.length = n := by
    induction n with
    | zero => exact ⟨[], source, rfl, rfl⟩
    | succ n ih =>
      obtain ⟨events, target, ran, length⟩ := ih
      obtain ⟨event, enabled⟩ := progress events target ran fun finished => never ⟨events, target, ran, finished⟩
      obtain ⟨next, step⟩ := isSome_iff_exists.mp enabled
      refine ⟨events ++ [event], next, ?_, ?_⟩
      · exact run_trans ran (run_cons_eq_some.mpr ⟨next, step, rfl⟩)
      · rw [List.length_append, List.length_singleton, length]
  obtain ⟨events, target, ran, length⟩ := longer (bound + 1)
  have short := bounded events target ran
  omega

end LabeledMachine

end IpfsCluster.Machine
