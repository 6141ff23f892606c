import Mathlib.Data.Prod.Basic

/-! # Code that can fail

Go code that changes state and may return an error is a computation in `EStateM`: the state that was
reached stays when there is an error. The lemmas say what a computation that succeeds has done, one
step after the other. A computation may work on a pair of states, one its own and one that is reached
through calls.
-/

namespace IpfsCluster.Golang.Fallible

variable {ε σ τ α β : Type} {s s' : σ}

@[simp] theorem bind_eq_ok {x : EStateM ε σ α} {f : α → EStateM ε σ β} {b : β} : (x >>= f)
    s = .ok b s' ↔ ∃ a mid, x s = .ok a mid ∧ f a mid = .ok b s' := by
  change EStateM.bind x f s = _ ↔ _
  unfold EStateM.bind
  cases x s with
  | ok a mid =>
    refine ⟨fun done => ⟨a, mid, rfl, done⟩, ?_⟩
    rintro ⟨_, _, same, done⟩
    obtain ⟨rfl, rfl⟩ := EStateM.Result.ok.inj same
    exact done
  | error err mid =>
    refine ⟨fun failed => (nomatch failed), ?_⟩
    rintro ⟨_, _, failed, -⟩
    cases failed

@[simp] theorem pure_eq_ok {a b : α} : (pure a : EStateM ε σ α) s = .ok b s' ↔ a = b ∧ s = s' :=
  ⟨fun same => EStateM.Result.ok.inj same, fun ⟨value, state⟩ => congrArg₂ EStateM.Result.ok value state⟩

@[simp] theorem throw_ne_ok {err : ε} {a : α} : (throw err : EStateM ε σ α) s ≠ .ok a s' :=
  fun same => nomatch same

theorem result_bind_eq_ok {x : Except ε α} {f : α → Except ε β} {b : β} : (x >>= f)
    = .ok b ↔ ∃ a, x = .ok a ∧ f a = .ok b := by
  cases x <;> simp [bind, Except.bind]

/-- A result that was computed without the state. -/
def ofResult : Except ε α → EStateM ε σ α
  | .ok a => pure a
  | .error err => throw err

@[simp] theorem ofResult_eq_ok {result : Except ε α} {a : α} : (ofResult result : EStateM ε σ α)
    s = .ok a s' ↔ result = .ok a ∧ s = s' := by
  cases result with
  | ok b => simp only [ofResult, pure_eq_ok, Except.ok.injEq]
  | error err => simp only [ofResult, throw_ne_ok, reduceCtorEq, false_and]

def own : EStateM ε (σ × τ) σ := fun s => .ok s.1 s

def change (f : σ → σ) : EStateM ε (σ × τ) Unit := fun s => .ok () (f s.1, s.2)

/-- Make a call, which works on the other state. -/
def call (x : EStateM ε τ α) : EStateM ε (σ × τ) α := fun s =>
  match x s.2 with
  | .ok a t => .ok a (s.1, t)
  | .error err t => .error err (s.1, t)

@[simp] theorem own_eq_ok {s s' : σ × τ} {a : σ} : (own : EStateM ε (σ × τ) σ) s = .ok a s' ↔ s.1 = a ∧ s = s' :=
  ⟨fun same => EStateM.Result.ok.inj same, fun ⟨value, state⟩ => congrArg₂ EStateM.Result.ok value state⟩

@[simp] theorem change_eq_ok {f : σ → σ} {s s' : σ × τ} {u : Unit} : (change f : EStateM ε (σ × τ) Unit)
    s = .ok u s' ↔ (f s.1, s.2) = s' :=
  ⟨fun same => (EStateM.Result.ok.inj same).2, fun state => congrArg (EStateM.Result.ok ()) state⟩

@[simp] theorem call_eq_ok {x : EStateM ε τ α} {s s' : σ × τ} {a : α} : (call x : EStateM ε (σ × τ) α)
    s = .ok a s' ↔ ∃ t, x s.2 = .ok a t ∧ (s.1, t) = s' := by
  unfold call
  cases x s.2 with
  | ok b t =>
    constructor
    · intro done
      obtain ⟨rfl, state⟩ := EStateM.Result.ok.inj done
      exact ⟨t, rfl, state⟩
    · rintro ⟨_, same, rfl⟩
      obtain ⟨rfl, rfl⟩ := EStateM.Result.ok.inj same
      rfl
  | error err t =>
    refine ⟨fun failed => (nomatch failed), ?_⟩
    rintro ⟨_, failed, -⟩
    cases failed

section

variable {f : α → EStateM ε σ PUnit} {P : σ → Prop}

/-- What every step keeps is kept by a loop that succeeds. -/
theorem keeps_of_forM (items : List α) (step : ∀ a s s', P s → f a s = .ok () s' → P s') {s s' : σ} (initial : P s)
    (done : items.forM f s = .ok () s') : P s' := by
  induction items generalizing s with
  | nil =>
    obtain ⟨-, rfl⟩ := pure_eq_ok.mp done
    exact initial
  | cons a rest ih =>
    obtain ⟨_, mid, first, later⟩ := bind_eq_ok.mp done
    exact ih (step a s mid initial first) later

/-- A loop succeeds when every step does. -/
theorem ok_of_forM (items : List α) (step : ∀ a s, P s → ∃ s', f a s = .ok () s' ∧ P s') {s : σ} (initial : P s) :
    ∃ s', items.forM f s = .ok () s' ∧ P s' := by
  induction items generalizing s with
  | nil => exact ⟨s, rfl, initial⟩
  | cons a rest ih =>
    obtain ⟨mid, first, kept⟩ := step a s initial
    obtain ⟨last, later, keptLast⟩ := ih kept
    exact ⟨last, bind_eq_ok.mpr ⟨(), mid, first, later⟩, keptLast⟩

end

end IpfsCluster.Golang.Fallible
