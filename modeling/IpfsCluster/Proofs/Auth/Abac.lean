import IpfsCluster.Model.Auth.Abac

/-! # Which policy decides

A policy decides in some order of the map exactly if it applies and no other that applies has a higher priority.
-/

namespace IpfsCluster.Proofs.Auth

open Model.Auth Golang

variable {parseFloat : String → Option Float} {evalCtx : EvaluationContext}

def Applies (parseFloat : String → Option Float) (evalCtx : EvaluationContext) (policy : Policy) : Prop :=
  (policy.enabled && evaluatePolicy parseFloat evalCtx policy) = true

/-- A policy applies, and no policy that applies has a higher priority. -/
structure Decisive (parseFloat : String → Option Float) (evalCtx : EvaluationContext) (policies : List Policy)
    (policy : Policy) : Prop where
  member : policy ∈ policies
  applies : Applies parseFloat evalCtx policy
  highest : ∀ other ∈ policies, Applies parseFloat evalCtx other → other.priority ≤ policy.priority

variable {visited policies : List Policy}

theorem decisive_of_decidingPolicy {policy : Policy} (perm : visited.Perm policies)
    (decides : decidingPolicy parseFloat evalCtx visited = some policy) :
    Decisive parseFloat evalCtx policies policy := by
  obtain ⟨member, applies, highest⟩ := find?_exchangeSort decides
  exact ⟨perm.mem_iff.mp member, applies, fun other isPolicy => highest other (perm.mem_iff.mpr isPolicy)⟩

theorem exists_decidingPolicy {policy : Policy} (decisive : Decisive parseFloat evalCtx policies policy) :
    ∃ visited, visited.Perm policies ∧ decidingPolicy parseFloat evalCtx visited = some policy :=
  exists_perm_find? decisive.member decisive.applies decisive.highest

theorem decidingPolicy_eq_none_iff (perm : visited.Perm policies) :
    decidingPolicy parseFloat evalCtx visited = none ↔ ∀ policy ∈ policies, ¬ Applies parseFloat evalCtx policy := by
  rw [decidingPolicy, List.find?_eq_none]
  have sameMembers (policy : Policy) : policy ∈ getApplicablePolicies visited ↔ policy ∈ policies :=
    ((exchangeSort_perm visited).trans perm).mem_iff
  simp only [sameMembers]
  rfl

variable {authCtx : AuthContext} {principal : Principal} {now : TimeParts}

theorem abacAuthorize_eq_none_iff (present : authCtx.principal = some principal) (visited : List Policy) :
    abacAuthorize parseFloat now visited authCtx = none ↔
      ∃ policy, decidingPolicy parseFloat (buildEvaluationContext now authCtx) visited = some policy ∧
        policy.effect ≠ .deny := by
  unfold abacAuthorize
  rw [present]
  dsimp only
  cases decidingPolicy parseFloat (buildEvaluationContext now authCtx) visited with
  | none => exact iff_of_false nofun fun ⟨_, absurd, _⟩ => nomatch absurd
  | some policy =>
    dsimp only
    split
    next denies =>
      refine iff_of_false nofun fun ⟨other, same, allows⟩ => allows ?_
      rw [← Option.some.inj same]
      exact denies
    next allows => exact iff_of_true rfl ⟨policy, rfl, allows⟩

theorem allowed_of_allowed (present : authCtx.principal = some principal) {first second : List Policy}
    (perm₁ : first.Perm policies) (perm₂ : second.Perm policies)
    (agree : ∀ one other, Decisive parseFloat (buildEvaluationContext now authCtx) policies one →
      Decisive parseFloat (buildEvaluationContext now authCtx) policies other →
        (one.effect = .deny ↔ other.effect = .deny)) (allowed : abacAuthorize parseFloat now first authCtx = none) :
    abacAuthorize parseFloat now second authCtx = none := by
  obtain ⟨policy, decides, allows⟩ := (abacAuthorize_eq_none_iff present first).mp allowed
  have decisive := decisive_of_decidingPolicy perm₁ decides
  cases other : decidingPolicy parseFloat (buildEvaluationContext now authCtx) second with
  | none => exact absurd decisive.applies ((decidingPolicy_eq_none_iff perm₂).mp other policy decisive.member)
  | some policy₂ =>
    have decisive₂ := decisive_of_decidingPolicy perm₂ other
    exact (abacAuthorize_eq_none_iff present second).mpr
      ⟨policy₂, other, fun denies => allows ((agree policy policy₂ decisive decisive₂).mpr denies)⟩

theorem lookup_roles (principal : Principal) : (subjectAttributes principal).lookup "roles" =
      some (((principal.attrs.getD ∅).lookup "roles").getD (join ',' principal.roles)) := by
  have own : (subjectAttributes principal).lookup "roles" =
      (((principal.attrs.getD ∅).lookup "roles").map id).or (some (join ',' principal.roles)) := by
    refine (AList.lookup_insertAll_entries (.refl _) Function.injective_id id _ "roles").trans ?_
    rw [id, AList.lookup_insert]
  rw [own]
  cases (principal.attrs.getD ∅).lookup "roles" <;> rfl

theorem splitAttribute_roles : splitAttribute "subject.roles" = some ("subject", "roles") := by decide +kernel

theorem applies_adminFullAccess_iff (present : authCtx.principal = some principal) :
    Applies parseFloat (buildEvaluationContext now authCtx) adminFullAccess ↔
      contains (((principal.attrs.getD ∅).lookup "roles").getD (join ',' principal.roles)) "admin" = true := by
  have value : getAttributeValue (buildEvaluationContext now authCtx) "subject.roles" =
      ((principal.attrs.getD ∅).lookup "roles").getD (join ',' principal.roles) := by
    rw [getAttributeValue, splitAttribute_roles]
    dsimp only
    rw [if_pos rfl, buildEvaluationContext, present]
    exact congrArg (Option.getD · "") (lookup_roles principal)
  change (true && (evaluateRule parseFloat _ ⟨"subject.roles", .contains, "admin", []⟩ && true)) = true ↔ _
  rw [Bool.true_and, Bool.and_true, evaluateRule, value]

theorem decidingPolicy_eq_admin_iff (perm : visited.Perm initializeDefaults) :
    decidingPolicy parseFloat evalCtx visited = some adminFullAccess ↔ Applies parseFloat evalCtx adminFullAccess := by
  have present : adminFullAccess ∈ initializeDefaults := List.mem_cons_self
  constructor
  · exact fun decides => (decisive_of_decidingPolicy perm decides).applies
  · intro applies
    cases decides : decidingPolicy parseFloat evalCtx visited with
    | none => exact absurd applies ((decidingPolicy_eq_none_iff perm).mp decides adminFullAccess present)
    | some policy =>
      have decisive := decisive_of_decidingPolicy perm decides
      have high : (100 : ℤ) ≤ policy.priority := decisive.highest adminFullAccess present applies
      have only : ∀ other ∈ initializeDefaults, (100 : ℤ) ≤ other.priority → other = adminFullAccess := by decide
      rw [only policy decisive.member high]

end IpfsCluster.Proofs.Auth
