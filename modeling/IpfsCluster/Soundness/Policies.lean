import IpfsCluster.Proofs.Auth.Abac

/-! # Decisions by policies

The policy of administrators compares texts and lets a principal name its own roles attribute. A decision does not
depend on the order of the map as long as policies of the same priority that both apply have the same effect. An
attribute without a value is compared as the empty text.
-/

namespace IpfsCluster.Soundness

open Model.Auth Golang Proofs.Auth Option

/-- Nothing but the role `admin` has `admin` in it: neither the roles attribute of the principal's own attributes, nor,
if there is none, one of its roles. -/
def OnlyRoleAdmin (principal : Principal) : Prop :=
  match (principal.attrs.getD ∅).lookup "roles" with
  | some roles => contains roles "admin" = false
  | none => ∀ role ∈ principal.roles, contains role "admin" = false

theorem not_contains_iff_onlyRoleAdmin (principal : Principal) :
    ¬ contains (((principal.attrs.getD ∅).lookup "roles").getD (join ',' principal.roles)) "admin" = true ↔
      OnlyRoleAdmin principal := by
  unfold OnlyRoleAdmin
  split
  next roles found => rw [found, getD_some, Bool.not_eq_true]
  next notFound =>
    rw [notFound, getD_none, contains_join_iff (by decide) (by decide)]
    simp

/-- Under the default policies, in every order, the policy of administrators grants a request for the exact role only,
exactly if the principal has that role or nothing else in its roles contains its name. -/
theorem admin_policy_iff (parseFloat : String → Option Float) (now : TimeParts) (principal : Principal)
    (resource action : String) (context : Attributes) {visited : List Policy} (perm : visited.Perm initializeDefaults) :
    (decidingPolicy parseFloat (buildEvaluationContext now ⟨some principal, resource, action, context⟩) visited =
        some adminFullAccess → "admin" ∈ principal.roles) ↔ "admin" ∈ principal.roles ∨ OnlyRoleAdmin principal := by
  rw [decidingPolicy_eq_admin_iff perm, applies_adminFullAccess_iff rfl, ← not_contains_iff_onlyRoleAdmin, or_comm]
  exact imp_iff_not_or

def noFloats (_ : String) : Option Float := none

def midday : TimeParts := ⟨12, 1, 0⟩

theorem admin_policy_granted :
    decidingPolicy noFloats (buildEvaluationContext midday ⟨some { id := "a", roles := ["nonadmin"] }, "pin", "pin:add", ∅⟩)
        initializeDefaults = some adminFullAccess ∧
      decidingPolicy noFloats (buildEvaluationContext midday
        ⟨some { id := "a", attrs := some ((∅ : Attributes).insert "roles" "admin") }, "pin", "pin:add", ∅⟩)
          initializeDefaults = some adminFullAccess ∧
      abacAuthorize noFloats midday initializeDefaults ⟨some { id := "a", roles := ["nonadmin"] }, "pin", "pin:add", ∅⟩ =
        none := by
  refine ⟨?_, ?_, ?_⟩ <;> decide +kernel

theorem admin_policy_iff_user : OnlyRoleAdmin { id := "a", roles := ["user"] } ∧
      (decidingPolicy noFloats (buildEvaluationContext midday ⟨some { id := "a", roles := ["user"] }, "pin", "pin:add", ∅⟩)
          initializeDefaults = some adminFullAccess → "admin" ∈ ["user"]) := by
  have only : OnlyRoleAdmin { id := "a", roles := ["user"] } := by
    change ∀ role ∈ ["user"], contains role "admin" = false
    decide +kernel
  exact ⟨only, (admin_policy_iff noFloats midday _ "pin" "pin:add" ∅ (.refl _)).mpr (.inr only)⟩

def policiesOf (policies : AList fun _ : String => Policy) : List Policy := policies.entries.map Sigma.snd

/-- The decision is the same for all orders of the map, exactly if all decisive policies have the same effect. -/
theorem abac_order_iff (parseFloat : String → Option Float) (now : TimeParts)
    (policies : AList fun _ : String => Policy) (authCtx : AuthContext) :
    (∀ first second : List Policy, first.Perm (policiesOf policies) → second.Perm (policiesOf policies) →
        (abacAuthorize parseFloat now first authCtx = none ↔ abacAuthorize parseFloat now second authCtx = none)) ↔
      (authCtx.principal = none ∨ ∀ one other,
        Decisive parseFloat (buildEvaluationContext now authCtx) (policiesOf policies) one →
        Decisive parseFloat (buildEvaluationContext now authCtx) (policiesOf policies) other →
          (one.effect = .deny ↔ other.effect = .deny)) := by
  cases present : authCtx.principal with
  | none =>
    have refused (visited : List Policy) :
        abacAuthorize parseFloat now visited authCtx = some "no principal provided" := by
      rw [abacAuthorize, present]
    refine iff_of_true (fun first second _ _ => ?_) (.inl rfl)
    rw [refused, refused]
  | some principal =>
    constructor
    · refine fun same => .inr fun one other decisive₁ decisive₂ => ?_
      obtain ⟨first, perm₁, decides₁⟩ := exists_decidingPolicy decisive₁
      obtain ⟨second, perm₂, decides₂⟩ := exists_decidingPolicy decisive₂
      have alike := same first second perm₁ perm₂
      rw [abacAuthorize_eq_none_iff present, abacAuthorize_eq_none_iff present, decides₁, decides₂] at alike
      simp only [some.injEq, ne_eq, exists_eq_left'] at alike
      exact not_iff_not.mp alike
    · rintro (absurd | agree) first second perm₁ perm₂
      · cases absurd
      · exact ⟨allowed_of_allowed present perm₁ perm₂ agree, allowed_of_allowed present perm₂ perm₁ agree⟩

/-- In every order of the map, a request is decided by a policy of the highest priority among those that are enabled and
whose rules all hold, and denied if there is none. -/
theorem abac_decides_highest (parseFloat : String → Option Float) (now : TimeParts)
    (policies : AList fun _ : String => Policy) {visited : List Policy} (perm : visited.Perm (policiesOf policies))
    (principal : Principal) (resource action : String) (context : Attributes) :
    (∃ policy, Decisive parseFloat (buildEvaluationContext now ⟨some principal, resource, action, context⟩)
        (policiesOf policies) policy ∧
      abacAuthorize parseFloat now visited ⟨some principal, resource, action, context⟩ =
        if policy.effect = .deny then some ("access denied by policy: " ++ policy.name) else none) ∨
    ((∀ policy ∈ policiesOf policies,
        ¬ Applies parseFloat (buildEvaluationContext now ⟨some principal, resource, action, context⟩) policy) ∧
      abacAuthorize parseFloat now visited ⟨some principal, resource, action, context⟩ =
        some "access denied: no policy allows the requested action") := by
  rw [abacAuthorize]
  cases decides : decidingPolicy parseFloat (buildEvaluationContext now ⟨some principal, resource, action, context⟩)
      visited with
  | none => exact .inr ⟨(decidingPolicy_eq_none_iff perm).mp decides, rfl⟩
  | some policy => exact .inl ⟨policy, decisive_of_decidingPolicy perm decides, rfl⟩

def opposites : AList fun _ : String => Policy :=
  ((∅ : AList fun _ : String => Policy).insert "allow" ⟨"allow", "Allow", .allow, [], 1, true⟩).insert "deny"
    ⟨"deny", "Deny", .deny, [], 1, true⟩

def anyRequest : AuthContext := ⟨some { id := "a" }, "pin", "pin:add", ∅⟩

theorem abac_order_decides :
    abacAuthorize noFloats midday (policiesOf opposites) anyRequest = some "access denied by policy: Deny" ∧
      abacAuthorize noFloats midday (policiesOf opposites).reverse anyRequest = none ∧
      (policiesOf opposites).reverse.Perm (policiesOf opposites) :=
  ⟨by decide +kernel, by decide +kernel, List.reverse_perm _⟩

theorem abac_decides_highest_opposites :
    ∃ policy, Decisive noFloats (buildEvaluationContext midday anyRequest) (policiesOf opposites) policy := by
  rcases abac_decides_highest noFloats midday opposites (.refl _) { id := "a" } "pin" "pin:add" ∅ with
    ⟨policy, decisive, -⟩ | ⟨-, noPolicy⟩
  · exact ⟨policy, decisive⟩
  · exact absurd noPolicy (by decide +kernel)

section

def resolve (evalCtx : EvaluationContext) (attr : String) : Option String :=
  (splitAttribute attr).bind fun (category, key) =>
    if category = "subject" then evalCtx.subject.lookup key
    else if category = "resource" then evalCtx.resource.lookup key
    else if category = "action" then evalCtx.action.lookup key
    else if category = "context" then evalCtx.context.lookup key
    else none

theorem getAttributeValue_eq_resolve (evalCtx : EvaluationContext) (attr : String) :
    getAttributeValue evalCtx attr = (resolve evalCtx attr).getD "" := by
  unfold getAttributeValue resolve
  cases splitAttribute attr with
  | none => rfl
  | some parts =>
    dsimp only [bind_some]
    split_ifs <;> rfl

theorem empty_lt_iff {text : String} : "" < text ↔ text ≠ "" := by
  rw [String.lt_iff_toList_lt, ne_eq, ← String.toList_eq_nil_iff]
  cases text.toList with
  | nil => exact iff_of_false (List.not_lt_nil _) (not_not_intro rfl)
  | cons char rest => exact iff_of_true (List.nil_lt_cons _ _) nofun

theorem not_lt_empty (text : String) : ¬ text < "" := by
  rw [String.lt_iff_toList_lt]
  exact List.not_lt_nil _

variable {parseFloat : String → Option Float} {evalCtx : EvaluationContext}

theorem compareNumeric_empty (empty : parseFloat "" = none) (value : String) :
    compareNumeric parseFloat "" value = if value = "" then 0 else -1 := by
  unfold compareNumeric
  rw [empty]
  dsimp only
  by_cases same : value = ""
  · rw [if_pos same, same, if_neg (not_lt_empty _), if_neg (not_lt_empty _)]
  · rw [if_neg same, if_pos (empty_lt_iff.mpr same)]

theorem evaluateRule_unresolved_iff (empty : parseFloat "" = none) {rule : Rule}
    (ordering : rule.operator ∈ [.greaterThan, .lessThan, .greaterEqual, .lessEqual])
    (unresolved : resolve evalCtx rule.attr = none) : evaluateRule parseFloat evalCtx rule = true ↔
      (rule.operator = .lessThan ∧ rule.value ≠ "") ∨ (rule.operator = .greaterEqual ∧ rule.value = "") ∨
        rule.operator = .lessEqual := by
  have value : getAttributeValue evalCtx rule.attr = "" := by
    rw [getAttributeValue_eq_resolve, unresolved]
    rfl
  unfold evaluateRule
  rw [value]
  simp only [List.mem_cons, List.not_mem_nil, or_false] at ordering
  rcases ordering with operator | operator | operator | operator
  all_goals
    rw [operator]
    simp only [compareNumeric_empty empty]
    split <;> simp [*]

def hoursEnabled : List Policy :=
  [adminFullAccess, userPinAccess, viewerReadAccess, { businessHoursOnly with enabled := true }]

theorem resolve_hour (evalCtx : EvaluationContext) : resolve evalCtx "time.hour" = none := by
  have split : splitAttribute "time.hour" = some ("time", "hour") := by decide +kernel
  rw [resolve, split]
  rfl

theorem applies_businessHours (empty : parseFloat "" = none) (evalCtx : EvaluationContext) :
    Applies parseFloat evalCtx { businessHoursOnly with enabled := true } := by
  have holds : evaluateRule parseFloat evalCtx { attr := "time.hour", operator := .lessThan, value := "9" } = true :=
    (evaluateRule_unresolved_iff empty (by decide) (resolve_hour evalCtx)).mpr (.inl ⟨rfl, by decide⟩)
  change (true && (evaluateRule parseFloat evalCtx _ && true)) = true
  rw [holds]
  rfl

variable {now : TimeParts} {authCtx : AuthContext} {principal : Principal} {visited : List Policy}

theorem granted_defaults_iff (present : authCtx.principal = some principal) (perm : visited.Perm initializeDefaults) :
    abacAuthorize parseFloat now visited authCtx = none ↔
      ∃ policy ∈ initializeDefaults, Applies parseFloat (buildEvaluationContext now authCtx) policy := by
  have allows : ∀ policy ∈ initializeDefaults, policy.enabled = true → policy.effect ≠ .deny := by decide
  rw [abacAuthorize_eq_none_iff present]
  constructor
  · rintro ⟨policy, decides, -⟩
    have decisive := decisive_of_decidingPolicy perm decides
    exact ⟨policy, decisive.member, decisive.applies⟩
  · rintro ⟨policy, member, applies⟩
    cases decides : decidingPolicy parseFloat (buildEvaluationContext now authCtx) visited with
    | none => exact absurd applies ((decidingPolicy_eq_none_iff perm).mp decides policy member)
    | some first =>
      have decisive := decisive_of_decidingPolicy perm decides
      exact ⟨first, rfl, allows first decisive.member (Bool.and_eq_true_iff.mp decisive.applies).1⟩

theorem granted_hoursEnabled_iff (empty : parseFloat "" = none) (present : authCtx.principal = some principal)
    (perm : visited.Perm hoursEnabled) : abacAuthorize parseFloat now visited authCtx = none ↔
      Applies parseFloat (buildEvaluationContext now authCtx) adminFullAccess := by
  have only : ∀ policy ∈ hoursEnabled, 75 ≤ policy.priority → policy.effect ≠ .deny → policy = adminFullAccess := by
    decide
  have highest : ∀ policy ∈ hoursEnabled, 100 ≤ policy.priority → policy.effect ≠ .deny := by decide
  rw [abacAuthorize_eq_none_iff present]
  constructor
  · rintro ⟨policy, decides, allows⟩
    have decisive := decisive_of_decidingPolicy perm decides
    have high := decisive.highest _ (by simp [hoursEnabled]) (applies_businessHours empty _)
    exact only policy decisive.member high allows ▸ decisive.applies
  · intro applies
    cases decides : decidingPolicy parseFloat (buildEvaluationContext now authCtx) visited with
    | none => exact absurd applies ((decidingPolicy_eq_none_iff perm).mp decides _ (by simp [hoursEnabled]))
    | some first =>
      have decisive := decisive_of_decidingPolicy perm decides
      have high := decisive.highest _ (by simp [hoursEnabled]) applies
      exact ⟨first, rfl, highest first decisive.member high⟩

/-- A rule with an ordering operator does not hold for an attribute without a value, exactly if the empty text is not in
that order. Enabling business hours leaves a decision unchanged, at whatever time and in every order, exactly if the
request has no principal, is by an administrator or is not granted anyway. -/
theorem business_hours_iff (empty : parseFloat "" = none) :
    (∀ evalCtx rule, rule.operator ∈ [.greaterThan, .lessThan, .greaterEqual, .lessEqual] →
      resolve evalCtx rule.attr = none → (evaluateRule parseFloat evalCtx rule = false ↔
        rule.operator = .greaterThan ∨ (rule.operator = .lessThan ∧ rule.value = "") ∨
          (rule.operator = .greaterEqual ∧ rule.value ≠ ""))) ∧
    ∀ now authCtx visited visited', visited.Perm initializeDefaults → visited'.Perm hoursEnabled →
      ((abacAuthorize parseFloat now visited authCtx = none ↔ abacAuthorize parseFloat now visited' authCtx = none) ↔
        authCtx.principal = none ∨ Applies parseFloat (buildEvaluationContext now authCtx) adminFullAccess ∨
          ¬ ∃ policy ∈ initializeDefaults, Applies parseFloat (buildEvaluationContext now authCtx) policy) := by
  constructor
  · intro evalCtx rule ordering unresolved
    rw [← Bool.not_eq_true, evaluateRule_unresolved_iff empty ordering unresolved]
    simp only [List.mem_cons, List.not_mem_nil, or_false] at ordering
    rcases ordering with operator | operator | operator | operator <;> simp [operator]
  · intro now authCtx visited visited' perm perm'
    cases present : authCtx.principal with
    | none => exact iff_of_true (by rw [abacAuthorize, abacAuthorize, present]) (.inl rfl)
    | some principal =>
      have admin : Applies parseFloat (buildEvaluationContext now authCtx) adminFullAccess →
          ∃ policy ∈ initializeDefaults, Applies parseFloat (buildEvaluationContext now authCtx) policy :=
        fun applies => ⟨_, List.mem_cons_self, applies⟩
      rw [granted_defaults_iff present perm, granted_hoursEnabled_iff empty present perm']
      simp only [reduceCtorEq, false_or]
      constructor
      · intro same
        by_cases granted : ∃ policy ∈ initializeDefaults, Applies parseFloat (buildEvaluationContext now authCtx) policy
        · exact .inl (same.mp granted)
        · exact .inr granted
      · rintro (applies | denied)
        · exact ⟨fun _ => applies, admin⟩
        · exact iff_of_false denied (denied ∘ admin)

theorem business_hours_noon : resolve (buildEvaluationContext midday anyRequest) "time.hour" = none ∧
      evaluateRule noFloats (buildEvaluationContext midday anyRequest)
        { attr := "time.hour", operator := .lessThan, value := "9" } = true ∧
      abacAuthorize noFloats midday initializeDefaults ⟨some { id := "a", roles := ["user"] }, "pin", "pin:add", ∅⟩ = none ∧
      abacAuthorize noFloats midday hoursEnabled ⟨some { id := "a", roles := ["user"] }, "pin", "pin:add", ∅⟩ =
        some "access denied by policy: Business Hours Only" := by
  refine ⟨resolve_hour _, ?_, ?_, ?_⟩ <;> decide +kernel

theorem business_hours_iff_admin :
    abacAuthorize noFloats midday initializeDefaults ⟨some { id := "a", roles := ["admin"] }, "pin", "pin:add", ∅⟩ = none ↔
      abacAuthorize noFloats midday hoursEnabled ⟨some { id := "a", roles := ["admin"] }, "pin", "pin:add", ∅⟩ = none := by
  have admin : Applies noFloats (buildEvaluationContext midday ⟨some { id := "a", roles := ["admin"] }, "pin", "pin:add", ∅⟩)
      adminFullAccess := (applies_adminFullAccess_iff rfl).mpr (by decide +kernel)
  exact ((business_hours_iff rfl).2 midday _ _ _ (.refl _) (.refl _)).mpr (.inr (.inl admin))

end

end IpfsCluster.Soundness
