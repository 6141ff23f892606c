import IpfsCluster.Soundness.Roles
import IpfsCluster.ToMathlib.SwitchedCount

/-! # Composite authorizers

The order of the authorizers should not matter for a decision, but a wrapper for tenants leaves the tenant in the
request for the authorizers after it. No permission should get lost, but permissions are compared by a text that leaves
out their contexts and is the same for different lists of actions.
-/

namespace IpfsCluster.Soundness

open Golang Model.Auth MultiTenantAuthorizer Proofs.Auth ToMathlib List AList

section

/-- An authorizer for roles, or one wrapped for tenants. -/
inductive Engine where
  | rbac (r : RBACAuthorizer)
  | multiTenant (m : MultiTenantAuthorizer)

namespace Engine

def authorizer (order : MapOrder) : Engine → Authorizer
  | rbac r => r.authorizer order
  | multiTenant m => m.authorizer order

def isolates : Engine → Bool
  | rbac _ => false
  | multiTenant m => m.tenantIsolation

/-- The engine grants the request, asked alone. -/
def grants (authCtx : AuthContext) (engine : Engine) : Bool := ((engine.authorizer .stored).authorize authCtx).1.isNone

end Engine

def ofTenant (authCtx : AuthContext) : AuthContext :=
  match authCtx.principal with
  | none => authCtx
  | some principal => inTenant principal authCtx

def requestAt (authCtx : AuthContext) (tagged : Bool) : AuthContext := if tagged then ofTenant authCtx else authCtx

/-- An engine grants the request as it is then. -/
def grantsAt (authCtx : AuthContext) (tagged : Bool) (engine : Engine) : Bool :=
  engine.grants (requestAt authCtx tagged)

/-- A composite of engines, each with its own order of visiting maps, grants a request. -/
def Grants (strategy : CompositeStrategy) (asked : List (MapOrder × Engine)) (authCtx : AuthContext) : Prop :=
  (CompositeAuthorizer.authorize ⟨asked.map fun call => call.2.authorizer call.1, strategy⟩ authCtx).1 = none

/-- So many grants of so many engines are enough; those of no engine never are. -/
def Enough (strategy : CompositeStrategy) (total granted : ℕ) : Prop :=
  total ≠ 0 ∧ match strategy with
    | .firstAllow => 0 < granted
    | .allAllow => total ≤ granted
    | .majority => total < 2 * granted
    | .other _ => False

theorem Enough.mono (strategy : CompositeStrategy) (total : ℕ) {granted more : ℕ} (le : granted ≤ more) :
    Enough strategy total granted → Enough strategy total more := by
  refine And.imp_right fun enough => ?_
  cases strategy with
  | firstAllow => exact Nat.lt_of_lt_of_le enough le
  | allAllow => exact Nat.le_trans enough le
  | majority => exact Nat.lt_of_lt_of_le enough (Nat.mul_le_mul_left 2 le)
  | other name => exact enough

variable {authCtx : AuthContext} {asked : List (MapOrder × Engine)} {tagged : Bool}

theorem leaves_requestAt (m : MultiTenantAuthorizer) :
    m.leaves (requestAt authCtx tagged) = requestAt authCtx (tagged || m.tenantIsolation) := by
  unfold leaves requestAt ofTenant
  cases present : authCtx.principal with
  | none => cases tagged <;> cases m.tenantIsolation <;> simp [present]
  | some principal => cases tagged <;> cases m.tenantIsolation <;> simp [present, inTenant, insert_insert]

theorem exists_answer (authCtx : AuthContext) (tagged : Bool) (call : MapOrder × Engine) :
    ∃ answer, (call.2.authorizer call.1).authorize (requestAt authCtx tagged) =
        (answer, requestAt authCtx (tagged || call.2.isolates)) ∧ grantsAt authCtx tagged call.2 = answer.isNone := by
  obtain ⟨order, engine⟩ := call
  cases engine with
  | rbac r =>
    refine ⟨_, Prod.ext rfl ((Bool.or_false tagged).symm ▸ rfl), congrArg Option.isNone ?_⟩
    cases present : (requestAt authCtx tagged).principal with
    | none => simp only [Engine.authorizer, RBACAuthorizer.authorizer, RBACAuthorizer.authorize, present]
    | some principal => exact authorize_congr present present rfl rfl Iff.rfl
  | multiTenant m =>
    exact ⟨_, Prod.ext rfl (leaves_requestAt m), congrArg Option.isNone (SameStore.authorize rfl (.refl _))⟩

/-- The number of engines that grant a request when they are asked in this order. -/
def granted (authCtx : AuthContext) (tagged : Bool) (engines : List Engine) : ℕ :=
  held Engine.isolates (grantsAt authCtx) tagged engines

theorem granted_cons (engine : Engine) (rest : List Engine) : granted authCtx tagged (engine :: rest) =
      (grantsAt authCtx tagged engine).toNat + granted authCtx (tagged || engine.isolates) rest := rfl

theorem authorizeFirstAllow_iff (authCtx : AuthContext) (tagged : Bool) (lastErr : String) :
    (authorizeFirstAllow lastErr (asked.map fun call => call.2.authorizer call.1) (requestAt authCtx tagged)).1 = none ↔
      0 < granted authCtx tagged (asked.map Prod.snd) := by
  induction asked generalizing lastErr tagged with
  | nil => exact iff_of_false nofun (Nat.lt_irrefl 0)
  | cons call rest ih =>
    obtain ⟨answer, answers, grants⟩ := exists_answer authCtx tagged call
    rw [map_cons, map_cons, authorizeFirstAllow, answers, granted_cons, grants]
    cases answer with
    | none => exact iff_of_true rfl (Nat.lt_of_lt_of_le Nat.zero_lt_one (Nat.le_add_right ..))
    | some err => rw [ih, Option.isNone_some, Bool.toNat_false, zero_add]

theorem authorizeAllAllow_iff (authCtx : AuthContext) (tagged : Bool) :
    (authorizeAllAllow (asked.map fun call => call.2.authorizer call.1) (requestAt authCtx tagged)).1 = none ↔
      asked.length ≤ granted authCtx tagged (asked.map Prod.snd) := by
  induction asked generalizing tagged with
  | nil => exact iff_of_true rfl le_rfl
  | cons call rest ih =>
    obtain ⟨answer, answers, grants⟩ := exists_answer authCtx tagged call
    have most : granted authCtx (tagged || call.2.isolates) (rest.map Prod.snd) ≤ rest.length :=
      (held_bounds _ _).2.trans (countP_le_length.trans_eq (length_map _))
    rw [map_cons, map_cons, authorizeAllAllow, answers, granted_cons, grants]
    cases answer with
    | none =>
      rw [ih, Option.isNone_none, Bool.toNat_true, length_cons]
      omega
    | some err =>
      refine iff_of_false nofun ?_
      rw [Option.isNone_some, Bool.toNat_false, length_cons]
      omega

theorem authorizeMajority_iff (authCtx : AuthContext) (tagged : Bool) (allowCount denyCount : ℕ) :
    (authorizeMajority allowCount denyCount (asked.map fun call => call.2.authorizer call.1)
      (requestAt authCtx tagged)).1 = none ↔
      denyCount + asked.length < allowCount + 2 * granted authCtx tagged (asked.map Prod.snd) := by
  induction asked generalizing allowCount denyCount tagged with
  | nil =>
    rw [map_nil, authorizeMajority]
    split
    next more => exact iff_of_true rfl more
    next notMore => exact iff_of_false nofun notMore
  | cons call rest ih =>
    obtain ⟨answer, answers, grants⟩ := exists_answer authCtx tagged call
    rw [map_cons, map_cons, authorizeMajority, answers, granted_cons, grants, length_cons]
    cases answer with
    | none =>
      rw [ih, Option.isNone_none, Bool.toNat_true]
      omega
    | some err =>
      rw [ih, Option.isNone_some, Bool.toNat_false]
      omega

/-- All that matters about an order is how many engines grant the request in it. -/
theorem grants_iff (strategy : CompositeStrategy) (asked : List (MapOrder × Engine)) (authCtx : AuthContext) :
    Grants strategy asked authCtx ↔ Enough strategy asked.length (granted authCtx false (asked.map Prod.snd)) := by
  cases asked with
  | nil => exact iff_of_false nofun fun enough => enough.1 rfl
  | cons call rest =>
    unfold Grants CompositeAuthorizer.authorize Enough
    have some_asked : (call :: rest).length ≠ 0 := Nat.succ_ne_zero _
    rw [if_neg nofun, and_iff_right some_asked]
    cases strategy with
    | firstAllow => exact authorizeFirstAllow_iff authCtx false ""
    | allAllow => exact authorizeAllAllow_iff authCtx false
    | majority => exact (authorizeMajority_iff authCtx false 0 0).trans (by rw [zero_add, zero_add])
    | other name => exact iff_of_false nofun id

theorem grantsAt_of_isolates (authCtx : AuthContext) (engine : Engine) (isolates : engine.isolates = true) :
    grantsAt authCtx false engine = grantsAt authCtx true engine := by
  cases engine with
  | rbac r => cases isolates
  | multiTenant m =>
    change m.tenantIsolation = true at isolates
    unfold grantsAt Engine.grants Engine.authorizer authorizer authorize
      requestAt ofTenant
    cases present : authCtx.principal <;> simp [present, isolates, inTenant, insert_insert]

/-- The decision of a composite is the same for every order of its engines and of their maps exactly if no engine
isolates tenants, or the engines that grant the request both as it is and with the tenant of its principal are enough
whenever those are that grant it in one of these ways. -/
theorem composite_order_iff (strategy : CompositeStrategy) (engines : List Engine) (authCtx : AuthContext) :
    (∀ asked asked' : List (MapOrder × Engine), (asked.map Prod.snd).Perm engines → (asked'.map Prod.snd).Perm engines →
      (Grants strategy asked authCtx ↔ Grants strategy asked' authCtx)) ↔
    ((∃ engine ∈ engines, engine.isolates = true) → Enough strategy engines.length
        (engines.countP fun engine => engine.grants authCtx || engine.grants (ofTenant authCtx)) →
      Enough strategy engines.length
        (engines.countP fun engine => engine.grants authCtx && engine.grants (ofTenant authCtx))) := by
  refine Iff.trans ⟨fun same order order' perm perm' enough => ?_, fun same asked asked' perm perm' => ?_⟩
    (forall_perm_held_iff (Enough.mono strategy engines.length) (grantsAt_of_isolates authCtx))
  · have engines_asked (order : List Engine) : (order.map (MapOrder.stored, ·)).map Prod.snd = order := by
      rw [map_map]
      exact map_id _
    have agree := same (order.map (MapOrder.stored, ·)) (order'.map (MapOrder.stored, ·))
    rw [grants_iff, grants_iff, engines_asked, engines_asked, length_map, length_map, perm.length_eq,
      perm'.length_eq] at agree
    exact (agree perm perm').mp enough
  · have total {asked : List (MapOrder × Engine)} (perm : (asked.map Prod.snd).Perm engines) :
        asked.length = engines.length := (length_map _).symm.trans perm.length_eq
    rw [grants_iff, grants_iff, total perm, total perm']
    exact ⟨same _ _ perm perm', same _ _ perm' perm⟩

theorem composite_order_tenant : let request : AuthContext := ⟨some (memberOf "t"), "pin", "pin:add", ∅⟩
    let ofT : MapOrder × Engine := (.stored, .rbac (oneConstraint "tenant_id" "t"))
    let wrapper (r : RBACAuthorizer) : MapOrder × Engine := (.stored, .multiTenant ⟨r, true⟩)
    (¬ Grants .firstAllow [ofT, wrapper (oneConstraint "env" "prod")] request ∧
      Grants .firstAllow [wrapper (oneConstraint "env" "prod"), ofT] request) ∧
    ∀ strategy ∈ [CompositeStrategy.allAllow, .majority],
      ¬ Grants strategy [ofT, wrapper (oneConstraint "tenant_id" "t")] request ∧
        Grants strategy [wrapper (oneConstraint "tenant_id" "t"), ofT] request := by
  unfold Grants
  decide +kernel

end

section

/-- The permissions that the authorizers return, each after those before it; some fail. -/
def returned (principal : Principal) : List Authorizer → Heap Attributes → List Permission
  | [], _ => []
  | authorizer :: rest, contexts =>
    match authorizer.getPermissions principal contexts with
    | (.error _, after) => returned principal rest after
    | (.ok permissions, after) => permissions ++ returned principal rest after

/-- Equal resources, actions and entries of the contexts. -/
structure SamePermission (contexts : Heap Attributes) (perm other : Permission) : Prop where
  resource : perm.resource = other.resource
  actions : perm.actions = other.actions
  context : SameEntries ((perm.context.map contexts.records).getD ∅) ((other.context.map contexts.records).getD ∅)

namespace SamePermission

variable {contexts : Heap Attributes} {perm other third : Permission}

theorem symm (same : SamePermission contexts perm other) : SamePermission contexts other perm :=
  ⟨same.resource.symm, same.actions.symm, fun key => (same.context key).symm⟩

theorem trans (first : SamePermission contexts perm other) (second : SamePermission contexts other third) :
    SamePermission contexts perm third :=
  ⟨first.resource.trans second.resource, first.actions.trans second.actions,
    fun key => (first.context key).trans (second.context key)⟩

theorem permissionKey (same : SamePermission contexts perm other) :
    Model.Auth.permissionKey perm = Model.Auth.permissionKey other := by
  rw [Model.Auth.permissionKey, Model.Auth.permissionKey, same.resource, same.actions]

end SamePermission

/-- What is kept of the given permissions, with the keys that have been seen: one for each key. -/
structure KeepsEachKey (given : List Permission) (state : List Permission × List String) : Prop where
  given_of_mem : ∀ kept ∈ state.1, kept ∈ given
  seen : ∀ perm ∈ given, permissionKey perm ∈ state.2
  kept_of_seen : ∀ key ∈ state.2, ∃ kept ∈ state.1, permissionKey kept = key
  unique : ∀ kept ∈ state.1, ∀ other ∈ state.1, permissionKey kept = permissionKey other → kept = other

variable {given : List Permission} {state : List Permission × List String}

theorem KeepsEachKey.addIfNew (keeps : KeepsEachKey given state) (perm : Permission) :
    KeepsEachKey (given ++ [perm]) (addIfNew state perm) := by
  unfold Model.Auth.addIfNew
  split
  next old =>
    exact { keeps with
      given_of_mem := fun kept member => mem_append_left _ (keeps.given_of_mem kept member)
      seen := forall_mem_append.mpr ⟨keeps.seen, forall_mem_singleton.mpr old⟩ }
  next new =>
    have apart {kept : Permission} (member : kept ∈ state.1) : permissionKey kept ≠ permissionKey perm := fun same =>
      new (same ▸ keeps.seen kept (keeps.given_of_mem kept member))
    refine ⟨forall_mem_append.mpr ⟨?_, ?_⟩, forall_mem_append.mpr ⟨?_, ?_⟩, forall_mem_cons.mpr ⟨?_, ?_⟩, ?_⟩
    · exact fun kept member => mem_append_left _ (keeps.given_of_mem kept member)
    · exact fun kept member => mem_append_right _ member
    · exact fun other member => mem_cons_of_mem _ (keeps.seen other member)
    · exact forall_mem_singleton.mpr mem_cons_self
    · exact ⟨perm, mem_append_right _ mem_cons_self, rfl⟩
    · intro key isOld
      obtain ⟨kept, member, same⟩ := keeps.kept_of_seen key isOld
      exact ⟨kept, mem_append_left _ member, same⟩
    · simp only [forall_mem_append, forall_mem_singleton]
      exact ⟨fun kept member => ⟨keeps.unique kept member, fun same => (apart member same).elim⟩,
        fun kept member same => (apart member same.symm).elim, fun _ => trivial⟩

theorem KeepsEachKey.foldl (keeps : KeepsEachKey given state) (permissions : List Permission) :
    KeepsEachKey (given ++ permissions) (permissions.foldl Model.Auth.addIfNew state) := by
  induction permissions generalizing given state with
  | nil => rwa [append_nil]
  | cons perm rest ih =>
    rw [append_cons]
    exact ih (keeps.addIfNew perm)

theorem fst_gatherPermissions (principal : Principal) (authorizers : List Authorizer) (contexts : Heap Attributes) :
    (gatherPermissions principal authorizers state contexts).1 =
      ((returned principal authorizers contexts).foldl addIfNew state).1 := by
  induction authorizers generalizing state contexts with
  | nil => rfl
  | cons authorizer rest ih =>
    rw [gatherPermissions, returned]
    obtain ⟨_ | permissions, after⟩ := authorizer.getPermissions principal contexts
    · exact ih after
    · exact (ih after).trans (by rw [foldl_append])

/-- All permissions that authorizers return without failing are among those of the composite, up to equality of
resource, actions and context, exactly if any two of them that have the same key are equal in this sense. -/
theorem permissions_kept_iff (c : CompositeAuthorizer) (principal : Principal) (contexts : Heap Attributes) :
    (∀ perm ∈ returned principal c.authorizers contexts, ∃ kept ∈ (c.getPermissions principal contexts).1,
      SamePermission (c.getPermissions principal contexts).2 kept perm) ↔
    ∀ perm ∈ returned principal c.authorizers contexts, ∀ other ∈ returned principal c.authorizers contexts,
      permissionKey perm = permissionKey other → SamePermission (c.getPermissions principal contexts).2 perm other := by
  have none_given : KeepsEachKey [] ([], []) := ⟨nofun, nofun, nofun, nofun⟩
  have keeps := none_given.foldl (returned principal c.authorizers contexts)
  rw [nil_append] at keeps
  have gathered : (c.getPermissions principal contexts).1 = _ := fst_gatherPermissions principal c.authorizers contexts
  rw [gathered]
  constructor
  · intro present perm member other member' sameKey
    obtain ⟨kept, isKept, same⟩ := present perm member
    obtain ⟨kept', isKept', same'⟩ := present other member'
    have keptKey := same.permissionKey.trans (sameKey.trans same'.permissionKey.symm)
    obtain rfl := keeps.unique kept isKept kept' isKept' keptKey
    exact same.symm.trans same'
  · intro injective perm member
    obtain ⟨kept, isKept, sameKey⟩ := keeps.kept_of_seen _ (keeps.seen perm member)
    exact ⟨kept, isKept, injective kept (keeps.given_of_mem kept isKept) perm member sameKey⟩

def bothTenants : RBACAuthorizer where
  roles := insert "member" { name := "member", permissions := ["ofU", "ofT"] } ∅
  permissions := insert "ofT" { resource := "pin", actions := ["*"], context := some 0 }
    (insert "ofU" { resource := "pin", actions := ["*"], context := some 1 } ∅)
  contexts := { records := fun address => insert "tenant_id" (if address = 0 then "t" else "u") ∅, next := 2 }
  allocated permID perm address found refers := by
    rcases lookup_insert_eq_some found with ⟨-, rfl⟩ | ⟨-, found⟩
    · cases refers
      decide
    rcases lookup_insert_eq_some found with ⟨-, rfl⟩ | ⟨-, absent⟩
    · cases refers
      decide
    · cases absent

theorem permissions_kept_tenants : let c : CompositeAuthorizer := ⟨[bothTenants.authorizer .stored], .firstAllow⟩
    returned (memberOf "t") c.authorizers bothTenants.contexts = [⟨"pin", ["*"], some 0⟩, ⟨"pin", ["*"], some 1⟩] ∧
      (c.getPermissions (memberOf "t") bothTenants.contexts).1 = [⟨"pin", ["*"], some 0⟩] ∧
      ¬ SamePermission bothTenants.contexts ⟨"pin", ["*"], some 0⟩ ⟨"pin", ["*"], some 1⟩ := by
  refine ⟨by decide +kernel, by decide +kernel, fun same => ?_⟩
  exact absurd (same.context "tenant_id") (by decide +kernel)

end

end IpfsCluster.Soundness
