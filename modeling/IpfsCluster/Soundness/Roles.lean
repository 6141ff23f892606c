import IpfsCluster.Proofs.Auth.Rbac

/-! # Permissions through roles, and isolation of tenants

A principal has one copy of each permission that exists and is listed by a role below one of its own. The wrapper
decides about a request in the tenant of its principal. Asking for permissions changes later decisions, as the maps that
it tags are those of the store.
-/

namespace IpfsCluster.Soundness

open Golang Model.Auth Proofs.Auth Machine MultiTenantAuthorizer RBACAuthorizer AList

/-- The calls of the recursion that return, without a bound on their depth: roles are collected one after the other, and
the marks of the visited ones are shared. -/
inductive Collects (r : RBACAuthorizer) :
    List String → PermissionSet × List String → PermissionSet × List String → Prop where
  | done (state : PermissionSet × List String) : Collects r [] state state
  | visited {roleName rest visited set last} (seen : roleName ∈ visited) (later : Collects r rest (set, visited) last) :
      Collects r (roleName :: rest) (set, visited) last
  | missing {roleName rest visited set last} (unseen : roleName ∉ visited) (absent : r.roles.lookup roleName = none)
      (later : Collects r rest (set, roleName :: visited) last) : Collects r (roleName :: rest) (set, visited) last
  | enter {roleName rest visited set role mid last} (unseen : roleName ∉ visited)
      (found : r.roles.lookup roleName = some role)
      (below : Collects r role.inherits (r.addPermissions role set, roleName :: visited) mid)
      (later : Collects r rest mid last) : Collects r (roleName :: rest) (set, visited) last

theorem collects_foldl {r : RBACAuthorizer} (fuel : ℕ) (names : List String) (state : PermissionSet × List String)
    (enough : (unvisited r.roles.keys state.2).length < fuel) :
    Collects r names state (names.foldl (fun state name => r.collectRolePermissions fuel name state) state) := by
  induction fuel generalizing names state with
  | zero => exact (Nat.not_lt_zero _ enough).elim
  | succ fuel ih =>
    induction names generalizing state with
    | nil => exact .done state
    | cons name rest ihRest =>
      obtain ⟨set, visited⟩ := state
      have grows : visited ⊆ (r.collectRolePermissions (fuel + 1) name (set, visited)).2 := by
        rw [collectRolePermissions_eq_depthFirst]
        exact (enters_depthFirst _ _ (fuel + 1) name (set, visited)).subset
      have later := ihRest _ (Nat.lt_of_le_of_lt (length_unvisited_le _ grows) enough)
      rw [List.foldl_cons]
      by_cases seen : name ∈ visited
      · have same : r.collectRolePermissions (fuel + 1) name (set, visited) = (set, visited) := if_pos seen
        rw [same] at later ⊢
        exact .visited seen later
      · cases found : r.roles.lookup name with
        | none =>
          have marked : r.collectRolePermissions (fuel + 1) name (set, visited) = (set, name :: visited) := by
            rw [collectRolePermissions, if_neg seen, found]
          rw [marked] at later ⊢
          exact .missing seen found later
        | some role =>
          have entered : r.collectRolePermissions (fuel + 1) name (set, visited) =
              role.inherits.foldl (fun state name => r.collectRolePermissions fuel name state)
                (r.addPermissions role set, name :: visited) := by
            rw [collectRolePermissions, if_neg seen, found]
          rw [entered] at later ⊢
          have isRole : name ∈ r.roles.keys := lookup_isSome.mp (by rw [found]; rfl)
          have fewer := length_unvisited_cons_lt isRole seen
          exact .enter seen found (ih role.inherits _ (by dsimp only at enough ⊢; omega)) later

theorem authorize_eq_none_iff {r : RBACAuthorizer} {order : MapOrder} {authCtx : AuthContext} {principal : Principal}
    (present : authCtx.principal = some principal) :
    r.authorize order authCtx = none ↔ r.allows order principal authCtx = true := by
  rw [RBACAuthorizer.authorize, present]
  dsimp only
  split
  next allowed => exact iff_of_true rfl allowed
  next denied => exact iff_of_false (Option.some_ne_none _) denied

/-- For all roles, permissions and principals, and in every order of the map: the recursion returns; there is one
permission for each identifier that the roles give; a request is granted exactly if one of them matches it; and it is
still granted if the principal has more roles. -/
theorem roles_give_permissions (r : RBACAuthorizer) (principal : Principal) (order : MapOrder) :
    (∀ roleName set, Collects r [roleName] (set, [])
      (r.collectRolePermissions (r.roles.entries.length + 1) roleName (set, []))) ∧
    (∃ ids : List String, ids.Nodup ∧ (∀ permID, permID ∈ ids ↔ ∃ perm, HasPermission r principal permID perm) ∧
      (r.getPermissions order principal).map some = ids.map fun permID => r.permissions.lookup permID) ∧
    ∀ resource action context, (r.authorize order ⟨some principal, resource, action, context⟩ = none ↔
        ∃ perm ∈ r.getPermissions order principal, r.permissionMatches perm resource action context = true) ∧
      ∀ order' roles, principal.roles ⊆ roles → r.authorize order ⟨some principal, resource, action, context⟩ = none →
        r.authorize order' ⟨some { principal with roles := roles }, resource, action, context⟩ = none := by
  refine ⟨fun roleName set => ?_, ?_, fun resource action context => ⟨?_, fun order' roles more granted => ?_⟩⟩
  · refine collects_foldl _ [roleName] (set, []) (Nat.lt_succ_of_le ?_)
    exact (List.length_filter_le _ _).trans_eq (List.length_map _)
  · have entries := order.visit_perm [] (r.permissionSet principal).entries
    refine ⟨(order.visit [] (r.permissionSet principal).entries).map Sigma.fst,
      (entries.map Sigma.fst).nodup_iff.mpr (r.permissionSet principal).nodupKeys, fun permID => ?_, ?_⟩
    · simp only [(entries.map Sigma.fst).mem_iff, ← lookup_permissionSet_iff]
      exact lookup_isSome.symm.trans Option.isSome_iff_exists
    · rw [RBACAuthorizer.getPermissions, List.map_map, List.map_map]
      refine List.map_congr_left fun entry visited => ?_
      rw [MapOrder.mem_visit, mem_entries_iff, lookup_permissionSet_iff] at visited
      exact visited.2.symm
  · rw [authorize_eq_none_iff rfl, allows, List.any_eq_true]
  · rw [authorize_eq_none_iff rfl, allows_iff] at granted ⊢
    obtain ⟨permID, perm, ⟨⟨start, role, below⟩, stored⟩, matching⟩ := granted
    exact ⟨permID, perm, ⟨⟨start, more role, below⟩, stored⟩, matching⟩

def inCircles : RBACAuthorizer where
  roles := ((∅ : AList fun _ : String => Role).insert "a" ⟨"a", [], ["b"]⟩).insert "b" ⟨"b", ["pins", "none"], ["a", "c"]⟩
  permissions := (∅ : PermissionSet).insert "pins" ⟨"pin", ["*"], none⟩
  contexts := ⟨fun _ => ∅, 0⟩
  allocated permID perm address found refers := by
    rcases lookup_insert_eq_some found with ⟨-, rfl⟩ | ⟨-, absent⟩
    · cases refers
    · cases absent

theorem roles_give_permissions_inCircles :
    inCircles.getPermissions .stored { id := "u", roles := ["a"] } = [⟨"pin", ["*"], none⟩] ∧
      inCircles.authorize .stored ⟨some { id := "u", roles := ["x", "a"] }, "pin", "pin:add", ∅⟩ = none := by
  have sound := roles_give_permissions inCircles { id := "u", roles := ["a"] } .stored
  exact ⟨by decide +kernel, (sound.2.2 "pin" "pin:add" ∅).2 .stored ["x", "a"] (by simp) (by decide +kernel)⟩

section

variable (r : RBACAuthorizer) (principal : Principal) (resource action : String) (context : Attributes)

def isolated (order : MapOrder) : Option String :=
  MultiTenantAuthorizer.authorize ⟨r, true⟩ order ⟨some principal, resource, action, context⟩

/-- With tenant isolation over any roles and permissions, and in every order of visiting maps: the decision does not
depend on the tenant that the caller names in the context; a permission pinned to another tenant matches nothing and may
as well be removed; and a resource of another tenant is denied to all but administrators. -/
theorem tenant_isolation_sound :
    (∀ order order' context', (∀ key, key ≠ "tenant_id" → context.lookup key = context'.lookup key) →
      isolated r principal resource action context order = isolated r principal resource action context' order') ∧
    (∀ order order' permID perm tenant, r.permissions.lookup permID = some perm →
      (r.contextOf perm).lookup "tenant_id" = some tenant → tenant ≠ "*" → tenant ≠ principal.tenantID →
        r.permissionMatches perm resource action (context.insert "tenant_id" principal.tenantID) = false ∧
          isolated r principal resource action context order =
            isolated (r.removePermission permID) principal resource action context order') ∧
    ∀ order resourceTenant, "admin" ∉ principal.roles → "system" ∉ principal.roles →
      context.lookup "resource_tenant" = some resourceTenant → resourceTenant ≠ principal.tenantID →
        isolated r principal resource action context order =
          some "access denied: resource belongs to different tenant" := by
  refine ⟨fun order order' context' agree => ?_, fun order order' permID perm tenant found pinned noWildcard different => ?_,
    fun order resourceTenant noAdmin noSystem found different => ?_⟩
  · have same := sameEntries_inTenant agree principal.tenantID
    have store := SameStore.refl r
    refine isolated_authorize_congr rfl rfl rfl rfl rfl rfl ?_ ?_
    · rw [isForeign, isForeign, inTenant, inTenant, same]
    exact ⟨store.granted rfl rfl same, store.granted rfl rfl fun key => (same key).symm⟩
  · have never := permissionMatches_inTenant_of_pinned pinned noWildcard different ⟨some principal, resource, action, context⟩
    refine ⟨never, isolated_authorize_congr rfl rfl rfl rfl rfl rfl rfl ?_⟩
    constructor
    · rintro ⟨grantID, grant, held, grants⟩
      have apart : grantID ≠ permID := by
        rintro rfl
        obtain rfl : grant = perm := Option.mem_unique held.2 found
        exact Bool.false_ne_true (never.symm.trans grants)
      exact ⟨grantID, grant, hasPermission_removePermission_iff.mpr ⟨apart, held⟩, grants⟩
    · rintro ⟨grantID, grant, held, grants⟩
      exact ⟨grantID, grant, (hasPermission_removePermission_iff.mp held).2, grants⟩
  · have foreign : isForeign principal (inTenant principal ⟨some principal, resource, action, context⟩) = true := by
      rw [isForeign, inTenant, lookup_insert_ne (by decide), found, hasAdminRole_eq_false_iff.mpr ⟨noAdmin, noSystem⟩]
      simpa using different
    rw [isolated, authorize_of_isolated rfl rfl, if_pos foreign]

def oneConstraint (key value : String) : RBACAuthorizer where
  roles := insert "member" { name := "member", permissions := ["pins"] } ∅
  permissions := insert "pins" { resource := "pin", actions := ["*"], context := some 0 } ∅
  contexts := { records := fun _ => insert key value ∅, next := 1 }
  allocated permID perm address found refers := by
    rcases lookup_insert_eq_some found with ⟨-, rfl⟩ | ⟨-, absent⟩
    · cases refers
      exact Nat.zero_lt_one
    · cases absent

def memberOf (tenantID : String) : Principal := { id := "a", tenantID := tenantID, roles := ["member"] }

theorem tenant_isolation_sound_pinned :
    isolated (oneConstraint "tenant_id" "t") (memberOf "t") "pin" "pin:add" ∅ .stored = none ∧
      isolated (oneConstraint "tenant_id" "t") (memberOf "u") "pin" "pin:add" ∅ .stored =
        isolated ((oneConstraint "tenant_id" "t").removePermission "pins") (memberOf "u") "pin" "pin:add" ∅ .stored := by
  refine ⟨by decide +kernel, ?_⟩
  have sound := tenant_isolation_sound (oneConstraint "tenant_id" "t") (memberOf "u") "pin" "pin:add" ∅
  exact (sound.2.1 .stored .stored "pins" _ "t" rfl rfl (by decide) (by decide)).2

end

/-- Authorizations keep their outcomes when the queries for permissions between them are removed, if each query finds
the maps of the permissions that it returns tagged with the tenant of its caller, or isolation is off. -/
theorem queries_removable (m : MultiTenantAuthorizer) {calls remaining : List (MapOrder × AuthCall)}
    (harmless : authCalls.Meets HarmlessCall m calls)
    (removed : remaining.map Prod.snd = (calls.map Prod.snd).filter AuthCall.isAuthorize) :
    outcomes m remaining = outcomes m calls := outcomes_of_sameStore rfl (.refl _) harmless removed

def inProduction (principal : Principal) : AuthContext :=
  ⟨some principal, "pin", "pin:add", insert "env" "prod" ∅⟩

theorem query_changes_decision :
    outcomes ⟨oneConstraint "env" "prod", true⟩ [(.stored, .authorize (inProduction (memberOf "u")))] = [none] ∧
      outcomes ⟨oneConstraint "env" "prod", true⟩ [(.stored, .getPermissions (memberOf "t")),
          (.stored, .authorize (inProduction (memberOf "u")))] =
        [some "access denied: insufficient permissions for action pin:add on resource pin"] := by
  decide +kernel

theorem queries_removable_tagged :
    outcomes ⟨oneConstraint "tenant_id" "t", true⟩ [(.stored, .authorize (inProduction (memberOf "t")))] = [none] ∧
      outcomes ⟨oneConstraint "tenant_id" "t", true⟩ [(.stored, .authorize (inProduction (memberOf "t")))] =
        outcomes ⟨oneConstraint "tenant_id" "t", true⟩ [(.stored, .getPermissions (memberOf "t")),
          (.stored, .authorize (inProduction (memberOf "t")))] := by
  refine ⟨by decide +kernel, queries_removable _ ⟨?_, fun next _ => ⟨trivial, fun _ _ => trivial⟩⟩ rfl⟩
  intro _ permID perm address _ _
  rfl

end IpfsCluster.Soundness
