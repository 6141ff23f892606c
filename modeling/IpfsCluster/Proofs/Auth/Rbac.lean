import IpfsCluster.Golang.DepthFirst
import IpfsCluster.Model.Auth.Rbac

/-! # What roles give, and what tagging changes

The recursion over inherited roles is a depth-first search, so a principal has the permissions of all roles below its
own. Constraints are only looked up, so decisions depend on the lookups of contexts alone.
-/

namespace IpfsCluster.Proofs.Auth

open Golang Model.Auth Machine RBACAuthorizer AList

variable {r : RBACAuthorizer} {principal : Principal} {perm : Permission} {permID : String}

section

def inherited (r : RBACAuthorizer) (roleName : String) : List String :=
  ((r.roles.lookup roleName).map Role.inherits).getD []

def ListsPermission (r : RBACAuthorizer) (roleName permID : String) : Prop :=
  ∃ role, r.roles.lookup roleName = some role ∧ permID ∈ role.permissions

/-- A permission of the store is listed by a role of the principal or by one that it inherits from. -/
def HasPermission (r : RBACAuthorizer) (principal : Principal) (permID : String) (perm : Permission) : Prop :=
  (∃ start ∈ principal.roles, ∃ roleName, Below (inherited r) start roleName ∧ ListsPermission r roleName permID) ∧
    r.permissions.lookup permID = some perm

def enterRole (r : RBACAuthorizer) (roleName : String) (set : PermissionSet) : PermissionSet :=
  match r.roles.lookup roleName with
  | some role => r.addPermissions role set
  | none => set

def HasExactly (r : RBACAuthorizer) (given : String → Prop) (set : PermissionSet) : Prop :=
  ∀ permID perm, set.lookup permID = some perm ↔ given permID ∧ r.permissions.lookup permID = some perm

theorem collectRolePermissions_eq_depthFirst (fuel : ℕ) (roleName : String) (state : PermissionSet × List String) :
    r.collectRolePermissions fuel roleName state = depthFirst (inherited r) (enterRole r) fuel roleName state := by
  induction fuel generalizing roleName state with
  | zero => rfl
  | succ fuel ih =>
    obtain ⟨set, visited⟩ := state
    rw [collectRolePermissions, depthFirst]
    split
    · rfl
    · cases found : r.roles.lookup roleName with
      | none => simp [inherited, enterRole, found]
      | some role => simp [inherited, enterRole, found, ih]

theorem HasExactly.empty : HasExactly r (fun _ => False) ∅ := by
  intro permID perm
  rw [lookup_empty]
  exact iff_of_false nofun fun both => both.1

variable {set : PermissionSet} {given : String → Prop}

theorem HasExactly.foldl {γ : Type} {add : PermissionSet → γ → PermissionSet} {ids : γ → String → Prop}
    (each : ∀ item given set, HasExactly r given set →
      HasExactly r (fun permID => given permID ∨ ids item permID) (add set item)) (items : List γ)
    (exactly : HasExactly r given set) :
    HasExactly r (fun permID => given permID ∨ ∃ item ∈ items, ids item permID) (items.foldl add set) := by
  induction items generalizing given set with
  | nil => simpa using exactly
  | cons item rest ih =>
    intro permID perm
    rw [List.foldl_cons, ih (each item given set exactly) permID perm]
    simp only [List.exists_mem_cons_iff, or_assoc]

theorem HasExactly.addPermission (item : String) (given : String → Prop) (set : PermissionSet)
    (exactly : HasExactly r given set) :
    HasExactly r (fun permID => given permID ∨ permID = item) (r.addPermission set item) := by
  intro permID perm
  unfold RBACAuthorizer.addPermission
  by_cases same : permID = item
  · subst same
    cases found : r.permissions.lookup permID with
    | none => exact iff_of_false (fun held => nomatch (((exactly permID perm).mp held).2.symm.trans found)) nofun
    | some stored => simp [lookup_insert]
  · cases found : r.permissions.lookup item with
    | none => simp [exactly permID perm, same]
    | some stored => simp [lookup_insert_ne same, exactly permID perm, same]

theorem HasExactly.addPermissions (role : Role) (exactly : HasExactly r given set) :
    HasExactly r (fun permID => given permID ∨ permID ∈ role.permissions) (r.addPermissions role set) := by
  have all := HasExactly.foldl HasExactly.addPermission role.permissions exactly
  rw [RBACAuthorizer.addPermissions]
  simpa only [exists_eq_right'] using all

theorem HasExactly.enterRole (roleName : String) (given : String → Prop) (set : PermissionSet)
    (exactly : HasExactly r given set) :
    HasExactly r (fun permID => given permID ∨ ListsPermission r roleName permID) (enterRole r roleName set) := by
  unfold Auth.enterRole ListsPermission
  cases found : r.roles.lookup roleName with
  | none => simpa using exactly
  | some role => simpa using exactly.addPermissions role

theorem mem_keys_of_inherited {roleName : String} (some_child : inherited r roleName ≠ []) : roleName ∈ r.roles.keys := by
  unfold inherited at some_child
  cases found : r.roles.lookup roleName with
  | none => exact (some_child (by rw [found]; rfl)).elim
  | some role => exact lookup_isSome.mp (by rw [found]; rfl)

theorem HasExactly.collectRolePermissions (roleName : String) (given : String → Prop) (set : PermissionSet)
    (exactly : HasExactly r given set) :
    HasExactly r (fun permID => given permID ∨ ∃ name, Below (inherited r) roleName name ∧ ListsPermission r name permID)
      (r.collectRolePermissions (r.roles.entries.length + 1) roleName (set, [])).1 := by
  have enough : r.roles.keys.length < r.roles.entries.length + 1 := by
    rw [keys, List.keys, List.length_map]
    exact Nat.lt_succ_self _
  obtain ⟨order, listed, collected⟩ := exists_depthFirst (Auth.enterRole r)
    (fun _ => mem_keys_of_inherited) enough roleName set
  have all := HasExactly.foldl HasExactly.enterRole order exactly
  rw [collectRolePermissions_eq_depthFirst, collected]
  simpa only [listed] using all

theorem lookup_permissionSet_iff :
    (r.permissionSet principal).lookup permID = some perm ↔ HasPermission r principal permID perm := by
  have all := HasExactly.foldl HasExactly.collectRolePermissions principal.roles (HasExactly.empty (r := r))
  simp only [false_or] at all
  exact all permID perm

theorem mem_getPermissions_iff {order : MapOrder} :
    perm ∈ r.getPermissions order principal ↔ ∃ permID, HasPermission r principal permID perm := by
  rw [getPermissions, List.mem_map]
  simp only [MapOrder.mem_visit, mem_entries_iff, lookup_permissionSet_iff]
  constructor
  · rintro ⟨entry, held, rfl⟩
    exact ⟨entry.1, held⟩
  · rintro ⟨permID, held⟩
    exact ⟨⟨permID, perm⟩, held, rfl⟩

end

variable {address : ℕ}

section

def Granted (r : RBACAuthorizer) (principal : Principal) (authCtx : AuthContext) : Prop :=
  ∃ permID perm, HasPermission r principal permID perm ∧
    r.permissionMatches perm authCtx.resource authCtx.action authCtx.context = true

def SameEntries (first second : Attributes) : Prop := ∀ key, first.lookup key = second.lookup key

theorem contextOf_of_some (refers : perm.context = some address) : r.contextOf perm = r.contexts.records address := by
  rw [contextOf, refers]
  rfl

variable {requestContext : Attributes}

theorem constraintMet_iff {key expected : String} : constraintMet requestContext key expected = true ↔
      ∃ actual, requestContext.lookup key = some actual ∧ (expected = "*" ∨ actual = expected) := by
  unfold constraintMet
  cases requestContext.lookup key <;> simp

theorem contextMatches_iff {permContext : Attributes} : contextMatches permContext requestContext = true ↔
      ∀ key expected, permContext.lookup key = some expected → constraintMet requestContext key expected = true := by
  rw [contextMatches, List.all_eq_true]
  simp only [mem_entries_iff, Sigma.forall]

theorem contextMatches_congr {permContext permContext' requestContext' : Attributes}
    (samePerm : SameEntries permContext permContext') (sameRequest : SameEntries requestContext requestContext') :
    contextMatches permContext requestContext = contextMatches permContext' requestContext' := by
  rw [Bool.eq_iff_iff, contextMatches_iff, contextMatches_iff]
  simp only [constraintMet_iff, samePerm _, sameRequest _]

theorem permissionMatches_iff {resource action : String} {context : Attributes} :
    r.permissionMatches perm resource action context = true ↔
      resourceMatches perm.resource resource = true ∧ actionMatches perm.actions action = true ∧
        contextMatches (r.contextOf perm) context = true := by
  unfold permissionMatches
  cases resourceMatches perm.resource resource <;> cases actionMatches perm.actions action <;>
    cases contextMatches (r.contextOf perm) context <;> simp

variable {authCtx : AuthContext}

theorem allows_iff (order : MapOrder) : r.allows order principal authCtx = true ↔ Granted r principal authCtx := by
  rw [allows, List.any_eq_true]
  simp only [mem_getPermissions_iff]
  constructor
  · rintro ⟨perm, ⟨permID, held⟩, grants⟩
    exact ⟨permID, perm, held, grants⟩
  · rintro ⟨permID, perm, held, grants⟩
    exact ⟨perm, ⟨permID, held⟩, grants⟩

variable {other : RBACAuthorizer} {authCtx' : AuthContext}

theorem authorize_congr {order order' : MapOrder} (present : authCtx.principal = some principal)
    (present' : authCtx'.principal = some principal) (sameResource : authCtx.resource = authCtx'.resource)
    (sameAction : authCtx.action = authCtx'.action)
    (sameGrant : Granted r principal authCtx ↔ Granted other principal authCtx') :
    r.authorize order authCtx = other.authorize order' authCtx' := by
  rw [authorize, authorize, present, present', sameResource, sameAction]
  exact if_congr ((allows_iff order).trans (sameGrant.trans (allows_iff order').symm)) rfl rfl

/-- Two stores with the same roles and permissions, whose contexts have the same entries. -/
structure SameStore (r other : RBACAuthorizer) : Prop where
  roles : r.roles = other.roles
  permissions : r.permissions = other.permissions
  contexts : ∀ permID perm, r.permissions.lookup permID = some perm → SameEntries (r.contextOf perm) (other.contextOf perm)

theorem SameStore.refl (r : RBACAuthorizer) : SameStore r r := ⟨rfl, rfl, fun _ _ _ _ => rfl⟩

theorem SameStore.symm (same : SameStore r other) : SameStore other r where
  roles := same.roles.symm
  permissions := same.permissions.symm
  contexts permID perm found key := (same.contexts permID perm (same.permissions ▸ found) key).symm

theorem SameStore.trans {third : RBACAuthorizer} (first : SameStore r other) (second : SameStore other third) :
    SameStore r third where
  roles := first.roles.trans second.roles
  permissions := first.permissions.trans second.permissions
  contexts permID perm found key :=
    (first.contexts permID perm found key).trans (second.contexts permID perm (first.permissions ▸ found) key)

theorem SameStore.hasPermission (same : SameStore r other) (held : HasPermission r principal permID perm) :
    HasPermission other principal permID perm := by
  have sameInherited : inherited r = inherited other := funext fun name => by
    rw [inherited, inherited, same.roles]
  unfold HasPermission ListsPermission at held ⊢
  rwa [← sameInherited, ← same.roles, ← same.permissions]

theorem SameStore.granted (same : SameStore r other) (sameResource : authCtx.resource = authCtx'.resource)
    (sameAction : authCtx.action = authCtx'.action) (sameContext : SameEntries authCtx.context authCtx'.context)
    (granted : Granted r principal authCtx) : Granted other principal authCtx' := by
  obtain ⟨permID, perm, held, grants⟩ := granted
  refine ⟨permID, perm, same.hasPermission held, ?_⟩
  rw [permissionMatches_iff] at grants ⊢
  rwa [← sameResource, ← sameAction, ← contextMatches_congr (same.contexts permID perm held.2) sameContext]

end

section

open MultiTenantAuthorizer

variable {m other : MultiTenantAuthorizer} {order order' : MapOrder} {authCtx authCtx' : AuthContext}

theorem authorize_of_isolated (isolated : m.tenantIsolation = true) (present : authCtx.principal = some principal) :
    m.authorize order authCtx = if isForeign principal (inTenant principal authCtx) then
        some "access denied: resource belongs to different tenant"
      else m.underlying.authorize order (inTenant principal authCtx) := by
  rw [MultiTenantAuthorizer.authorize, present, isolated]
  rfl

theorem isolated_authorize_congr (isolated : m.tenantIsolation = true) (isolated' : other.tenantIsolation = true)
    (present : authCtx.principal = some principal) (present' : authCtx'.principal = some principal)
    (sameResource : authCtx.resource = authCtx'.resource) (sameAction : authCtx.action = authCtx'.action)
    (sameForeign : isForeign principal (inTenant principal authCtx) = isForeign principal (inTenant principal authCtx'))
    (sameGrant : Granted m.underlying principal (inTenant principal authCtx) ↔
      Granted other.underlying principal (inTenant principal authCtx')) :
    m.authorize order authCtx = other.authorize order' authCtx' := by
  have sameError : m.underlying.authorize order (inTenant principal authCtx) =
      other.underlying.authorize order' (inTenant principal authCtx') :=
    authorize_congr present present' sameResource sameAction sameGrant
  rw [authorize_of_isolated isolated present, authorize_of_isolated isolated' present', sameForeign, sameError]

theorem SameStore.authorize (sameIsolation : m.tenantIsolation = other.tenantIsolation)
    (same : SameStore m.underlying other.underlying) : m.authorize order authCtx = other.authorize order' authCtx := by
  have sameGrant (principal : Principal) (authCtx : AuthContext) :
      Granted m.underlying principal authCtx ↔ Granted other.underlying principal authCtx :=
    ⟨same.granted rfl rfl fun _ => rfl, same.symm.granted rfl rfl fun _ => rfl⟩
  cases present : authCtx.principal with
  | none =>
    rw [MultiTenantAuthorizer.authorize, MultiTenantAuthorizer.authorize, present]
    simp only [RBACAuthorizer.authorize, present]
  | some principal =>
    cases isolated : m.tenantIsolation with
    | false =>
      rw [MultiTenantAuthorizer.authorize, MultiTenantAuthorizer.authorize, present, ← sameIsolation, isolated]
      exact authorize_congr present present rfl rfl (sameGrant principal authCtx)
    | true =>
      exact isolated_authorize_congr isolated (sameIsolation ▸ isolated) present present rfl rfl rfl (sameGrant ..)

theorem sameEntries_inTenant {context context' : Attributes}
    (agree : ∀ key, key ≠ "tenant_id" → context.lookup key = context'.lookup key) (tenantID : String) :
    SameEntries (context.insert "tenant_id" tenantID) (context'.insert "tenant_id" tenantID) := by
  intro key
  rw [lookup_insert_eq_ite, lookup_insert_eq_ite]
  split
  · rfl
  next other => exact agree key other

theorem permissionMatches_inTenant_of_pinned {tenant : String}
    (pinned : (r.contextOf perm).lookup "tenant_id" = some tenant) (noWildcard : tenant ≠ "*")
    (different : tenant ≠ principal.tenantID) (authCtx : AuthContext) :
    r.permissionMatches perm authCtx.resource authCtx.action (inTenant principal authCtx).context = false := by
  rw [← Bool.not_eq_true, permissionMatches_iff, contextMatches_iff]
  rintro ⟨_, _, met⟩
  obtain ⟨actual, found, wildcard | same⟩ := constraintMet_iff.mp (met "tenant_id" tenant pinned)
  · exact noWildcard wildcard
  · rw [inTenant, lookup_insert] at found
    exact different (same.symm.trans (Option.some.inj found).symm)

theorem hasPermission_removePermission_iff {removed : String} :
    HasPermission (r.removePermission removed) principal permID perm ↔
      permID ≠ removed ∧ HasPermission r principal permID perm := by
  unfold HasPermission
  constructor
  · rintro ⟨listed, found⟩
    obtain ⟨apart, stored⟩ := lookup_erase_eq_some found
    exact ⟨apart, listed, stored⟩
  · rintro ⟨apart, listed, found⟩
    exact ⟨listed, (lookup_erase_ne apart).trans found⟩

theorem hasAdminRole_eq_false_iff :
    hasAdminRole principal = false ↔ "admin" ∉ principal.roles ∧ "system" ∉ principal.roles := by
  rw [hasAdminRole, List.any_eq_false]
  constructor
  · intro other
    exact ⟨fun admin => other _ admin (by simp), fun system => other _ system (by simp)⟩
  · rintro ⟨noAdmin, noSystem⟩ role member
    rw [Bool.or_eq_true, decide_eq_true_eq, decide_eq_true_eq]
    rintro (rfl | rfl)
    · exact noAdmin member
    · exact noSystem member

variable {contexts : Heap Attributes}

theorem lookup_tagPermission {tenantID : String} (used : address < contexts.next) (key : String) :
    ((tagPermission tenantID perm contexts).2.records address).lookup key =
      if perm.context = some address ∧ key = "tenant_id" then some tenantID
      else (contexts.records address).lookup key := by
  unfold tagPermission
  cases refers : perm.context with
  | none =>
    have apart : address ≠ (contexts.make ∅).1 := Nat.ne_of_lt used
    rw [if_neg (fun both => nomatch both.1)]
    dsimp only
    rw [Heap.records_modify_of_ne _ apart, Heap.records_make _ used]
  | some own =>
    dsimp only
    by_cases same : address = own
    · subst same
      rw [Heap.records_modify_self]
      by_cases tenant : key = "tenant_id"
      · rw [if_pos ⟨rfl, tenant⟩, tenant, lookup_insert]
      · rw [if_neg (fun both => tenant both.2), lookup_insert_ne tenant]
    · rw [Heap.records_modify_of_ne _ same, if_neg fun both => same (Option.some.inj both.1).symm]

theorem lookup_tagPermissions {tenantID : String} {permissions : List Permission} (used : address < contexts.next)
    (key : String) : ((tagPermissions tenantID permissions contexts).2.records address).lookup key =
      if (∃ perm ∈ permissions, perm.context = some address) ∧ key = "tenant_id" then some tenantID
      else (contexts.records address).lookup key := by
  induction permissions generalizing contexts with
  | nil => simp [tagPermissions]
  | cons perm rest ih =>
    have later := ih (Nat.lt_of_lt_of_le used (next_le_tagPermission tenantID perm contexts))
    rw [lookup_tagPermission used key] at later
    refine later.trans ((ite_or ..).symm.trans (if_congr ?_ rfl rfl))
    rw [← or_and_right, or_comm, List.exists_mem_cons_iff]

/-- The maps of all permissions of a principal are already tagged with its tenant, or isolation is off. -/
def Harmless (m : MultiTenantAuthorizer) (principal : Principal) : Prop :=
  m.tenantIsolation = true → ∀ permID perm address, HasPermission m.underlying principal permID perm →
    perm.context = some address → (m.underlying.contexts.records address).lookup "tenant_id" = some principal.tenantID

theorem getPermissions_of_not_isolated (shared : m.tenantIsolation = false) :
    (m.getPermissions order principal).2 = m := by
  rw [MultiTenantAuthorizer.getPermissions, shared]
  rfl

theorem getPermissions_of_isolated (isolated : m.tenantIsolation = true) :
    (m.getPermissions order principal).2 = ⟨m.underlying.withContexts
      (tagPermissions principal.tenantID (m.underlying.getPermissions order principal) m.underlying.contexts).2
      (next_le_tagPermissions ..), m.tenantIsolation⟩ := by
  rw [MultiTenantAuthorizer.getPermissions, if_pos isolated]

@[simp] theorem tenantIsolation_getPermissions :
    (m.getPermissions order principal).2.tenantIsolation = m.tenantIsolation := by
  cases isolated : m.tenantIsolation with
  | false => rw [getPermissions_of_not_isolated isolated, isolated]
  | true => rw [getPermissions_of_isolated isolated, isolated]

theorem lookup_contextOf_getPermissions (isolated : m.tenantIsolation = true)
    (found : m.underlying.permissions.lookup permID = some perm) (refers : perm.context = some address) (key : String) :
    ((m.getPermissions order principal).2.underlying.contextOf perm).lookup key =
      if (∃ held ∈ m.underlying.getPermissions order principal, held.context = some address) ∧ key = "tenant_id" then
        some principal.tenantID else (m.underlying.contexts.records address).lookup key := by
  rw [getPermissions_of_isolated isolated, contextOf_of_some refers]
  exact lookup_tagPermissions (m.underlying.allocated permID perm address found refers) key

theorem sameStore_getPermissions_iff (order : MapOrder) :
    SameStore m.underlying (m.getPermissions order principal).2.underlying ↔ Harmless m principal := by
  cases isolated : m.tenantIsolation with
  | false =>
    rw [getPermissions_of_not_isolated isolated]
    exact iff_of_true (.refl _) fun isTrue => nomatch isolated.symm.trans isTrue
  | true =>
    constructor
    · intro unchanged _ permID perm address held refers
      have same := unchanged.contexts permID perm held.2 "tenant_id"
      rw [lookup_contextOf_getPermissions isolated held.2 refers, contextOf_of_some refers,
        if_pos ⟨⟨perm, mem_getPermissions_iff.mpr ⟨permID, held⟩, refers⟩, rfl⟩] at same
      exact same
    · intro harmless
      have kept : (m.getPermissions order principal).2.underlying.roles = m.underlying.roles ∧
          (m.getPermissions order principal).2.underlying.permissions = m.underlying.permissions := by
        rw [getPermissions_of_isolated isolated]
        exact ⟨rfl, rfl⟩
      refine ⟨kept.1.symm, kept.2.symm, fun permID perm found key => ?_⟩
      cases refers : perm.context with
      | none => simp only [contextOf, refers, Option.map_none]
      | some address =>
        rw [lookup_contextOf_getPermissions isolated found refers, contextOf_of_some refers]
        split
        next tagged =>
          obtain ⟨⟨held, member, sameMap⟩, rfl⟩ := tagged
          obtain ⟨heldID, has⟩ := mem_getPermissions_iff.mp member
          exact harmless isolated heldID held address has sameMap
        · rfl

/-- A call that returns permissions finds their maps tagged with the tenant of the caller, or isolation is off. -/
def HarmlessCall (m : MultiTenantAuthorizer) : MapOrder × AuthCall → Prop
  | (_, .getPermissions principal) => Harmless m principal
  | (_, .authorize _) => True

/-- Harmless calls between the authorizations leave their outcomes as they are, also if the maps of the remaining calls
are visited in another order. -/
theorem outcomes_of_sameStore {calls remaining : List (MapOrder × AuthCall)}
    (sameIsolation : m.tenantIsolation = other.tenantIsolation) (same : SameStore m.underlying other.underlying)
    (harmless : authCalls.Meets HarmlessCall m calls)
    (removed : remaining.map Prod.snd = (calls.map Prod.snd).filter AuthCall.isAuthorize) :
    outcomes other remaining = outcomes m calls := by
  induction calls generalizing m remaining with
  | nil =>
    rw [List.map_eq_nil_iff.mp removed]
    rfl
  | cons call rest ih =>
    obtain ⟨order, call⟩ := call
    cases call with
    | getPermissions principal =>
      have unchanged := (sameStore_getPermissions_iff order).mpr harmless.1
      exact ih (tenantIsolation_getPermissions.trans sameIsolation) (unchanged.symm.trans same)
        (harmless.2 _ rfl) removed
    | authorize authCtx =>
      obtain ⟨⟨order', call⟩, later, rfl, rfl, removedLater⟩ := List.map_eq_cons_iff.mp removed
      rw [outcomes, outcomes, ih sameIsolation same (harmless.2 _ rfl) removedLater, same.authorize sameIsolation]

end

end IpfsCluster.Proofs.Auth
