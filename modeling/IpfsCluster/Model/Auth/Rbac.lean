import IpfsCluster.Golang.Heap
import IpfsCluster.Golang.Text
import IpfsCluster.Machine.Run
import IpfsCluster.Model.Auth.Types

/-! # Role-based access control, tenant isolation and composite authorizers

A role has permissions and inherits those of other roles; cycles are cut by a set of visited roles. The contexts of
permissions are maps shared by reference, so they are kept in a heap. The wrapper for tenants puts the tenant of the
principal into the context of each request, and into the contexts of the permissions that it returns.

Several authorizers decide about a request together. They get the same request one after the other, by reference: an
authorizer that writes to its context does so for those after it.
-/

namespace IpfsCluster.Model.Auth

open Golang Machine

/-- A role; permissions and inherited roles are given by their names. -/
structure Role where
  name : String
  permissions : List String := []
  inherits : List String := []
deriving DecidableEq, Repr

abbrev PermissionSet := AList fun _ : String => Permission

/-- The contexts of all permissions are maps in use. -/
structure RBACAuthorizer where
  roles : AList fun _ : String => Role
  permissions : PermissionSet
  contexts : Heap Attributes
  allocated : ∀ permID perm address,
    permissions.lookup permID = some perm → perm.context = some address → address < contexts.next

def resourceMatches (permResource requestedResource : String) : Bool :=
  if permResource = requestedResource then true
  else if permResource = "*" then true
  else if endsWith permResource "*" then startsWith requestedResource (trimEnd permResource "*")
  else false

def actionMatches (permActions : List String) (requestedAction : String) : Bool :=
  permActions.any fun action =>
    action = requestedAction || action = "*" || (endsWith action "*" && startsWith requestedAction (trimEnd action "*"))

/-- A constraint asks for a value in the request; `*` is met by any. -/
def constraintMet (requestContext : Attributes) (key expectedValue : String) : Bool :=
  match requestContext.lookup key with
  | none => false
  | some actualValue => expectedValue = "*" || actualValue = expectedValue

/-- All constraints have to be met; no constraints allow everything. -/
def contextMatches (permContext requestContext : Attributes) : Bool :=
  permContext.entries.all fun entry => constraintMet requestContext entry.1 entry.2

namespace RBACAuthorizer

variable (r : RBACAuthorizer)

def contextOf (perm : Permission) : Attributes := (perm.context.map r.contexts.records).getD ∅

def permissionMatches (perm : Permission) (resource action : String) (context : Attributes) : Bool :=
  if !resourceMatches perm.resource resource then false
  else if !actionMatches perm.actions action then false
  else if !contextMatches (r.contextOf perm) context then false
  else true

def addPermission (permissionSet : PermissionSet) (permID : String) : PermissionSet :=
  match r.permissions.lookup permID with
  | some perm => permissionSet.insert permID perm
  | none => permissionSet

def addPermissions (role : Role) (permissionSet : PermissionSet) : PermissionSet :=
  role.permissions.foldl r.addPermission permissionSet

/-- Add the permissions of a role and of those it inherits from, at most `fuel` levels deep. The visited roles are
shared by all calls. -/
def collectRolePermissions : ℕ → String → PermissionSet × List String → PermissionSet × List String
  | 0, _, state => state
  | fuel + 1, roleName, (permissionSet, visited) =>
    if roleName ∈ visited then (permissionSet, visited)
    else
      match r.roles.lookup roleName with
      | none => (permissionSet, roleName :: visited)
      | some role =>
        role.inherits.foldl (fun state inheritedRole => collectRolePermissions fuel inheritedRole state)
          (r.addPermissions role permissionSet, roleName :: visited)

/-- The permissions of all roles of a principal; each role is visited with marks of its own, and no chain of roles
without repetition is longer than the number of roles. -/
def permissionSet (principal : Principal) : PermissionSet :=
  principal.roles.foldl (fun set roleName =>
    (r.collectRolePermissions (r.roles.entries.length + 1) roleName (set, [])).1) ∅

/-- Copies of the permissions, in any order; the copies share the contexts. -/
def getPermissions (order : MapOrder) (principal : Principal) : List Permission :=
  (order.visit [] (r.permissionSet principal).entries).map Sigma.snd

def allows (order : MapOrder) (principal : Principal) (authCtx : AuthContext) : Bool :=
  (r.getPermissions order principal).any fun perm =>
    r.permissionMatches perm authCtx.resource authCtx.action authCtx.context

/-- The error of an authorization. -/
def authorize (order : MapOrder) (authCtx : AuthContext) : Option String :=
  match authCtx.principal with
  | none => some "no principal provided"
  | some principal =>
    if r.allows order principal authCtx then none
    else some ("access denied: insufficient permissions for action " ++ authCtx.action ++ " on resource " ++
      authCtx.resource)

def removePermission (permID : String) : RBACAuthorizer :=
  { r with
    permissions := r.permissions.erase permID
    allocated := fun other perm address found =>
      r.allocated other perm address (AList.lookup_erase_eq_some found).2 }

/-- The store after its contexts have changed; those in use stay in use. -/
def withContexts (contexts : Heap Attributes) (grows : r.contexts.next ≤ contexts.next) : RBACAuthorizer :=
  { r with
    contexts := contexts
    allocated := fun permID perm address found refers =>
      Nat.lt_of_lt_of_le (r.allocated permID perm address found refers) grows }

end RBACAuthorizer

/-- Put a tenant into the context of a permission; a nil map becomes a new one. -/
def tagPermission (tenantID : String) (perm : Permission) (contexts : Heap Attributes) : Permission × Heap Attributes :=
  match perm.context with
  | some address => (perm, contexts.modify address fun context => context.insert "tenant_id" tenantID)
  | none =>
    let (address, made) := contexts.make ∅
    ({ perm with context := some address }, made.modify address fun context => context.insert "tenant_id" tenantID)

def tagPermissions (tenantID : String) : List Permission → Heap Attributes → List Permission × Heap Attributes
  | [], contexts => ([], contexts)
  | perm :: rest, contexts =>
    let (tagged, changed) := tagPermission tenantID perm contexts
    let (taggedRest, last) := tagPermissions tenantID rest changed
    (tagged :: taggedRest, last)

theorem next_le_tagPermission (tenantID : String) (perm : Permission) (contexts : Heap Attributes) :
    contexts.next ≤ (tagPermission tenantID perm contexts).2.next := by
  unfold tagPermission
  split
  · exact Nat.le_refl _
  · exact Nat.le_succ _

theorem next_le_tagPermissions (tenantID : String) (permissions : List Permission) (contexts : Heap Attributes) :
    contexts.next ≤ (tagPermissions tenantID permissions contexts).2.next := by
  induction permissions generalizing contexts with
  | nil => exact Nat.le_refl _
  | cons perm rest ih => exact (next_le_tagPermission tenantID perm contexts).trans (ih _)

structure MultiTenantAuthorizer where
  underlying : RBACAuthorizer
  tenantIsolation : Bool

namespace MultiTenantAuthorizer

variable (m : MultiTenantAuthorizer)

def hasAdminRole (principal : Principal) : Bool := principal.roles.any fun role => role = "admin" || role = "system"

/-- A request with the tenant of its principal in the context, whatever the caller has put there. -/
def inTenant (principal : Principal) (authCtx : AuthContext) : AuthContext :=
  { authCtx with context := authCtx.context.insert "tenant_id" principal.tenantID }

/-- The resource belongs to a different tenant, and the principal is no administrator. -/
def isForeign (principal : Principal) (authCtx : AuthContext) : Bool :=
  match authCtx.context.lookup "resource_tenant" with
  | some resourceTenant => resourceTenant ≠ principal.tenantID && !hasAdminRole principal
  | none => false

/-- The error of an authorization. -/
def authorize (order : MapOrder) (authCtx : AuthContext) : Option String :=
  match authCtx.principal with
  | none => m.underlying.authorize order authCtx
  | some principal =>
    if !m.tenantIsolation then m.underlying.authorize order authCtx
    else if isForeign principal (inTenant principal authCtx) then
      some "access denied: resource belongs to different tenant"
    else m.underlying.authorize order (inTenant principal authCtx)

/-- The permissions of a principal, and the authorizer after their contexts have been tagged with its tenant. -/
def getPermissions (order : MapOrder) (principal : Principal) : List Permission × MultiTenantAuthorizer :=
  let permissions := m.underlying.getPermissions order principal
  if m.tenantIsolation then
    let tagged := tagPermissions principal.tenantID permissions m.underlying.contexts
    (tagged.1, { m with underlying := m.underlying.withContexts tagged.2 (next_le_tagPermissions ..) })
  else (permissions, m)

end MultiTenantAuthorizer

inductive AuthCall where
  | getPermissions (principal : Principal)
  | authorize (authCtx : AuthContext)

def AuthCall.isAuthorize : AuthCall → Bool
  | .getPermissions _ => false
  | .authorize _ => true

def authCalls : LabeledMachine MultiTenantAuthorizer (MapOrder × AuthCall) where
  step m
    | (order, .getPermissions principal) => some (m.getPermissions order principal).2
    | (_, .authorize _) => some m

def outcomes (m : MultiTenantAuthorizer) : List (MapOrder × AuthCall) → List (Option String)
  | [] => []
  | (order, .getPermissions principal) :: rest => outcomes (m.getPermissions order principal).2 rest
  | (order, .authorize authCtx) :: rest => m.authorize order authCtx :: outcomes m rest

/-- What a composite asks of an authorizer: the error of a request with the request after the call, and permissions
with the contexts after the call. -/
structure Authorizer where
  authorize : AuthContext → Option String × AuthContext
  getPermissions : Principal → Heap Attributes → Except String (List Permission) × Heap Attributes

def RBACAuthorizer.authorizer (order : MapOrder) (r : RBACAuthorizer) : Authorizer where
  authorize authCtx := (r.authorize order authCtx, authCtx)
  getPermissions principal contexts := (.ok (r.getPermissions order principal), contexts)

/-- The wrapper leaves the tenant of the principal in the context of a request. -/
def MultiTenantAuthorizer.leaves (m : MultiTenantAuthorizer) (authCtx : AuthContext) : AuthContext :=
  match authCtx.principal with
  | none => authCtx
  | some principal => if m.tenantIsolation then inTenant principal authCtx else authCtx

def MultiTenantAuthorizer.authorizer (order : MapOrder) (m : MultiTenantAuthorizer) : Authorizer where
  authorize authCtx := (m.authorize order authCtx, m.leaves authCtx)
  getPermissions principal contexts :=
    let permissions := m.underlying.getPermissions order principal
    if m.tenantIsolation then
      let (tagged, changed) := tagPermissions principal.tenantID permissions contexts
      (.ok tagged, changed)
    else (.ok permissions, contexts)

inductive CompositeStrategy where
  | firstAllow
  | allAllow
  | majority
  | other (name : String)
deriving DecidableEq, Repr

structure CompositeAuthorizer where
  authorizers : List Authorizer
  strategy : CompositeStrategy

def authorizeFirstAllow (lastErr : String) : List Authorizer → AuthContext → Option String × AuthContext
  | [], authCtx => (some ("access denied by all authorizers: " ++ lastErr), authCtx)
  | authorizer :: rest, authCtx =>
    match authorizer.authorize authCtx with
    | (none, after) => (none, after)
    | (some err, after) => authorizeFirstAllow err rest after

def authorizeAllAllow : List Authorizer → AuthContext → Option String × AuthContext
  | [], authCtx => (none, authCtx)
  | authorizer :: rest, authCtx =>
    match authorizer.authorize authCtx with
    | (some err, after) => (some ("access denied by authorizer: " ++ err), after)
    | (none, after) => authorizeAllAllow rest after

/-- All authorizers are asked, and more have to allow the request than deny it. -/
def authorizeMajority (allowCount denyCount : ℕ) : List Authorizer → AuthContext → Option String × AuthContext
  | [], authCtx =>
    (if denyCount < allowCount then none
      else some ("access denied: majority of authorizers denied access (" ++ denyCount.repr ++ " deny, " ++
        allowCount.repr ++ " allow)"), authCtx)
  | authorizer :: rest, authCtx =>
    match authorizer.authorize authCtx with
    | (none, after) => authorizeMajority (allowCount + 1) denyCount rest after
    | (some _, after) => authorizeMajority allowCount (denyCount + 1) rest after

def CompositeAuthorizer.authorize (c : CompositeAuthorizer) (authCtx : AuthContext) : Option String × AuthContext :=
  if c.authorizers = [] then (some "no authorizers configured", authCtx)
  else match c.strategy with
    | .firstAllow => authorizeFirstAllow "" c.authorizers authCtx
    | .allAllow => authorizeAllAllow c.authorizers authCtx
    | .majority => authorizeMajority 0 0 c.authorizers authCtx
    | .other name => (some ("unsupported composite strategy: " ++ name), authCtx)

def permissionKey (perm : Permission) : String := perm.resource ++ ":" ++ join ',' perm.actions

def addIfNew (state : List Permission × List String) (perm : Permission) : List Permission × List String :=
  if permissionKey perm ∈ state.2 then state else (state.1 ++ [perm], permissionKey perm :: state.2)

/-- The loop over the authorizers; one that fails is passed over. -/
def gatherPermissions (principal : Principal) :
    List Authorizer → List Permission × List String → Heap Attributes → List Permission × Heap Attributes
  | [], state, contexts => (state.1, contexts)
  | authorizer :: rest, state, contexts =>
    match authorizer.getPermissions principal contexts with
    | (.error _, after) => gatherPermissions principal rest state after
    | (.ok permissions, after) => gatherPermissions principal rest (permissions.foldl addIfNew state) after

def CompositeAuthorizer.getPermissions (c : CompositeAuthorizer) (principal : Principal) (contexts : Heap Attributes) :
    List Permission × Heap Attributes := gatherPermissions principal c.authorizers ([], []) contexts

end IpfsCluster.Model.Auth
