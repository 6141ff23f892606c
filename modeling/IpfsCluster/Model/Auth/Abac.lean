import IpfsCluster.Golang.ExchangeSort
import IpfsCluster.Golang.Text
import IpfsCluster.Model.Auth.Types

/-! # Attribute-based access control

Policies are rules on attributes of the subject, the resource, the action and the context of a request. They are
gathered from a map, in any order, and sorted by priority; the first enabled policy that matches decides. Numbers in
rules are parsed by the library, and the parts of the current time are inputs.
-/

namespace IpfsCluster.Model.Auth

open Golang

/-- The effect of a policy; all other texts allow. -/
inductive Effect where
  | allow
  | deny
  | other (text : String)
deriving DecidableEq, Repr

/-- Comparison operators; those that are not known, among them regular expressions, never hold. -/
inductive Operator where
  | equals
  | notEquals
  | isIn
  | notIn
  | contains
  | startsWith
  | endsWith
  | greaterThan
  | lessThan
  | greaterEqual
  | lessEqual
  | regex
  | other (text : String)
deriving DecidableEq, Repr

structure Rule where
  attr : String
  operator : Operator
  value : String := ""
  values : List String := []
deriving DecidableEq, Repr

structure Policy where
  id : String
  name : String
  effect : Effect
  rules : List Rule
  priority : ℤ
  enabled : Bool
deriving DecidableEq, Repr

structure EvaluationContext where
  subject : Attributes
  resource : Attributes
  action : Attributes
  context : Attributes

structure TimeParts where
  hour : ℕ
  dayOfWeek : ℕ
  timestamp : ℤ

/-- The attributes of a principal; those of its own replace the standard ones. -/
def subjectAttributes (principal : Principal) : Attributes :=
  let standard : Attributes := (((∅ : Attributes).insert "id" principal.id).insert "type" principal.type).insert
    "tenant_id" principal.tenantID |>.insert "roles" (join ',' principal.roles)
  AList.insertAll Sigma.fst Sigma.snd (principal.attrs.getD ∅).entries standard

def buildEvaluationContext (now : TimeParts) (authCtx : AuthContext) : EvaluationContext where
  subject := (authCtx.principal.map subjectAttributes).getD ∅
  resource := (∅ : Attributes).insert "name" authCtx.resource
  action := (∅ : Attributes).insert "name" authCtx.action
  context := ((authCtx.context.insert "time.hour" now.hour.repr).insert "time.day_of_week" now.dayOfWeek.repr).insert
    "time.timestamp" now.timestamp.repr

def splitAttribute (attr : String) : Option (String × String) :=
  match attr.toList.dropWhile (· ≠ '.') with
  | [] => none
  | _ :: key => some (String.ofList (attr.toList.takeWhile (· ≠ '.')), String.ofList key)

def getAttributeValue (evalCtx : EvaluationContext) (attr : String) : String :=
  match splitAttribute attr with
  | none => ""
  | some (category, key) =>
    if category = "subject" then (evalCtx.subject.lookup key).getD ""
    else if category = "resource" then (evalCtx.resource.lookup key).getD ""
    else if category = "action" then (evalCtx.action.lookup key).getD ""
    else if category = "context" then (evalCtx.context.lookup key).getD ""
    else ""

section

variable (parseFloat : String → Option Float)

/-- Compare two texts as numbers, or as texts if one is no number. -/
def compareNumeric (a1 a2 : String) : ℤ :=
  match parseFloat a1, parseFloat a2 with
  | some n1, some n2 => if n1 < n2 then -1 else if n2 < n1 then 1 else 0
  | _, _ => if a1 < a2 then -1 else if a2 < a1 then 1 else 0

def evaluateRule (evalCtx : EvaluationContext) (rule : Rule) : Bool :=
  let attributeValue := getAttributeValue evalCtx rule.attr
  match rule.operator with
  | .equals => attributeValue = rule.value
  | .notEquals => attributeValue ≠ rule.value
  | .isIn => attributeValue ∈ rule.values
  | .notIn => attributeValue ∉ rule.values
  | .contains => contains attributeValue rule.value
  | .startsWith => startsWith attributeValue rule.value
  | .endsWith => endsWith attributeValue rule.value
  | .greaterThan => 0 < compareNumeric parseFloat attributeValue rule.value
  | .lessThan => compareNumeric parseFloat attributeValue rule.value < 0
  | .greaterEqual => 0 ≤ compareNumeric parseFloat attributeValue rule.value
  | .lessEqual => compareNumeric parseFloat attributeValue rule.value ≤ 0
  | .regex | .other _ => false

def evaluatePolicy (evalCtx : EvaluationContext) (policy : Policy) : Bool :=
  policy.rules.all (evaluateRule parseFloat evalCtx)

/-- The policies in the order in which they are evaluated, when the map is visited in some order. -/
def getApplicablePolicies (visited : List Policy) : List Policy := exchangeSort Policy.priority visited

def decidingPolicy (evalCtx : EvaluationContext) (visited : List Policy) : Option Policy :=
  (getApplicablePolicies visited).find? fun policy => policy.enabled && evaluatePolicy parseFloat evalCtx policy

def abacAuthorize (now : TimeParts) (visited : List Policy) (authCtx : AuthContext) : Option String :=
  match authCtx.principal with
  | none => some "no principal provided"
  | some _ =>
    match decidingPolicy parseFloat (buildEvaluationContext now authCtx) visited with
    | some policy => if policy.effect = .deny then some ("access denied by policy: " ++ policy.name) else none
    | none => some "access denied: no policy allows the requested action"

end

def adminFullAccess : Policy where
  id := "admin-full-access"
  name := "Admin Full Access"
  effect := .allow
  priority := 100
  enabled := true
  rules := [{ attr := "subject.roles", operator := .contains, value := "admin" }]

def userPinAccess : Policy where
  id := "user-pin-access"
  name := "User Pin Access"
  effect := .allow
  priority := 50
  enabled := true
  rules := [
    { attr := "subject.roles", operator := .contains, value := "user" },
    { attr := "resource.name", operator := .equals, value := resourcePin },
    { attr := "action.name", operator := .isIn,
      values := [actionPinAdd, actionPinRemove, actionPinGet, actionPinList] }]

def viewerReadAccess : Policy where
  id := "viewer-read-access"
  name := "Viewer Read Access"
  effect := .allow
  priority := 25
  enabled := true
  rules := [
    { attr := "subject.roles", operator := .contains, value := "viewer" },
    { attr := "action.name", operator := .isIn,
      values := [actionPinGet, actionPinList, actionStatus, actionHealth, actionMetrics] }]

def businessHoursOnly : Policy where
  id := "business-hours-only"
  name := "Business Hours Only"
  effect := .deny
  priority := 75
  enabled := false
  rules := [{ attr := "time.hour", operator := .lessThan, value := "9" }]

/-- The policies of a new authorizer, which have different identifiers. -/
def initializeDefaults : List Policy := [adminFullAccess, userPinAccess, viewerReadAccess, businessHoursOnly]

end IpfsCluster.Model.Auth
