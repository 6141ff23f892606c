import IpfsCluster.Model.Api.Types

/-! # Principals, requests and permissions

The types that authentication and authorization share. A map that may be nil is an option; a map that is only read is
empty when it is nil. The map of a permission is shared by the copies of the permission.
-/

namespace IpfsCluster.Model.Auth

open Api

abbrev Attributes := AList fun _ : String => String

inductive AuthMethod where
  | jwt
  | apiKey
  | did
  | oidc
  | web3
deriving DecidableEq, Repr

structure Principal where
  id : String
  type : String := ""
  tenantID : String := ""
  roles : List String := []
  attrs : Option Attributes := none
  method : AuthMethod := .jwt
  issuedAt : Time := .zero
  expiresAt : Option Time := none
deriving DecidableEq

/-- The error of a call whose result is dropped. -/
def errorOf {α : Type} : Except String α → Option String
  | .error err => some err
  | .ok _ => none

structure AuthContext where
  principal : Option Principal
  resource : String
  action : String
  context : Attributes := ∅

/-- A permission; the map of its constraints, unless nil, is given by its address. -/
structure Permission where
  resource : String
  actions : List String
  context : Option ℕ := none
deriving DecidableEq, Repr

def actionPinAdd : String := "pin:add"

def actionPinRemove : String := "pin:remove"

def actionPinList : String := "pin:list"

def actionPinGet : String := "pin:get"

def actionStatus : String := "status:get"

def actionHealth : String := "health:get"

def actionMetrics : String := "metrics:get"

def resourcePin : String := "pin"

end IpfsCluster.Model.Auth
