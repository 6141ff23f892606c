import IpfsCluster.Model.Cluster.Pin

/-! # Requests that replace a pin

The pinning service and the IPFS proxy both pin with `PinUpdate` set to the old CID, and then unpin the old CID. Of
several answers to a request, only the first is sent. The clock is read when the pin object is made, then by `pin`, and
then by the unpin.
-/

namespace IpfsCluster.Model

open Api Golang

inductive Response where
  | failed (message : String)
  | success (pins : List Cid)
deriving DecidableEq

structure SvcPin where
  cid : Cid
  name : String := ""
  origins : List Multiaddr := []
  metadata : Metadata := ∅

def svcPinToClusterPin (p : SvcPin) (now : Time) : Except Error Pin :=
  .ok (pinWithOpts p.cid
    { name := p.name, origins := p.origins, metadata := p.metadata, mode := PinMode.recursive } now)

section

variable (c : Cluster) (blocks : BlockSource) (order : MapOrder) (now : Clock)

/-- The request ID when the route has one; it is answered when it is not a CID. -/
def parseRequestIDOrFail : Option (Except String Cid) → Option Response × Cid × Bool
  | none => (none, Cid.undef, true)
  | some (.error err) => (some (.failed ("error decoding requestID: " ++ err)), Cid.undef, false)
  | some (.ok requestID) => (none, requestID, true)

/-- Pin the CID of the body, and unpin the CID of the request ID. A body without a CID is not answered. -/
def addPin (body : Except String SvcPin) (requestID : Option (Except String Cid)) (consensus : Consensus) :
    Option Response × Consensus :=
  match body with
  | .error err => (some (.failed ("error decoding request body: " ++ err)), consensus)
  | .ok pin =>
    if !pin.cid.defined then (none, consensus)
    else
      match svcPinToClusterPin pin (now 0) with
      | .error err => (some (.failed (Cluster.errorText err)), consensus)
      | .ok clusterPin =>
        let (early, updateCid, ok) := parseRequestIDOrFail requestID
        let clusterPin := if updateCid.defined && ok then { clusterPin with pinUpdate := updateCid } else clusterPin
        match c.pin order (fun n => now (n + 1)) consensus clusterPin [] with
        | ((_, _, some err), consensus) => (early <|> some (.failed (Cluster.errorText err)), consensus)
        | ((pinObj, _, none), consensus) =>
          if clusterPin.pinUpdate.defined then
            match c.unpin blocks order (now 3) consensus clusterPin.pinUpdate with
            | ((_, some err), consensus) => (early <|> some (.failed (Cluster.errorText err)), consensus)
            | ((_, none), consensus) => (early <|> some (.success [pinObj.cid]), consensus)
          else (early <|> some (.success [pinObj.cid]), consensus)

/-- The paths of the proxy: how they are parsed, and how IPFS resolves them. -/
structure Paths where
  pathOrCidPath : String → Except String String
  resolve : String → Except Error Cid

def Cluster.pinPath (paths : Paths) (path : String) (opts : PinOptions) (consensus : Consensus) :
    (Pin × Option Error) × Consensus :=
  match paths.resolve path with
  | .error err => (({}, some err), consensus)
  | .ok ci =>
    let ((result, _, err), consensus) := c.pin order (fun n => now (n + 1)) consensus (pinWithOpts ci opts (now 0)) []
    ((result, err), consensus)

/-- Pin the CID of the second path, and unpin the CID of the first one unless this is turned off. -/
def pinUpdateHandler (paths : Paths) (args : List String) (unpinArg : String) (consensus : Consensus) :
    Response × Consensus :=
  match args with
  | [] => (.failed "argument \"from-path\" is required", consensus)
  | [_] => (.failed "argument \"to-path\" is required", consensus)
  | source :: target :: _ =>
    match paths.pathOrCidPath source with
    | .error err => (.failed ("error parsing \"from-path\" argument: " ++ err), consensus)
    | .ok pFrom =>
      match paths.pathOrCidPath target with
      | .error err => (.failed ("error parsing \"to-path\" argument: " ++ err), consensus)
      | .ok pTo =>
        match paths.resolve pFrom with
        | .error err => (.failed (Cluster.errorText err), consensus)
        | .ok fromCid =>
          match c.pinPath order now paths pTo { pinUpdate := fromCid } consensus with
          | ((_, some err), consensus) => (.failed (Cluster.errorText err), consensus)
          | ((pin, none), consensus) =>
            if unpinArg ≠ "false" then
              match c.unpin blocks order (now 3) consensus fromCid with
              | ((_, some err), consensus) => (.failed (Cluster.errorText err), consensus)
              | ((_, none), consensus) => (.success [fromCid, pin.cid], consensus)
            else (.success [fromCid, pin.cid], consensus)

end

end IpfsCluster.Model
