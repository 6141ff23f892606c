import IpfsCluster.Machine.Run
import IpfsCluster.Model.Adder.Sharding
import IpfsCluster.Model.Cluster.Allocate
import IpfsCluster.Model.State.DsState

/-! # Pinning, repinning and unpinning

`pin` checks a pin object, allocates it and submits it to the consensus component, which is its state together with the
results of the calls to come: a submission that succeeds is in the state, one that fails is not. Each function takes its
readings of the clock in the order in which it makes them.

A data pin is removed by one submission. For a meta pin, the CIDs of its shards are read from the block of its
clusterDAG, and everything is removed one CID after the other, the meta pin last.
-/

namespace IpfsCluster.Model

open Api Golang Adder PinType

/-- The n-th reading of the clock during a call. -/
abbrev Clock := ℕ → Time

/-- The shared state and the errors of the coming calls; when they run out, calls succeed. -/
structure Consensus where
  state : DsState := {}
  outcomes : List (Option Error) := []

namespace Consensus

variable (consensus : Consensus)

def call : Option Error × Consensus :=
  match consensus.outcomes with
  | [] => (none, consensus)
  | outcome :: rest => (outcome, { consensus with outcomes := rest })

def getState : Except Error DsState × Consensus :=
  match consensus.call with
  | (some err, next) => (.error err, next)
  | (none, next) => (.ok next.state, next)

def logPin (pin : Pin) : Option Error × Consensus :=
  match consensus.call with
  | (some err, next) => (some err, next)
  | (none, next) => (none, { next with state := next.state.add pin })

def logUnpin (pin : Pin) : Option Error × Consensus :=
  match consensus.call with
  | (some err, next) => (some err, next)
  | (none, next) => (none, { next with state := next.state.rm pin.cid })

end Consensus

def isReplicationFactorValid (rplMin rplMax : ℤ) : Option Error :=
  if rplMin = 0 ∨ rplMax = 0 then some (.text "cluster.replication_factor_min and max must be set")
  else if rplMin > rplMax then some (.text "cluster.replication_factor_min is larger than max")
  else if rplMin < -1 then some (.text "cluster.replication_factor_min is wrong")
  else if rplMax < -1 then some (.text "cluster.replication_factor_max is wrong")
  else if (rplMin = -1 ∧ rplMax ≠ -1) ∨ (rplMin ≠ -1 ∧ rplMax = -1) then
    some (.text "cluster.replication_factor_min and max must be -1 when one of them is")
  else none

def checkPinType (pin : Pin) : Option Error :=
  if pin.type = dataType then
    if pin.reference.isSome then some (.text "data pins should not reference other pins") else none
  else if pin.type = shardType then
    if pin.maxDepth ≠ 1 then some (.text "must pin shards go depth 1") else none
  else if pin.type = clusterDAGType then
    if pin.maxDepth ≠ 0 then some (.text "must pin roots directly")
    else if pin.reference.isNone then some (.text "clusterDAG pins should reference a Meta pin")
    else none
  else if pin.type = metaType then
    if pin.allocations.length ≠ 0 then some (.text "meta pin should not specify allocations")
    else if pin.reference.isNone then some (.text "metaPins should reference a ClusterDAG")
    else none
  else some (.text "unrecognized pin type")

def errFollowerMode : Error :=
  .text "this peer is configured to be in follower mode. Write operations are disabled"

namespace Cluster

variable (c : Cluster) (order : MapOrder) (now : Clock) (consensus : Consensus)

def pinGet (h : Cid) : Except Error Pin × Consensus :=
  match consensus.getState with
  | (.error err, next) => (.error err, next)
  | (.ok st, next) => (st.get h, next)

/-- Set the default replication factors when they are 0. A pin everywhere has no allocations. -/
def setupReplicationFactor (pin : Pin) : Pin × Option Error :=
  let rplMin := if pin.replicationFactorMin = 0 then c.config.replicationFactorMin
    else pin.replicationFactorMin
  let rplMax := if pin.replicationFactorMax = 0 then c.config.replicationFactorMax
    else pin.replicationFactorMax
  let pin := { pin with replicationFactorMin := rplMin, replicationFactorMax := rplMax }
  let pin := if pin.isPinEverywhere then { pin with allocations := [] } else pin
  (pin, isReplicationFactorValid rplMin rplMax)

/-- Make sure that the pin object is fit for pinning; a pin that exists restricts what replaces it. -/
def setupPin (pin existing : Pin) : Pin × Option Error :=
  match c.setupReplicationFactor pin with
  | (pin, some err) => (pin, some err)
  | (pin, none) =>
    if !pin.expireAt.isZero && pin.expireAt.before (now 0) then
      (pin, some (.text "pin.ExpireAt set before current time"))
    else if !existing.defined then (pin, none)
    else if existing.type ≠ pin.type then
      (pin, some (.text ("cannot repin CID with different tracking method, " ++
        "clear state with pin rm to proceed. " ++
        s!"New: {pin.type.string}. Was: {existing.type.string}")))
    else if existing.mode = PinMode.recursive ∧ pin.mode ≠ PinMode.recursive then
      (pin, some (.text ("cannot repin a CID which is already pinned in " ++
        s!"recursive mode (new pin is pinned as {pin.mode.string}). Unpin it first.")))
    else (pin, checkPinType pin)

/-- Pin a new CID with the allocations and most options of an existing pin. -/
def pinUpdate (source target : Cid) (opts : PinOptions) : (Pin × Option Error) × Consensus :=
  match pinGet consensus source with
  | (.error err, next) => (({}, some err), next)
  | (.ok existing, next) =>
    if existing.type ≠ dataType then (({}, some (.text "this pin type cannot be updated")), next)
    else
      let existing := { existing with cid := target, pinUpdate := source, timestamp := now 0 }
      let existing := if opts.name ≠ "" then { existing with name := opts.name } else existing
      let existing := if !opts.expireAt.isZero && opts.expireAt.after (now 1)
        then { existing with expireAt := opts.expireAt } else existing
      let (err, next) := next.logPin existing
      ((existing, err), next)

/-- The submission of a pin that has passed the checks. Allocations that are set are respected. -/
def submitPin (pin existing : Pin) (blacklist : List PeerID) : (Pin × Bool × Option Error) × Consensus :=
  let pin := { pin with timestamp := now 1 }
  if pin.type = metaType then
    let (err, next) := consensus.logPin pin
    ((pin, true, err), next)
  else if pin.allocations.length = 0 then
    match c.allocate order existing pin.replicationFactorMin pin.replicationFactorMax blacklist pin.userAllocations with
    | .error err => ((pin, false, some err), consensus)
    | .ok allocs =>
      let pin := { pin with allocations := allocs }
      let (err, next) := consensus.logPin pin
      ((pin, true, err), next)
  else
    let (err, next) := consensus.logPin pin
    ((pin, true, err), next)

/-- Pin with a blacklist: the pin object, whether it was submitted, and the error. -/
def pin (pin : Pin) (blacklist : List PeerID) : (Pin × Bool × Option Error) × Consensus :=
  if c.config.followerMode then (({}, false, some errFollowerMode), consensus)
  else if !pin.cid.defined then ((pin, false, some (.text "bad pin object")), consensus)
  else if pin.pinUpdate.defined ∧ pin.pinUpdate ≠ pin.cid then
    let ((updated, err), next) := pinUpdate now consensus pin.pinUpdate pin.cid pin.toPinOptions
    ((updated, true, err), next)
  else
    let (found, next) := pinGet consensus pin.cid
    match found with
    | .error (.text message) => ((pin, false, some (.text message)), next)
    | .error .notFound | .ok _ =>
      let existing := found.toOption.getD {}
      match c.setupPin now pin existing with
      | (pin, some err) => ((pin, false, some err), next)
      | (pin, none) => c.submitPin order now next pin existing blacklist

/-- Trigger a repin of a pin object, with one of its allocations blacklisted. -/
def repinFromPeer (p : PeerID) (pin : Pin) : Consensus :=
  (c.pin order now consensus { pin with allocations := [] } [p]).2

end Cluster

/-- The calls that change the pinset; a pin is served by some peer of the cluster. -/
inductive PinsetEvent where
  | pin (peer : Cluster) (order : MapOrder) (now : Clock) (object : Pin) (blacklist : List PeerID)
  | pinUpdate (now : Clock) (source target : Cid) (opts : PinOptions)
  | logUnpin (object : Pin)

def pinset : Machine.LabeledMachine Consensus PinsetEvent where
  step consensus
    | .pin peer order now object blacklist => some (peer.pin order now consensus object blacklist).2
    | .pinUpdate now source target opts => some (Cluster.pinUpdate now consensus source target opts).2
    | .logUnpin object => some (consensus.logUnpin object).2

structure BlockSource where
  blockGet : Cid → Except Error RawBlock

namespace Cluster

variable (c : Cluster) (ipfs : BlockSource) (order : MapOrder) (now : Time) (consensus : Consensus)

def errorText : Error → String
  | .notFound => "pin is not part of the pinset"
  | .text message => message

/-- The CIDs that the cluster handles for a meta pin: the shards, the clusterDAG and the meta pin. -/
def cidsFromMetaPin (h : Cid) : Except Error (List Cid) × Consensus :=
  match consensus.getState with
  | (.error err, next) => (.error err, next)
  | (.ok cState, next) =>
    match cState.get h with
    | .error err => (.error err, next)
    | .ok pin =>
      if pin.type ≠ metaType then (.ok [h], next)
      else
        match pin.reference with
        | none => (.error (.text "metaPin.Reference is unset"), next)
        | some reference =>
          match pinGet next reference with
          | (.error err, next) =>
            (.error (.text ("could not get clusterDAG pin from state. Malformed pin?: " ++ errorText err)), next)
          | (.ok clusterDagPin, next) =>
            match ipfs.blockGet clusterDagPin.cid with
            | .error err => (.error (.text ("error reading clusterDAG block from ipfs: " ++ errorText err)), next)
            | .ok clusterDagBlock =>
              match cborDataToNode clusterDagPin.cid clusterDagBlock with
              | .error err => (.error (.text ("error parsing clusterDAG block: " ++ errorText err)), next)
              | .ok clusterDagNode =>
                (.ok ((clusterDagNode.links order).foldl (fun list l => l :: list) [reference, h]), next)

/-- Submit the removal of one CID after the other, up to the first failure. -/
def logUnpinAll : List Cid → Consensus → Option Error × Consensus
  | [], consensus => (none, consensus)
  | ci :: rest, consensus =>
    match consensus.logUnpin (pinCid ci now) with
    | (some err, next) => (some err, next)
    | (none, next) => logUnpinAll rest next

/-- Unpin the clusterDAG of a meta pin and the shards that it references. -/
def unpinClusterDag (metaPin : Pin) : Option Error × Consensus :=
  match cidsFromMetaPin ipfs order consensus metaPin.cid with
  | (.error err, next) => (some err, next)
  | (.ok cids, next) => logUnpinAll now cids next

def unpin (h : Cid) : (Pin × Option Error) × Consensus :=
  if c.config.followerMode then (({}, some errFollowerMode), consensus)
  else
    match pinGet consensus h with
    | (.error err, next) => (({}, some err), next)
    | (.ok pin, next) =>
      if pin.type = dataType then
        let (err, next) := next.logUnpin pin
        ((pin, err), next)
      else if pin.type = shardType then
        ((pin, some (.text "cannot unpin a shard directly. Unpin content root CID instead")), next)
      else if pin.type = metaType then
        match unpinClusterDag ipfs order now next pin with
        | (some err, next) => ((pin, some err), next)
        | (none, next) =>
          let (err, next) := next.logUnpin pin
          ((pin, err), next)
      else if pin.type = clusterDAGType then
        ((pin, some (.text "cannot unpin a Cluster DAG directly. Unpin content root CID instead")), next)
      else ((pin, some (.text "unrecognized pin type")), next)

end Cluster

/-- The operations of a cluster on its pinset, each served by some peer. -/
inductive ClusterEvent where
  | pin (peer : Cluster) (order : MapOrder) (now : Clock) (object : Pin) (blacklist : List PeerID)
  | pinUpdate (now : Clock) (source target : Cid) (opts : PinOptions)
  | unpin (peer : Cluster) (ipfs : BlockSource) (order : MapOrder) (now : Time) (h : Cid)

def operations : Machine.LabeledMachine Consensus ClusterEvent where
  step consensus
    | .pin peer order now object blacklist => some (peer.pin order now consensus object blacklist).2
    | .pinUpdate now source target opts => some (Cluster.pinUpdate now consensus source target opts).2
    | .unpin peer ipfs order now h => some (peer.unpin ipfs order now consensus h).2

end IpfsCluster.Model
