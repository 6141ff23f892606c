import IpfsCluster.Model.Cluster.Pin
import IpfsCluster.Model.PinTracker.Status

/-! # Statuses in the whole cluster

A peer that is asked for the status of a CID calls the peers that the pin is allocated to, and answers for the others:
they are remote. A call that fails is reported as an error of the cluster, except when the peer does not authorize it.

For the statuses of all pins, all members list those that match a filter, and the peer that is asked gathers them by
their CID as they arrive, in any order. When a listing fails, an error of the cluster is added for its peer to every CID
that was heard of. What the peers answer is a parameter.
-/

namespace IpfsCluster.Model

open Api Golang

structure PingValue where
  peername : String := ""
  ipfsid : PeerID := ""
  ipfsAddresses : List Multiaddr := []

inductive RpcError where
  | authorization (message : String)
  | other (message : String)
deriving DecidableEq

namespace RpcError

def error : RpcError → String
  | authorization message => message
  | other message => message

def isAuthorizationError : RpcError → Bool
  | authorization _ => true
  | other _ => false

end RpcError

def peersSubtract (a b : List PeerID) : List PeerID := a.filter fun p => !b.contains p

structure Collector where
  id : PeerID
  followerMode : Bool := false
  peers : Except Error (List PeerID)
  text : PeerID → String
  latestForPeer : String → PeerID → Metric
  pingValueFromMetric : Metric → PingValue

def pingMetricName : String := "ping"

namespace Collector

variable (c : Collector)

def pingValue (p : PeerID) : PingValue := c.pingValueFromMetric (c.latestForPeer pingMetricName p)

/-- The status that the collector gives to a peer by itself. -/
def trackerStatusInfo (h : Cid) (p : PeerID) (status : TrackerStatus) (pin : Pin) (t : Time) (error : String) :
    PinInfo :=
  let pv := c.pingValue p
  { cid := h, name := pin.name, allocations := pin.allocations, origins := pin.origins, created := pin.timestamp,
    metadata := pin.metadata, peer := p, peerName := pv.peername, ipfs := pv.ipfsid,
    ipfsAddresses := pv.ipfsAddresses, status := status, ts := t, error := error }

def setTrackerStatus (gpin : GlobalPinInfo) (h : Cid) (peers : List PeerID) (status : TrackerStatus) (pin : Pin)
    (t : Time) : GlobalPinInfo :=
  (peers.map fun p => c.trackerStatusInfo h p status pin t "").foldl (GlobalPinInfo.add c.text) gpin

/-- The members of the cluster; a follower only knows itself. -/
def members : Except Error (List PeerID) := if c.followerMode then .ok [c.id] else c.peers

/-- The peers that receive the request, and those that are remote for the pin. -/
def requestPeers (pin : Pin) : Except Error (List PeerID × List PeerID) :=
  if c.followerMode then .ok ([c.id], [])
  else do
    let members ← c.peers
    if !pin.isPinEverywhere then return (pin.allocations, peersSubtract members pin.allocations)
    else return (members, [])

def replyInfo (h : Cid) (pin : Pin) (t : Time) (dest : PeerID) : Except RpcError PinInfo → Option PinInfo
  | .ok reply => some reply
  | .error err =>
    if err.isAuthorizationError then none
    else some (c.trackerStatusInfo h dest TrackerStatus.clusterError pin t err.error)

/-- The status of a CID, with the answers of the called peers in the order of the calls. -/
def globalPinInfoCid (now : Clock) (consensus : Consensus) (answers : ℕ → Except RpcError PinInfo) (h : Cid) :
    Except Error GlobalPinInfo :=
  let timeNow := now 0
  match (Cluster.pinGet consensus h).1 with
  | .error .notFound => do
    let members ← c.members
    return c.setTrackerStatus {} h members TrackerStatus.unpinned (pinCid h (now 1)) timeNow
  | .error err => .error err
  | .ok pin => do
    let gpin : GlobalPinInfo := { cid := h, name := pin.name }
    let (dests, remote) ← c.requestPeers pin
    let gpin := c.setTrackerStatus gpin h remote TrackerStatus.remote pin timeNow
    let replies := dests.zipIdx.filterMap fun (dest, i) => c.replyInfo h pin timeNow dest (answers i)
    return replies.foldl (GlobalPinInfo.add c.text) gpin

end Collector

structure PinTrackers where
  status : PeerID → Cid → Except RpcError PinInfo
  statusAll : PeerID → TrackerStatus → List PinInfo × Option RpcError

/-- A peer: its tracker, its copy of the state and its IPFS daemon. -/
structure TrackerNode where
  tracker : PinTracker.Tracker
  getState : Except String DsState
  ipfs : IpfsConn.Connector
  ipfsid : IPFSID := {}

/-- The answers of peers that can all be called. -/
def PinTrackers.ofNodes (nodes : PeerID → TrackerNode) (now : Time) : PinTrackers where
  status p h :=
    let node := nodes p
    .ok (node.tracker.status node.getState node.ipfs node.ipfsid now h)
  statusAll p filter :=
    let node := nodes p
    let (infos, err) := node.tracker.statusAll node.getState node.ipfs node.ipfsid filter
    (infos, err.map .other)

namespace Collector

variable (c : Collector) (order : MapOrder) (now : Clock)

def statusDests (consensus : Consensus) (h : Cid) : List PeerID :=
  match (Cluster.pinGet consensus h).1 with
  | .error _ => []
  | .ok pin =>
    match c.requestPeers pin with
    | .error _ => []
    | .ok (dests, _) => dests

def status (consensus : Consensus) (trackers : PinTrackers) (h : Cid) : Except Error GlobalPinInfo :=
  let answers (i : ℕ) := match (c.statusDests consensus h)[i]? with
    | some dest => trackers.status dest h
    | none => .error (.other "not called")
  c.globalPinInfoCid now consensus answers h

def setPinInfo (fullMap : AList fun _ : Cid => GlobalPinInfo) (p : PinInfo) : AList fun _ : Cid => GlobalPinInfo :=
  if !p.cid.defined then fullMap
  else fullMap.insert p.cid (GlobalPinInfo.add c.text ((fullMap.lookup p.cid).getD {}) p)

/-- The members whose listing failed, except for those that do not authorize it. -/
def erroredPeers (listing : PeerID → List PinInfo × Option RpcError) (members : List PeerID) :
    AList fun _ : PeerID => String :=
  members.foldl (fun errored p =>
    match (listing p).2 with
    | none => errored
    | some err => if err.isAuthorizationError then errored else errored.insert p err.error) ∅

def erroredInfo (p : PeerID) (msg : String) (t : Time) (h : Cid) : PinInfo :=
  let pv := c.pingValue p
  { cid := h, peer := p, peerName := pv.peername, ipfs := pv.ipfsid, ipfsAddresses := pv.ipfsAddresses,
    status := TrackerStatus.clusterError, ts := t, error := msg }

def mergeErrors (fullMap : AList fun _ : Cid => GlobalPinInfo) (errored : (Σ _ : PeerID, String) × ℕ) :
    AList fun _ : Cid => GlobalPinInfo :=
  let (⟨p, msg⟩, i) := errored
  let cids := fullMap.keys.length
  (order.visit [2, i] fullMap.keys).zipIdx.foldl
    (fun fullMap (h, j) => c.setPinInfo fullMap (c.erroredInfo p msg (now (i * cids + j)) h)) fullMap

/-- Gather what the members list, in any order of arrival, and send it in the order of the map. -/
def globalPinInfoStream (listing : PeerID → List PinInfo × Option RpcError) : List GlobalPinInfo × Option Error :=
  match c.members with
  | .error err => ([], some err)
  | .ok members =>
    let fullMap := (order.visit [0] (members.flatMap fun p => (listing p).1)).foldl c.setPinInfo ∅
    let errored := order.visit [1] (erroredPeers listing members).entries
    let fullMap := errored.zipIdx.foldl (c.mergeErrors order now) fullMap
    ((order.visit [3] fullMap.entries).map fun entry => entry.2, none)

def statusAll (trackers : PinTrackers) (filter : TrackerStatus) : List GlobalPinInfo × Option Error :=
  c.globalPinInfoStream order now fun p => trackers.statusAll p filter

end Collector

end IpfsCluster.Model
