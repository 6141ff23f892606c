import IpfsCluster.Model.Cluster.Status

/-! # The handler of alerts

Of all peers, the one whose hashed ID is closest to the hashed CID does a task. The distance is the bytewise exclusive
or of the hashes; the hash function is a parameter, and a checker remembers the hashes of peer IDs.

A peer reads the alerts of its monitor in a loop: it records each alert, and when a peer stops sending pings, it repins
the pins of that peer that it is closest to. Each alert comes with what the peer sees at that moment: the peers of the
cluster, and after how many pins the listing of the state fails, if it does.
-/

namespace IpfsCluster.Model

open Api Golang

abbrev Distance := Vector (BitVec 8) 32

def xor (a b : Distance) : Distance := Vector.zipWith (· ^^^ ·) a b

/-- The checker of a peer, with the hashes of the peer IDs it has seen. -/
structure DistanceChecker where
  localPeer : PeerID
  otherPeers : List PeerID
  cache : AList (fun _ : PeerID => Distance) := ∅

section

variable (blake2b : String → Distance)

def convertKey (id : String) : Distance := blake2b id

namespace DistanceChecker

def convertPeerID (dc : DistanceChecker) (id : PeerID) : Distance × DistanceChecker :=
  match dc.cache.lookup id with
  | some hash => (hash, dc)
  | none =>
    let hashBytes := convertKey blake2b id
    (hashBytes, { dc with cache := dc.cache.insert id hashBytes })

/-- The loop over the other peers, left at the first one that is closer. -/
def noneCloser (ciHash myDistance : Distance) : List PeerID → DistanceChecker → Bool × DistanceChecker
  | [], dc => (true, dc)
  | p :: rest, dc =>
    let (peerHash, dc) := dc.convertPeerID blake2b p
    let distance := xor peerHash ciHash
    if compare myDistance distance = .gt then (false, dc) else noneCloser ciHash myDistance rest dc

def isClosest (dc : DistanceChecker) (ci : Cid) : Bool × DistanceChecker :=
  let ciHash := convertKey blake2b ci.bytes
  let (localPeerHash, dc) := dc.convertPeerID blake2b dc.localPeer
  noneCloser blake2b ciHash (xor ciHash localPeerHash) dc.otherPeers dc

def answers : DistanceChecker → List Cid → List Bool
  | _, [] => []
  | dc, ci :: rest =>
    let (closest, dc) := dc.isClosest blake2b ci
    closest :: dc.answers rest

end DistanceChecker

end

/-- What a peer knows of the cluster: itself, the peers of the consensus component and whom it trusts. -/
structure PeerView where
  id : PeerID
  peers : Except Error (List PeerID)
  isTrustedPeer : PeerID → Bool

namespace PeerView

variable (c : PeerView)

/-- The trusted peers, without the peer itself and the excluded one. -/
def getTrustedPeers (exclude : PeerID) : Except Error (List PeerID) := do
  let peers ← c.peers
  return peers.filter fun p => !(p == c.id || p == exclude || !c.isTrustedPeer p)

def distances (exclude : PeerID) : Except Error DistanceChecker := do
  let trustedPeers ← c.getTrustedPeers exclude
  return { localPeer := c.id, otherPeers := trustedPeers }

end PeerView

structure Alert extends Metric where
  triggeredAt : Time := Time.zero
deriving DecidableEq

def maxAlerts : ℕ := 1000

structure AlertsPeer where
  cluster : Cluster
  disableRepinning : Bool := false
  blake2b : String → Distance

/-- What the peer sees while it handles an alert; each repin has its own clock and map orders. -/
structure AlertView where
  peers : PeerView
  listFails : Option ℕ := none
  order : ℕ → MapOrder := fun _ => .stored
  now : ℕ → Clock

structure AlertsHandler where
  returned : Bool := false
  alerts : List Alert := []
  consensus : Consensus := {}
  repinned : List (PeerID × Pin) := []

namespace AlertsHandler

variable (p : AlertsPeer) (view : AlertView)

/-- Record an alert; when there are too many, the old ones are dropped first. -/
def record (h : AlertsHandler) (alrt : Alert) : AlertsHandler :=
  { h with alerts := (if h.alerts.length > maxAlerts then [] else h.alerts) ++ [alrt] }

def listed (st : DsState) : List Pin :=
  match view.listFails with
  | none => st.list
  | some sent => st.list.take sent

def repinListed (peer : PeerID) : ℕ → List Pin → DistanceChecker → AlertsHandler → AlertsHandler
  | _, [], _, h => h
  | n, pin :: rest, distance, h =>
    if pin.allocations.contains peer then
      let (closest, distance) := distance.isClosest p.blake2b pin.cid
      if closest then
        repinListed peer (n + 1) rest distance
          { h with
            consensus := p.cluster.repinFromPeer (view.order n) (view.now n) h.consensus peer pin
            repinned := h.repinned ++ [(peer, pin)] }
      else repinListed peer (n + 1) rest distance h
    else repinListed peer (n + 1) rest distance h

def alertsHandler (h : AlertsHandler) (alrt : Alert) : AlertsHandler :=
  if p.cluster.config.followerMode then h
  else
    let h := h.record alrt
    if alrt.name ≠ pingMetricName then h
    else if p.disableRepinning then { h with returned := true }
    else
      match h.consensus.getState with
      | (.error _, next) => { h with consensus := next, returned := true }
      | (.ok cState, next) =>
        match view.peers.distances alrt.peer with
        | .error _ => { h with consensus := next, returned := true }
        | .ok distance =>
          repinListed p view alrt.peer 0 (listed view cState) distance { h with consensus := next }

end AlertsHandler

/-- What happens to the handler; the shared state also changes elsewhere. -/
inductive AlertsEvent where
  | alert (alrt : Alert) (view : AlertView)
  | elsewhere (consensus : Consensus)
  | done

/-- The handler takes alerts until it returns; it returns when the context is done. -/
def alertsLoop (p : AlertsPeer) : Machine.LabeledMachine AlertsHandler AlertsEvent where
  step h
    | .alert alrt view => if h.returned then none else some (h.alertsHandler p view alrt)
    | .elsewhere consensus => some { h with consensus := consensus }
    | .done => if h.returned then none else some { h with returned := true }

end IpfsCluster.Model
