import IpfsCluster.Model.Allocator.Balanced

/-! # Allocation of pins to peers

`allocate` reads the metrics that the allocator asks for, sorts out which peers may be used, and
decides between dropping, keeping and extending the current allocations. The peers of the monitor,
the trusted peers and the configuration are fields of the cluster. A metric view carries what
`LatestMetrics` promises: the metrics of a name have that name, and each peer has at most one.
-/

namespace IpfsCluster.Model

open Api Golang

/-- The answers of the monitor, one metric per peer and name. -/
structure MetricView where
  latestMetrics : String → List Metric
  named : ∀ name, ∀ m ∈ latestMetrics name, m.name = name
  onePerPeer : ∀ name, ((latestMetrics name).map (·.peer)).Nodup

/-- The part of the configuration that decides how pins are handled. -/
structure Cluster.Config where
  followerMode : Bool := false
  replicationFactorMin : ℤ := -1
  replicationFactorMax : ℤ := -1
  pinOnlyOnTrustedPeers : Bool := false
  pinOnlyOnUntrustedPeers : Bool := false

structure Cluster where
  config : Cluster.Config := {}
  allocateBy : List String
  monitor : MetricView
  isTrustedPeer : PeerID → Bool

structure ClassifiedMetrics where
  current : MetricsSet
  currentPeers : List PeerID
  candidate : MetricsSet
  candidatePeers : List PeerID
  priority : MetricsSet
  priorityPeers : List PeerID

/-- The metrics gathered so far for each group of peers. -/
structure PeersMaps where
  cur : AList (fun _ : PeerID => List Metric) := ∅
  cand : AList (fun _ : PeerID => List Metric) := ∅
  prio : AList (fun _ : PeerID => List Metric) := ∅

namespace Cluster

variable (c : Cluster) (order : MapOrder)

/-- The switch of `filterMetrics`: the first case that applies decides. -/
def classify (currentAllocs priorityList blacklist : List PeerID) (maps : PeersMaps) (m : Metric) : PeersMaps :=
  if blacklist.contains m.peer then maps
  else if c.config.pinOnlyOnTrustedPeers && !c.isTrustedPeer m.peer then maps
  else if c.config.pinOnlyOnUntrustedPeers && c.isTrustedPeer m.peer then maps
  else if currentAllocs.contains m.peer then { maps with cur := maps.cur.appendAt m.peer m }
  else if priorityList.contains m.peer then { maps with prio := maps.prio.appendAt m.peer m }
  else { maps with cand := maps.cand.appendAt m.peer m }

/-- Keep the peers that have as many metrics as there are informers. -/
def fillMetricsSet (site : List ℕ) (numMetrics : ℕ) (peersMap : AList (fun _ : PeerID => List Metric)) :
    MetricsSet × List PeerID :=
  (order.visit site peersMap.entries).foldl (fun (set, peers) entry =>
    if entry.2.length = numMetrics then
      (entry.2.foldl (fun set m => MetricsSet.append set m.name m) set, peers ++ [entry.1])
    else (set, peers)) (∅, [])

def filterMetrics (mSet : MetricsSet) (numMetrics : ℕ) (currentAllocs priorityList blacklist : List PeerID) :
    ClassifiedMetrics :=
  let maps := (order.visit [4] mSet.entries).foldl
    (fun maps entry => entry.2.foldl (c.classify currentAllocs priorityList blacklist) maps) {}
  let (curSet, curPeers) := fillMetricsSet order [5] numMetrics maps.cur
  let (candSet, candPeers) := fillMetricsSet order [6] numMetrics maps.cand
  let (prioSet, prioPeers) := fillMetricsSet order [7] numMetrics maps.prio
  { current := curSet, currentPeers := curPeers
    candidate := candSet, candidatePeers := candPeers
    priority := prioSet, priorityPeers := prioPeers }

/-- The text of the error; the peers themselves are only logged. -/
def allocationError (needed wanted : ℤ) (candidatesValid : List PeerID) : Error :=
  .text ("not enough peers to allocate CID. " ++ s!"Needed at least: {needed}. " ++
    s!"Wanted at most: {wanted}. " ++ s!"Available candidates: {candidatesValid.length}. " ++
    "See logs for more info.")

/-- Above the maximum some allocations are dropped; between the bounds the answer is the nil slice,
that is, there is nothing to do. Otherwise the allocator orders the available peers. -/
def obtainAllocations (rplMin rplMax : ℤ) (metrics : ClassifiedMetrics) : Except Error (Option (List PeerID)) :=
  let nCurrentValid : ℤ := metrics.currentPeers.length
  let nAvailableValid : ℤ := metrics.candidatePeers.length + metrics.priorityPeers.length
  let needed := rplMin - nCurrentValid
  let wanted := rplMax - nCurrentValid
  if wanted < 0 then .ok (some (metrics.currentPeers.take (nCurrentValid + wanted).toNat))
  else if needed ≤ 0 then .ok none
  else if nAvailableValid < needed then
    .error (allocationError needed wanted (metrics.priorityPeers ++ metrics.candidatePeers))
  else
    match Allocator.allocate order c.allocateBy metrics.candidate metrics.priority with
    | .error err => .error err
    | .ok finalAllocs =>
      if (finalAllocs.length : ℤ) < needed then .error (allocationError needed wanted finalAllocs)
      else
        let allocationsToUse := min wanted finalAllocs.length
        .ok (some (metrics.currentPeers ++ finalAllocs.take allocationsToUse.toNat))

def currentAllocs (currentPin : Pin) : List PeerID :=
  if currentPin.defined then currentPin.allocations else []

def metricsSet : MetricsSet :=
  c.allocateBy.foldl (fun mSet metricName => mSet.insert metricName (c.monitor.latestMetrics metricName)) ∅

/-- Negative factors mean "everywhere", which has no allocations. -/
def allocate (currentPin : Pin) (rplMin rplMax : ℤ) (blacklist priorityList : List PeerID) :
    Except Error (List PeerID) :=
  if rplMin + rplMax = 0 then .error (.text s!"bad replication factors: {rplMin}/{rplMax}")
  else if rplMin < 0 ∧ rplMax < 0 then .ok []
  else
    let currentAllocs := currentAllocs currentPin
    let classified := c.filterMetrics order c.metricsSet c.allocateBy.length currentAllocs priorityList blacklist
    match c.obtainAllocations order rplMin rplMax classified with
    | .error err => .error err
    | .ok newAllocs => .ok (newAllocs.getD currentAllocs)

end Cluster

end IpfsCluster.Model
