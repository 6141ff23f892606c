import IpfsCluster.Golang.Ring
import IpfsCluster.Model.Api.Types

/-! # The store of metrics

The monitor keeps the last metrics of each name and peer in a circular window. A window that has room
left and one that overwrites its oldest metric are the same to the code: it writes at the cursor and
moves on. Removing a peer forgets its windows. The clock is read when a metric is added, and when it is
checked whether the metric of a peer has expired.
-/

namespace IpfsCluster.Model

open Api Golang

namespace Api.Metric

variable (m : Metric)

def defined : Bool := m.name != ""

def expired (now : ℤ) : Bool := now > m.expire

/-- Whether the metric is not valid or has expired. -/
def discard (now : ℤ) : Bool := !m.valid || m.expired now

/-- The order of the peers; metrics of one peer go by their expiry. -/
def less (other : Metric) : Bool :=
  if m.peer = other.peer then m.expire < other.expire else m.peer < other.peer

end Api.Metric

namespace Metrics

def zeroMetric : Metric := { name := "", peer := "", valid := false }

def defaultWindowCap : ℕ := 25

instance : NeZero defaultWindowCap := ⟨by decide⟩

structure Window (windowCap : ℕ := defaultWindowCap) where
  window : Ring Metric windowCap

namespace Window

variable {windowCap : ℕ} [NeZero windowCap] (mw : Window windowCap)

def newWindow : Window windowCap := ⟨Ring.new Metric windowCap⟩

/-- Write at the cursor and leave the cursor on the next spot, which is empty or the oldest record. -/
def add (m : Metric) (now : ℤ) : Window windowCap :=
  let m := { m with receivedAt := now }
  ⟨(mw.window.setValue m).next⟩

/-- The last metric added; none when there is no metric, or its name is not set. -/
def latest : Option Metric :=
  match mw.window.prev.value with
  | none => none
  | some last => if !last.defined then none else some last

omit [NeZero windowCap] in
/-- All the metrics, in the inverse order they were added. -/
def all : List Metric :=
  mw.window.visited.foldl (fun values v => match v with | some i => i :: values | none => values) []

def after (windowCap : ℕ) [NeZero windowCap] (adds : List (Metric × ℤ)) : Window windowCap :=
  adds.foldl (fun mw (m, now) => mw.add m now) newWindow

end Window

def peersetFilter (metrics : List Metric) (peerset : List PeerID) : List Metric :=
  metrics.filter fun metric => peerset.contains metric.peer

abbrev PeerMetrics := AList (fun _ : PeerID => Window)

structure Store where
  byName : AList (fun _ : String => PeerMetrics) := ∅

namespace Store

variable (mtrs : Store)

/-- Insert a new metric, in a new window if the peer has none. -/
def add (m : Metric) (now : ℤ) : Store :=
  let mbyp := (mtrs.byName.lookup m.name).getD ∅
  let window := (mbyp.lookup m.peer).getD Window.newWindow
  { byName := mtrs.byName.insert m.name (mbyp.insert m.peer (window.add m now)) }

def removePeer (pid : PeerID) : Store where
  byName := mtrs.byName.mapValues fun metrics => metrics.erase pid

/-- Remove the metrics of a name for a peer; nothing is deleted from a map that is not there. -/
def removePeerMetrics (pid : PeerID) (name : String) : Store :=
  match mtrs.byName.lookup name with
  | none => mtrs
  | some metrics => { byName := mtrs.byName.insert name (metrics.erase pid) }

def validMetric (now : PeerID → ℤ) (entry : Sigma fun _ : PeerID => Window) : Option Metric :=
  match entry.2.latest with
  | none => none
  | some m => if m.discard (now entry.1) then none else some m

/-- The last known valid metrics of a name; the clock is read for each peer. -/
def latestValid (order : MapOrder) (now : PeerID → ℤ) (name : String) : List Metric :=
  match mtrs.byName.lookup name with
  | none => []
  | some byPeer =>
    let metrics := (order.visit [] byPeer.entries).filterMap (validMetric now)
    metrics.insertionSort fun a b => b.less a = false

/-- The latest metrics of all peers and names that are valid; they may have expired. -/
def allMetrics (order : MapOrder) : List Metric :=
  (order.visit [] mtrs.byName.entries).zipIdx.flatMap fun (byPeer, i) =>
    (order.visit [i] byPeer.2.entries).filterMap fun entry =>
      match entry.2.latest with
      | none => none
      | some metric => if !metric.valid then none else some metric

def peerMetricAll (name : String) (pid : PeerID) : List Metric :=
  match mtrs.byName.lookup name with
  | none => []
  | some byPeer =>
    match byPeer.lookup pid with
    | none => []
    | some window => window.all

def peerLatest (name : String) (pid : PeerID) : Metric :=
  match mtrs.byName.lookup name with
  | none => zeroMetric
  | some byPeer =>
    match byPeer.lookup pid with
    | none => zeroMetric
    | some window => window.latest.getD zeroMetric

def metricNames (order : MapOrder) : List String := order.visit [] mtrs.byName.keys

/-- The metrics of the peers in the current peerset, if there is a provider for it. -/
def latestMetrics (order : MapOrder) (now : PeerID → ℤ) (peers : Option (Except Error (List PeerID))) (name : String) :
    List Metric :=
  let latest := mtrs.latestValid order now name
  match peers with
  | none => latest
  | some (.error _) => []
  | some (.ok peers) => peersetFilter latest peers

end Store

/-- The calls that change the store, with their readings of the clock. -/
inductive Call where
  | add (m : Metric) (now : ℤ)
  | removePeer (pid : PeerID)
  | removePeerMetrics (pid : PeerID) (name : String)

def Store.apply (mtrs : Store) : Call → Store
  | .add m now => mtrs.add m now
  | .removePeer pid => mtrs.removePeer pid
  | .removePeerMetrics pid name => mtrs.removePeerMetrics pid name

def Store.after (calls : List Call) : Store := calls.foldl Store.apply {}

end Metrics

end IpfsCluster.Model
