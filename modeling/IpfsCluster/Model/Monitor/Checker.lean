import IpfsCluster.Golang.Chan
import IpfsCluster.Machine.Run
import IpfsCluster.Model.Monitor.Metrics

/-! # Alerts for expired metrics

The checker goes through the metrics of peers and sends an alert on a channel when the latest one has expired. It counts
the failures of each peer and name so that alerts are not repeated. A channel that is full makes it give up. Meanwhile
alerts may be received from the channel; the store of metrics is not changed.
-/

namespace IpfsCluster.Model.Metrics

open Api Golang Machine

def alertChannelCap : ℕ := 256

/-- How many alerts are sent for a metric of a peer. -/
def maxAlertThreshold : ℤ := 1

structure Alert where
  metric : Metric
  triggeredAt : ℤ

inductive CheckError where
  | alertChannelFull
deriving DecidableEq

structure Checker where
  alertCh : Chan Alert
  failedPeers : AList fun _ : PeerID => AList fun _ : String => ℤ

/-- What happens at one metric of a check: the readings of the clock, and how many alerts are received before. -/
structure Moment where
  checked : ℤ
  triggered : ℤ
  received : ℕ

namespace Checker

def newChecker : Checker := ⟨Chan.make alertChannelCap, ∅⟩

variable (mc : Checker) (metrics : Store)

/-- Keep the failures of a peer, unless none are left. -/
def setFailed (pid : PeerID) (failedMetrics : AList fun _ : String => ℤ) : Checker :=
  { mc with
    failedPeers :=
      if failedMetrics.entries.length = 0 then mc.failedPeers.erase pid else mc.failedPeers.insert pid failedMetrics }

def resetAlerts (pid : PeerID) (metricName : String) : Checker :=
  match mc.failedPeers.lookup pid with
  | none => mc
  | some failedMetrics => mc.setFailed pid (failedMetrics.erase metricName)

def failedMetric (metric : String) (pid : PeerID) (now : ℤ) : Bool := (metrics.peerLatest metric pid).expired now

/-- Count a failure, and send an alert unless that was done before. Failures are forgotten when there are many. -/
def alert (pid : PeerID) (metricName : String) (now : ℤ) : Option CheckError × Option Alert × Checker :=
  let failedMetrics := (mc.failedPeers.lookup pid).getD ∅
  let lastMetric := metrics.peerLatest metricName pid
  let lastMetric :=
    if !lastMetric.defined then { zeroMetric with name := metricName, peer := pid } else lastMetric
  let failures := (failedMetrics.lookup metricName).getD 0 + 1
  let failedMetrics := failedMetrics.insert metricName failures
  if failures > maxAlertThreshold then
    if failures ≥ 300 then (none, none, mc.setFailed pid (failedMetrics.erase metricName))
    else (none, none, { mc with failedPeers := mc.failedPeers.insert pid failedMetrics })
  else
    let mc := { mc with failedPeers := mc.failedPeers.insert pid failedMetrics }
    let alrt := { metric := lastMetric, triggeredAt := now }
    match mc.alertCh.trySend alrt with
    | none => (some .alertChannelFull, none, mc)
    | some alertCh => (none, some alrt, { mc with alertCh })

/-- Check metrics one after the other, from some moment on. The alerts that were sent are returned as well. -/
def check (moments : ℕ → Moment) : ℕ → List (PeerID × String) → Checker → Option CheckError × List Alert × Checker
  | _, [], mc => (none, [], mc)
  | i, (peer, name) :: rest, mc =>
    let mc := { mc with alertCh := mc.alertCh.receive (moments i).received }
    if failedMetric metrics name peer (moments i).checked then
      match mc.alert metrics peer name (moments i).triggered with
      | (some err, _, mc) => (some err, [], mc)
      | (none, sent, mc) =>
        let (err, more, mc) := check moments (i + 1) rest mc
        (err, sent.toList ++ more, mc)
    else check moments (i + 1) rest mc

/-- The metrics that are checked for some peers: all that are kept for each name and peer. -/
def checkedMetrics (order : MapOrder) (peers : List PeerID) : List (PeerID × String) :=
  (metrics.metricNames order).flatMap fun name =>
    peers.flatMap fun peer => (metrics.peerMetricAll name peer).map fun metric => (peer, metric.name)

def checkPeers (order : MapOrder) (moments : ℕ → Moment) (peers : List PeerID) :
    Option CheckError × List Alert × Checker :=
  check metrics moments 0 (checkedMetrics metrics order peers) mc

def checkAll (order : MapOrder) (moments : ℕ → Moment) : Option CheckError × List Alert × Checker :=
  check metrics moments 0 ((metrics.allMetrics order).map fun metric => (metric.peer, metric.name)) mc

end Checker

structure Monitor where
  metrics : Store := {}
  checker : Checker := .newChecker

inductive MonitorEvent where
  | store (call : Call)
  | receive (count : ℕ)
  | resetAlerts (pid : PeerID) (metricName : String)
  | checkPeers (order : MapOrder) (moments : ℕ → Moment) (peers : List PeerID)
  | checkAll (order : MapOrder) (moments : ℕ → Moment)

def monitoring : LabeledMachine Monitor MonitorEvent where
  step s
    | .store call => some { s with metrics := s.metrics.apply call }
    | .receive count => some { s with checker.alertCh := s.checker.alertCh.receive count }
    | .resetAlerts pid metricName => some { s with checker := s.checker.resetAlerts pid metricName }
    | .checkPeers order moments peers =>
      some { s with checker := (s.checker.checkPeers s.metrics order moments peers).2.2 }
    | .checkAll order moments => some { s with checker := (s.checker.checkAll s.metrics order moments).2.2 }

end IpfsCluster.Model.Metrics
