import IpfsCluster.Proofs.Cluster.Allocate
import IpfsCluster.Proofs.Monitor.Checker

/-! # Metrics and alerts

What `LatestValid` reports is exactly what was last added for a peer and not removed since, if it is still valid. A
failure is counted before the alert for it is sent, so that an alert is lost when the channel is full.
-/

namespace IpfsCluster.Soundness

open Model Model.Api Model.Metrics Golang Proofs.Monitor List Machine.LabeledMachine Checker Store

theorem mostRecent_own {calls : List Call} {name : String} {peer : PeerID} {m : Metric}
    (recent : MostRecent calls name peer m) : m.name = name ∧ m.peer = peer := by
  obtain ⟨before, added, now, after, -, sameName, samePeer, rfl, -⟩ := recent
  exact ⟨sameName, samePeer⟩

theorem latestValid_sorted_after (calls : List Call) (order : MapOrder) (now : PeerID → ℤ) (name : String) :
    ((after calls).latestValid order now name).Pairwise fun a b => a.peer < b.peer :=
  latestValid_sorted fun _ _ found => (mostRecent_own (recent_after_iff.mp found)).2

/-- After any calls, `LatestValid` reports the most recent metric of every peer that has one for the name, the
name not being empty and the metric not to be discarded, sorted by peer and no peer twice. -/
theorem latestValid_exact (calls : List Call) (order : MapOrder) (now : PeerID → ℤ) (name : String) :
    (∀ m, m ∈ (after calls).latestValid order now name ↔
      name ≠ "" ∧ MostRecent calls name m.peer m ∧ m.discard (now m.peer) = false) ∧
      ((after calls).latestValid order now name).Pairwise fun a b => a.peer < b.peer := by
  constructor
  · intro m
    rw [mem_latestValid_iff]
    constructor
    · rintro ⟨peer, found, named, kept⟩
      have recent := recent_after_iff.mp found
      obtain ⟨rfl, rfl⟩ := mostRecent_own recent
      exact ⟨bne_iff_ne.mp named, recent, kept⟩
    · rintro ⟨named, recent, kept⟩
      obtain ⟨rfl, -⟩ := mostRecent_own recent
      exact ⟨m.peer, recent_after_iff.mpr recent, bne_iff_ne.mpr named, kept⟩
  · exact latestValid_sorted_after calls order now name

theorem latestValid_omits_unnamed : MostRecent [.add { name := "", peer := "a", expire := 10 } 1] "" "a"
        { name := "", peer := "a", expire := 10, receivedAt := 1 } ∧
      Metric.discard { name := "", peer := "a", expire := 10, receivedAt := 1 } 2 = false ∧
      (after [.add { name := "", peer := "a", expire := 10 } 1]).latestValid .stored (fun _ => 2) "" = [] := by
  refine ⟨⟨[], _, 1, [], rfl, rfl, rfl, rfl, fun _ member => nomatch member⟩, by decide, rfl⟩

section

variable {calls : List Call} {order : MapOrder} {now : PeerID → ℤ} {peers : Option (Except Error (List PeerID))}

theorem latestMetrics_sublist (name : String) : ((after calls).latestMetrics order now peers name).Sublist
    ((after calls).latestValid order now name) := by
  unfold latestMetrics
  split
  · exact .refl _
  · exact nil_sublist _
  · exact filter_sublist

theorem mostRecent_of_reported {name : String} {m : Metric}
    (reported : m ∈ (after calls).latestMetrics order now peers name) :
    m.name = name ∧ MostRecent calls name m.peer m ∧ m.discard (now m.peer) = false := by
  obtain ⟨peer, found, -, kept⟩ := mem_latestValid_iff.mp ((latestMetrics_sublist name).subset reported)
  have recent := recent_after_iff.mp found
  obtain ⟨sameName, rfl⟩ := mostRecent_own recent
  exact ⟨sameName, recent, kept⟩

/-- What a cluster sees of a monitor after some calls. -/
def viewAfter (calls : List Call) (order : MapOrder) (now : PeerID → ℤ)
    (peers : Option (Except Error (List PeerID))) : MetricView where
  latestMetrics := (after calls).latestMetrics order now peers
  named name m reported := (mostRecent_of_reported reported).1
  onePerPeer name := by
    rw [List.Nodup, pairwise_map]
    exact ((latestValid_sorted_after calls order now name).sublist (latestMetrics_sublist name)).imp ne_of_lt

/-- After any calls of the monitor, and whatever the current allocations are: a peer that is added to them is in the
current peerset, if it is provided, and its most recent metric of every name that the allocator asks for was not removed
since and is valid. -/
theorem allocated_to_live_peers {c : Cluster} (monitored : c.monitor = viewAfter calls order now peers)
    (distinct : c.allocateBy.Nodup) {visits : MapOrder} {currentPin : Pin} {rplMin rplMax : ℤ}
    {blacklist priorityList result : List PeerID} (positive : 0 < rplMin) (ordered : rplMin ≤ rplMax)
    (returned : c.allocate visits currentPin rplMin rplMax blacklist priorityList = .ok result) {peer : PeerID}
    (member : peer ∈ result) (added : peer ∉ Cluster.currentAllocs currentPin) :
    (∀ provided, peers = some provided → ∃ peerset, provided = .ok peerset ∧ peer ∈ peerset) ∧
      ∀ name ∈ c.allocateBy, ∃ m, MostRecent calls name peer m ∧ m.discard (now peer) = false := by
  obtain ⟨cur, prio, cand, groups, outcome⟩ :=
    Proofs.Cluster.allocate_outcome c currentPin blacklist priorityList visits distinct positive ordered
  have isValid : peer ∈ Proofs.Cluster.validPeers c blacklist := by
    rw [returned] at outcome
    cases outcome with
    | drop above => exact ((groups.mem_cur peer).mp (mem_of_mem_take member)).1
    | keep enough below => exact (added member).elim
    | extend first last below fromPrio fromCand => exact (groups.extension fromPrio fromCand _).2 peer member
  obtain ⟨names, valid⟩ := (Proofs.Cluster.mem_validPeers peer).mp isValid
  have seen (name : String) (asked : name ∈ c.allocateBy) :
      ∃ m ∈ (after calls).latestMetrics order now peers name, m.peer = peer := by
    have holds := valid.holdsAll name asked
    rw [monitored] at holds
    exact mem_map.mp holds
  constructor
  · rintro provided rfl
    obtain ⟨name, asked⟩ := exists_mem_of_ne_nil _ names
    obtain ⟨m, reported, rfl⟩ := seen name asked
    cases provided with
    | error err => cases reported
    | ok peerset => exact ⟨peerset, rfl, contains_iff_mem.mp (mem_filter.mp reported).2⟩
  · intro name asked
    obtain ⟨m, reported, rfl⟩ := seen name asked
    exact ⟨m, (mostRecent_of_reported reported).2⟩

end

def twoPings : List Call :=
  [.add { name := "ping", peer := "a", expire := 10 } 1, .add { name := "ping", peer := "b", expire := 10 } 1]

theorem allocated_to_live_peers_two : (∃ m, MostRecent twoPings "ping" "a" m ∧ m.discard 2 = false) ∧
    ∃ m, MostRecent twoPings "ping" "b" m ∧ m.discard 2 = false := by
  let c : Cluster :=
    { allocateBy := ["ping"], isTrustedPeer := fun _ => true
      monitor := viewAfter twoPings .stored (fun _ => 2) (some (.ok ["a", "b"])) }
  have returned : c.allocate .stored {} 2 2 [] [] = .ok ["b", "a"] := by decide +kernel
  have live (peer : PeerID) (member : peer ∈ ["b", "a"]) :=
    (allocated_to_live_peers (c := c) rfl (by decide) (by decide) (by decide) returned member not_mem_nil).2 "ping"
      mem_cons_self
  exact ⟨live "a" (.tail _ mem_cons_self), live "b" mem_cons_self⟩

section

variable {windowCap : ℕ} [NeZero windowCap] {adds : List (Metric × ℤ)}

/-- A window of any capacity shows the items of a bounded queue to which the metrics were pushed: the last of
them that fit, newest first. The latest one is the one added last, and there is none only if none was added. -/
theorem window_refines_queue (named : ∀ add ∈ adds, add.1.defined = true) : (Window.after windowCap adds).all =
        ((adds.map received).foldl BoundedQueue.push (.empty Metric windowCap)).items ∧
      (Window.after windowCap adds).all = (adds.reverse.take (min adds.length windowCap)).map received ∧
      (Window.after windowCap adds).latest = adds.getLast?.map received ∧
      ((Window.after windowCap adds).latest = none ↔ adds.length = 0) := by
  have latest : (Window.after windowCap adds).latest = adds.getLast?.map received := by
    rw [latest_after, getLast?_map]
    cases found : adds.getLast? with
    | none => rfl
    | some add => exact if_pos (named add (mem_of_getLast? found))
  refine ⟨?_, ?_, latest, ?_⟩
  · rw [all_after, BoundedQueue.items_foldl_push]
  · rw [all_after, ← map_reverse, ← map_take, ← length_reverse, min_comm, ← take_take, take_length]
  · rw [latest, Option.map_eq_none_iff, getLast?_eq_none_iff, length_eq_zero_iff]

theorem window_refines_queue_three :
    (Window.after 2 [({ name := "ping", peer := "a" }, 1), ({ name := "ping", peer := "b" }, 2),
        ({ name := "ping", peer := "c" }, 3)]).all =
      [{ name := "ping", peer := "c", receivedAt := 3 }, { name := "ping", peer := "b", receivedAt := 2 }] :=
  (window_refines_queue (by decide)).2.1

end

/-- What holds of a checker in all histories. -/
structure Intact (mc : Checker) : Prop where
  inRange : (failures mc).InRange
  isOpen : mc.alertCh.closed = false
  capacity : mc.alertCh.capacity = alertChannelCap

variable {mc : Checker}

section

variable (intact : Intact mc)

include intact

theorem Intact.receive (count : ℕ) : Intact { mc with alertCh := mc.alertCh.receive count } := { intact with }

theorem Intact.alerted {metrics : Store} {pid : PeerID} {name : String}
    {result : Option CheckError × Option Metrics.Alert × Checker} (alerted : Alerted mc metrics pid name result) :
    Intact result.2.2 := by
  have bumped := intact.inRange.bump (pid, name)
  cases alerted with
  | suppressed _ counted channel | full _ counted channel _ =>
    exact ⟨counted ▸ bumped, channel ▸ intact.isOpen, channel ▸ intact.capacity⟩
  | sent first counted metric channel =>
    obtain ⟨-, isOpen, capacity⟩ := Chan.trySend_eq_some channel
    exact ⟨counted ▸ bumped, isOpen, capacity.trans intact.capacity⟩

theorem Intact.resetAlerts (pid : PeerID) (name : String) : Intact (mc.resetAlerts pid name) where
  inRange key := by
    rw [failures_resetAlerts]
    by_cases same : key = (pid, name)
    · rw [same, Function.update_self]
      decide
    · rw [Function.update_of_ne same]
      exact intact.inRange key
  isOpen := by
    rw [Checker.resetAlerts]
    split <;> exact intact.isOpen
  capacity := by
    rw [Checker.resetAlerts]
    split <;> exact intact.capacity

variable {moments : ℕ → Moment}

theorem Intact.check {metrics : Store} {i : ℕ} {keys : List (PeerID × String)} :
    Intact (check metrics moments i keys mc).2.2 :=
  (checked_of_check i keys mc).invariant Intact (fun _ count held => held.receive count)
    (fun _ _ _ _ held alerted => held.alerted alerted) intact

end

variable {history : List MonitorEvent}

theorem monitored_of_run {s : Monitor} (ran : monitoring.run {} history = some s) :
    Own s.metrics ∧ Intact s.checker := by
  refine invariant_of_run (fun s => Own s.metrics ∧ Intact s.checker) ?_ ⟨?_, ?_⟩ ran
  · rintro s event next ⟨own, intact⟩ step
    cases event with
    | store call =>
      cases step
      exact ⟨own.apply call, intact⟩
    | receive count =>
      cases step
      exact ⟨own, intact.receive count⟩
    | resetAlerts pid metricName =>
      cases step
      exact ⟨own, intact.resetAlerts pid metricName⟩
    | checkPeers | checkAll =>
      cases step
      exact ⟨own, intact.check⟩
  · intro name pid m member
    cases member
  · exact ⟨fun _ => ⟨le_refl (0 : ℤ), show (0 : ℤ) < 300 by decide⟩, rfl, rfl⟩

/-- After any history, a call of `CheckPeers` that fails has sent the alerts that were due before one of the expired
metrics, and has counted the failure of that metric without an alert, as if one had been sent. -/
theorem counted_of_full {s : Monitor} (ran : monitoring.run {} history = some s) {order : MapOrder}
    {peers : List PeerID} (full : (s.checker.checkPeers s.metrics order moments peers).1 ≠ none) : ∃ before key after,
      failing s.metrics moments 0 (checkedMetrics s.metrics order peers) = before ++ key :: after ∧
      (s.checker.checkPeers s.metrics order moments peers).2.1.map about = (failures s.checker).due before ∧
      failures (s.checker.checkPeers s.metrics order moments peers).2.2 key = 1 :=
  (checked_of_check 0 _ s.checker).of_full (monitored_of_run ran).1 (monitored_of_run ran).2.inRange full

def pendingAlerts (s : Monitor) (order : MapOrder) (moments : ℕ → Moment) (peers : List PeerID) :
    List (PeerID × String) :=
  (failures s.checker).due (failing s.metrics moments 0 (checkedMetrics s.metrics order peers))

/-- After any history, a call of `CheckPeers` for which the channel has room for all pending alerts sends one for a
metric of a peer that is expired all the time, exactly if no failure is counted for it, or the count gets over the
limit and there is an attempt left. -/
theorem alert_sent_iff {history : List MonitorEvent} {s : Monitor} (ran : monitoring.run {} history = some s)
    {order : MapOrder} {moments : ℕ → Moment} {peers : List PeerID} {peer : PeerID} {name : String}
    (checked : peer ∈ peers) (kept : s.metrics.peerMetricAll name peer ≠ [])
    (expired : ∀ i, failedMetric s.metrics name peer (moments i).checked = true)
    (room : s.checker.alertCh.buffer.length + (pendingAlerts s order moments peers).length ≤ alertChannelCap) :
    (∃ alrt ∈ (s.checker.checkPeers s.metrics order moments peers).2.1,
        alrt.metric.peer = peer ∧ alrt.metric.name = name) ↔ failures s.checker (peer, name) = 0 ∨
        301 ≤ failures s.checker (peer, name) + (peers.count peer * (s.metrics.peerMetricAll name peer).length : ℕ) := by
  obtain ⟨own, intact⟩ := monitored_of_run ran
  have due := ((checked_of_check 0 _ s.checker).of_room own ⟨intact.isOpen, intact.capacity ▸ room⟩).2
  have count := (count_failing expired 0 _).trans (count_checkedMetrics own order peers peer name)
  have failed : (peer, name) ∈ failing s.metrics moments 0 (checkedMetrics s.metrics order peers) := by
    rw [← count_pos_iff, count]
    exact Nat.mul_pos (count_pos_iff.mpr checked) (length_pos_of_ne_nil kept)
  have alerts (sent : List Metrics.Alert) :
      (∃ alrt ∈ sent, alrt.metric.peer = peer ∧ alrt.metric.name = name) ↔ (peer, name) ∈ sent.map about := by
    simp only [mem_map, about, Prod.mk.injEq]
  rw [checkPeers, alerts, due, Tally.mem_due_iff intact.inRange, count, and_iff_left failed]

section

def late : ℕ → Moment := fun _ => ⟨1, 1, 0⟩

def expiredPing : MonitorEvent := .store (.add { name := "ping", peer := "a" } 0)

def alertAgain : List MonitorEvent := [.checkPeers .stored late ["a"], .resetAlerts "a" "ping"]

def filled : List MonitorEvent := expiredPing :: (List.replicate alertChannelCap alertAgain).flatten

/-- What the next call of `CheckPeers` does after a history: its error, the number of alerts it sends, and the
number of those that are in the channel before. -/
def nextCheck (history : List MonitorEvent) : Option (Option CheckError × ℕ × ℕ) :=
  (monitoring.run {} history).map fun s =>
    let (err, sent, _) := s.checker.checkPeers s.metrics .stored late ["a"]
    (err, sent.length, s.checker.alertCh.buffer.length)

def pings : Store := after [.add { name := "ping", peer := "a" } 0]

def pingAlert : Metrics.Alert := ⟨{ name := "ping", peer := "a" }, 1⟩

def onceFailed : AList fun _ : PeerID => AList fun _ : String => ℤ := AList.insert "a" (AList.insert "ping" 1 ∅) ∅

theorem checkedMetrics_pings : checkedMetrics pings .stored ["a"] = [("a", "ping")] := by decide

theorem failedMetric_pings : failedMetric pings "ping" "a" (late 0).checked = true := by decide

variable {ch : Chan Metrics.Alert}

theorem checkPeers_pings_of_room {sent : Chan Metrics.Alert} (room : ch.trySend pingAlert = some sent) :
    checkPeers ⟨ch, ∅⟩ pings .stored late ["a"] = (none, [pingAlert], ⟨sent, onceFailed⟩) := by
  have attempt : alert ⟨ch.receive (late 0).received, ∅⟩ pings "a" "ping" (late 0).triggered =
      (none, some pingAlert, ⟨sent, onceFailed⟩) := by
    rw [alert]
    split
    next above => exact absurd above (show ¬ (0 : ℤ) + 1 > maxAlertThreshold by decide)
    · dsimp only
      split
      next full => cases full.symm.trans room
      next sent' found =>
        obtain rfl := Option.mem_unique found room
        rfl
  rw [checkPeers, checkedMetrics_pings]
  exact check_cons_of_counted ⟨ch, ∅⟩ failedMetric_pings attempt

theorem checkPeers_pings_of_full (full : ch.trySend pingAlert = none) :
    checkPeers ⟨ch, ∅⟩ pings .stored late ["a"] = (some .alertChannelFull, [], ⟨ch, onceFailed⟩) := by
  have attempt : alert ⟨ch.receive (late 0).received, ∅⟩ pings "a" "ping" (late 0).triggered =
      (some .alertChannelFull, none, ⟨ch, onceFailed⟩) := by
    rw [alert]
    split
    next above => exact absurd above (show ¬ (0 : ℤ) + 1 > maxAlertThreshold by decide)
    · dsimp only
      split
      · rfl
      next sent found => cases full.symm.trans found
  rw [checkPeers, checkedMetrics_pings]
  exact check_cons_of_full ⟨ch, ∅⟩ failedMetric_pings attempt

theorem run_alertAgain (count : ℕ) (ch : Chan Metrics.Alert) (isOpen : ch.closed = false)
    (room : ch.buffer.length + count = ch.capacity) :
    ∃ full : Chan Metrics.Alert, full.buffer.length = ch.capacity ∧ full.capacity = ch.capacity ∧
      monitoring.run ⟨pings, ⟨ch, ∅⟩⟩ (List.replicate count alertAgain).flatten = some ⟨pings, ⟨full, ∅⟩⟩ := by
  induction count generalizing ch with
  | zero => exact ⟨ch, room, rfl, rfl⟩
  | succ count ih =>
    have accepted : (ch.trySend pingAlert).isSome = true := Chan.trySend_isSome_iff.mpr ⟨by omega, isOpen⟩
    obtain ⟨sent, found⟩ := Option.isSome_iff_exists.mp accepted
    obtain ⟨buffer, stillOpen, capacity⟩ := Chan.trySend_eq_some found
    obtain ⟨full, length, same, ran⟩ := ih sent stillOpen
      (by rw [buffer, capacity, length_append, length_singleton]; omega)
    refine ⟨full, length.trans capacity, same.trans capacity, ?_⟩
    have round : monitoring.run ⟨pings, ⟨ch, ∅⟩⟩ alertAgain = some ⟨pings, ⟨sent, ∅⟩⟩ := by
      have step : monitoring.step ⟨pings, ⟨ch, ∅⟩⟩ (.checkPeers .stored late ["a"]) = some ⟨pings, ⟨sent, onceFailed⟩⟩ := by
        change some (Monitor.mk pings (checkPeers ⟨ch, ∅⟩ pings .stored late ["a"]).2.2) = _
        rw [checkPeers_pings_of_room found]
      exact run_cons_eq_some.mpr ⟨_, step, rfl⟩
    rw [replicate_succ, flatten_cons, run_append, round]
    exact ran

theorem run_filled : ∃ full, monitoring.run {} filled = some ⟨pings, ⟨full, ∅⟩⟩ ∧
    full.buffer.length = alertChannelCap ∧ full.trySend pingAlert = none := by
  obtain ⟨full, length, capacity, ran⟩ := run_alertAgain alertChannelCap (Chan.make alertChannelCap) rfl rfl
  refine ⟨full, run_cons_eq_some.mpr ⟨_, rfl, ran⟩, length, ?_⟩
  rw [← Option.not_isSome_iff_eq_none, Chan.trySend_isSome_iff, length, capacity]
  exact fun room => lt_irrefl _ room.1

theorem counted_of_full_filled : ∃ s, monitoring.run {} filled = some s ∧ ∃ before key after,
      failing s.metrics late 0 (checkedMetrics s.metrics .stored ["a"]) = before ++ key :: after ∧
      (s.checker.checkPeers s.metrics .stored late ["a"]).2.1.map about = (failures s.checker).due before ∧
      failures (s.checker.checkPeers s.metrics .stored late ["a"]).2.2 key = 1 := by
  obtain ⟨full, start, -, refused⟩ := run_filled
  refine ⟨_, start, counted_of_full start ?_⟩
  rw [checkPeers_pings_of_full refused]
  exact nofun

/-- When the channel is full, the next check fails, and then all alerts are received. -/
def lost : List MonitorEvent := filled ++ [.checkPeers .stored late ["a"], .receive alertChannelCap]

theorem run_lost : ∃ empty : Chan Metrics.Alert, empty.buffer.length = 0 ∧
    monitoring.run {} lost = some ⟨pings, ⟨empty, onceFailed⟩⟩ := by
  obtain ⟨full, start, length, refused⟩ := run_filled
  have step : monitoring.step ⟨pings, ⟨full, ∅⟩⟩ (.checkPeers .stored late ["a"]) = some ⟨pings, ⟨full, onceFailed⟩⟩ := by
    change some (Monitor.mk pings (checkPeers ⟨full, ∅⟩ pings .stored late ["a"]).2.2) = _
    rw [checkPeers_pings_of_full refused]
  refine ⟨full.receive alertChannelCap, ?_, ?_⟩
  · rw [Chan.receive, length_drop, length]
    rfl
  · rw [lost, run_append, start]
    exact run_cons_eq_some.mpr ⟨_, step, rfl⟩

theorem alert_sent_iff_reset : ∃ s, monitoring.run {} (lost ++ [.resetAlerts "a" "ping"]) = some s ∧
      ∃ alrt ∈ (s.checker.checkPeers s.metrics .stored late ["a"]).2.1,
        alrt.metric.peer = "a" ∧ alrt.metric.name = "ping" := by
  obtain ⟨empty, nothing, ran⟩ := run_lost
  have reset : monitoring.run {} (lost ++ [.resetAlerts "a" "ping"]) = some ⟨pings, ⟨empty, ∅⟩⟩ := by
    rw [run_append, ran]
    rfl
  have pending : pendingAlerts ⟨pings, ⟨empty, ∅⟩⟩ .stored late ["a"] = [("a", "ping")] := by
    change pendingAlerts ⟨pings, ⟨Chan.make 1, ∅⟩⟩ .stored late ["a"] = _
    decide +kernel
  refine ⟨_, reset, (alert_sent_iff reset ?_ ?_ ?_ ?_).mpr (.inl rfl)⟩
  · decide
  · exact (by decide : pings.peerMetricAll "ping" "a" ≠ [])
  · exact fun _ => rfl
  · rw [nothing, pending]
    decide

theorem alert_lost_when_full :
    nextCheck filled = some (some .alertChannelFull, 0, alertChannelCap) ∧ nextCheck lost = some (none, 0, 0) := by
  constructor
  · obtain ⟨full, start, length, refused⟩ := run_filled
    rw [nextCheck, start, Option.map_some]
    dsimp only
    rw [checkPeers_pings_of_full refused, length]
    rfl
  · obtain ⟨empty, nothing, ran⟩ := run_lost
    rw [nextCheck, ran, Option.map_some]
    dsimp only
    rw [nothing]
    rfl

end

end IpfsCluster.Soundness
