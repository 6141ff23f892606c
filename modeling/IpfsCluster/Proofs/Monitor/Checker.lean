import IpfsCluster.Model.Monitor.Checker
import IpfsCluster.Proofs.Monitor.Metrics
import Mathlib.Algebra.BigOperators.Group.List.Basic

/-! # Counting failures

The counted failures are a function of peers and names of metrics, which each attempt to alert changes at one place and
which says for which attempts an alert is due.
-/

namespace IpfsCluster.Proofs.Monitor

open Model Model.Api Model.Metrics Golang List Option Function Checker AList

abbrev Tally := PeerID × String → ℤ

namespace Tally

def bump (tally : Tally) (key : PeerID × String) : Tally :=
  Function.update tally key (if 300 ≤ tally key + 1 then 0 else tally key + 1)

/-- The attempts for which an alert is due: those without a failure before. -/
def due : Tally → List (PeerID × String) → List (PeerID × String)
  | _, [] => []
  | tally, key :: rest => (if tally key + 1 ≤ maxAlertThreshold then [key] else []) ++ due (tally.bump key) rest

def InRange (tally : Tally) : Prop := ∀ key, 0 ≤ tally key ∧ tally key < 300

variable {tally : Tally} {key other : PeerID × String}

theorem bump_self : tally.bump key key = if 300 ≤ tally key + 1 then 0 else tally key + 1 := update_self ..

theorem bump_of_ne (apart : other ≠ key) : tally.bump key other = tally other := update_of_ne apart ..

theorem InRange.bump (inRange : tally.InRange) (key : PeerID × String) : (tally.bump key).InRange := by
  intro other
  by_cases same : other = key
  · rw [same, bump_self]
    have := inRange key
    split_ifs
    · decide
    · omega
  · rw [bump_of_ne same]
    exact inRange other

theorem mem_due_iff {attempts : List (PeerID × String)} (inRange : tally.InRange) :
    key ∈ tally.due attempts ↔ (tally key = 0 ∧ key ∈ attempts) ∨ 301 ≤ tally key + attempts.count key := by
  induction attempts generalizing tally with
  | nil =>
    have := inRange key
    simp only [due, not_mem_nil, and_false, count_nil, Nat.cast_zero, false_or, false_iff]
    omega
  | cons first rest ih =>
    have bounds := inRange key
    have first_due : key ∈ (if tally first + 1 ≤ maxAlertThreshold then [first] else []) ↔ key = first ∧ tally key = 0 := by
      have bounds' := inRange first
      split_ifs with new
      · rw [mem_singleton, maxAlertThreshold] at *
        constructor
        · rintro rfl
          exact ⟨rfl, by omega⟩
        · exact And.left
      · rw [maxAlertThreshold] at new
        refine iff_of_false (not_mem_nil) ?_
        rintro ⟨rfl, zero⟩
        omega
    rw [due, mem_append, first_due, ih (inRange.bump first)]
    by_cases same : key = first
    · subst same
      rw [bump_self, count_cons_self]
      have present := count_pos_iff (a := key) (l := rest)
      simp only [mem_cons_self, and_true, true_and]
      split_ifs with limit
      · rw [← present]
        omega
      · rw [← present]
        omega
    · rw [bump_of_ne same, count_cons_of_ne (Ne.symm same), mem_cons]
      simp [same]

end Tally

variable {name : String}

section

variable (mc : Checker)

def failedOf (pid : PeerID) : AList fun _ : String => ℤ := (mc.failedPeers.lookup pid).getD ∅

def failures : Tally := fun key => ((failedOf mc key.1).lookup key.2).getD 0

variable {mc} {pid : PeerID} {failedMetrics : AList fun _ : String => ℤ}

theorem failedOf_insert (other : PeerID) :
    failedOf { mc with failedPeers := mc.failedPeers.insert pid failedMetrics } other =
      if other = pid then failedMetrics else failedOf mc other := by
  rw [failedOf]
  split_ifs with same
  · rw [same, lookup_insert, getD_some]
  · rw [lookup_insert_ne same, failedOf]

theorem failedOf_setFailed (other : PeerID) :
    failedOf (mc.setFailed pid failedMetrics) other = if other = pid then failedMetrics else failedOf mc other := by
  rw [setFailed]
  by_cases none_left : failedMetrics.entries.length = 0
  · have empty : failedMetrics = ∅ := ext (length_eq_zero_iff.mp none_left)
    rw [if_pos none_left, failedOf]
    split_ifs with same
    · rw [same, lookup_erase, getD_none, empty]
    · rw [lookup_erase_ne same, failedOf]
  · rw [if_neg none_left]
    exact failedOf_insert other

theorem failures_eq {next : Checker} {count : ℤ}
    (replaced : ∀ other, failedOf next other = if other = pid then failedMetrics else failedOf mc other)
    (counted : (failedMetrics.lookup name).getD 0 = count)
    (kept : ∀ other, other ≠ name → failedMetrics.lookup other = (failedOf mc pid).lookup other) :
    failures next = Function.update (failures mc) (pid, name) count := by
  funext ⟨otherPid, otherName⟩
  rw [failures, replaced]
  by_cases same : (otherPid, otherName) = (pid, name)
  · cases same
    rw [update_self, if_pos rfl, counted]
  · rw [update_of_ne same]
    split_ifs with samePid
    · subst samePid
      rw [kept otherName fun sameName => same (by rw [sameName]), failures]
    · rfl

theorem failures_resetAlerts (name : String) :
    failures (mc.resetAlerts pid name) = Function.update (failures mc) (pid, name) 0 := by
  rw [resetAlerts]
  cases found : mc.failedPeers.lookup pid with
  | none =>
    refine (update_eq_self_iff.mpr ?_).symm
    rw [failures, failedOf, found]
    rfl
  | some failedMetrics =>
    refine failures_eq failedOf_setFailed ?_ fun other apart => ?_
    · rw [lookup_erase, getD_none]
    · rw [lookup_erase_ne apart, failedOf, found, getD_some]

end

section

variable {mc : Checker} {metrics : Store} {pid : PeerID} {name : String} {now : ℤ}

/-- What an attempt to alert can do: it is always counted, and sent only if there was no failure before. -/
inductive Alerted (mc : Checker) (metrics : Store) (pid : PeerID) (name : String) :
    Option CheckError × Option Metrics.Alert × Checker → Prop
  | suppressed {next} (before : ¬ failures mc (pid, name) + 1 ≤ maxAlertThreshold)
      (counted : failures next = (failures mc).bump (pid, name)) (channel : next.alertCh = mc.alertCh) :
      Alerted mc metrics pid name (none, none, next)
  | sent {alrt next} (first : failures mc (pid, name) + 1 ≤ maxAlertThreshold)
      (counted : failures next = (failures mc).bump (pid, name))
      (metric : alrt.metric =
        if !(metrics.peerLatest name pid).defined then { zeroMetric with name := name, peer := pid }
        else metrics.peerLatest name pid)
      (channel : mc.alertCh.trySend alrt = some next.alertCh) : Alerted mc metrics pid name (none, some alrt, next)
  | full {next} (first : failures mc (pid, name) + 1 ≤ maxAlertThreshold)
      (counted : failures next = (failures mc).bump (pid, name)) (channel : next.alertCh = mc.alertCh)
      (noRoom : ∃ alrt, mc.alertCh.trySend alrt = none) :
      Alerted mc metrics pid name (some .alertChannelFull, none, next)

def countedOnce (mc : Checker) (pid : PeerID) (name : String) : Checker :=
  { mc with failedPeers := mc.failedPeers.insert pid ((failedOf mc pid).insert name (failures mc (pid, name) + 1)) }

theorem failures_countedOnce (few : ¬ 300 ≤ failures mc (pid, name) + 1) :
    failures (countedOnce mc pid name) = (failures mc).bump (pid, name) := by
  rw [Tally.bump, if_neg few]
  refine failures_eq failedOf_insert ?_ fun other apart => lookup_insert_ne apart
  rw [lookup_insert, getD_some]

theorem failures_forgotten {value : ℤ} (many : 300 ≤ failures mc (pid, name) + 1) :
    failures (mc.setFailed pid (((failedOf mc pid).insert name value).erase name)) =
      (failures mc).bump (pid, name) := by
  rw [Tally.bump, if_pos many]
  refine failures_eq failedOf_setFailed ?_ fun other apart => ?_
  · rw [lookup_erase, getD_none]
  · rw [lookup_erase_ne apart, lookup_insert_ne apart]

theorem alerted_of_alert : Alerted mc metrics pid name (mc.alert metrics pid name now) := by
  rw [alert]
  split
  next before =>
    split
    next many => exact .suppressed (not_le.mpr before) (failures_forgotten many) rfl
    next few => exact .suppressed (not_le.mpr before) (failures_countedOnce few) rfl
  next before =>
    have first : failures mc (pid, name) + 1 ≤ maxAlertThreshold := not_lt.mp before
    have counted : failures (countedOnce mc pid name) = (failures mc).bump (pid, name) :=
      failures_countedOnce (by rw [maxAlertThreshold] at first; omega)
    dsimp only
    split
    next noRoom => exact .full first counted rfl ⟨_, noRoom⟩
    next alertCh sent =>
      exact .sent first counted rfl sent

end

section

variable (metrics : Store) (moments : ℕ → Moment)

def failing : ℕ → List (PeerID × String) → List (PeerID × String)
  | _, [] => []
  | i, (peer, name) :: rest =>
    if failedMetric metrics name peer (moments i).checked then (peer, name) :: failing (i + 1) rest
    else failing (i + 1) rest

def about (alrt : Metrics.Alert) : PeerID × String := (alrt.metric.peer, alrt.metric.name)

variable {metrics moments} {mc : Checker} {alrt : Metrics.Alert}

theorem about_of_metric {pid : PeerID} (own : Own metrics) (metric : alrt.metric =
      if !(metrics.peerLatest name pid).defined then { zeroMetric with name := name, peer := pid }
      else metrics.peerLatest name pid) : about alrt = (pid, name) := by
  rw [about, metric]
  cases named : (metrics.peerLatest name pid).defined with
  | false => rfl
  | true =>
    obtain ⟨sameName, samePeer⟩ := own.peerLatest named
    rw [Bool.not_true, if_neg Bool.false_ne_true, sameName, samePeer]

theorem Alerted.sent_of_counted {pid : PeerID} {sent : Option Metrics.Alert} {next : Checker} (own : Own metrics)
    (attempt : Alerted mc metrics pid name (none, sent, next)) :
    sent.toList.map about = (if failures mc (pid, name) + 1 ≤ maxAlertThreshold then [(pid, name)] else []) ∧
      failures next = (failures mc).bump (pid, name) := by
  cases attempt with
  | suppressed before counted => exact ⟨(if_neg before).symm, counted⟩
  | sent first counted metric =>
    rw [if_pos first, toList_some, map_singleton, about_of_metric own metric]
    exact ⟨rfl, counted⟩

section

variable {i : ℕ} {peer : PeerID} {name : String} {rest : List (PeerID × String)} {sent : Option Metrics.Alert} {next : Checker}

theorem check_cons_of_counted (mc : Checker) (failed : failedMetric metrics name peer (moments i).checked = true)
    (counted : alert { mc with alertCh := mc.alertCh.receive (moments i).received } metrics peer name
      (moments i).triggered = (none, sent, next)) :
    check metrics moments i ((peer, name) :: rest) mc = ((check metrics moments (i + 1) rest next).1,
        sent.toList ++ (check metrics moments (i + 1) rest next).2.1,
        (check metrics moments (i + 1) rest next).2.2) := by
  rw [check, if_pos failed, counted]

theorem check_cons_of_full (mc : Checker) {err : CheckError}
    (failed : failedMetric metrics name peer (moments i).checked = true)
    (full : alert { mc with alertCh := mc.alertCh.receive (moments i).received } metrics peer name
      (moments i).triggered = (some err, sent, next)) :
    check metrics moments i ((peer, name) :: rest) mc = (some err, [], next) := by
  rw [check, if_pos failed, full]

end

variable (metrics moments) in
/-- What a check can do: at each metric it goes on without an attempt, goes on after an attempt, or gives up. -/
inductive Checked : ℕ → List (PeerID × String) → Checker → Option CheckError × List Metrics.Alert × Checker → Prop
  | done {i mc} : Checked i [] mc (none, [], mc)
  | passed {i peer name rest mc result} (valid : ¬ failedMetric metrics name peer (moments i).checked = true)
      (more : Checked (i + 1) rest { mc with alertCh := mc.alertCh.receive (moments i).received } result) :
      Checked i ((peer, name) :: rest) mc result
  | counted {i peer name rest mc next last sent err later}
      (failed : failedMetric metrics name peer (moments i).checked = true)
      (attempt : Alerted { mc with alertCh := mc.alertCh.receive (moments i).received } metrics peer name
        (none, sent, next))
      (more : Checked (i + 1) rest next (err, later, last)) :
      Checked i ((peer, name) :: rest) mc (err, sent.toList ++ later, last)
  | full {i peer name rest mc next sent err}
      (failed : failedMetric metrics name peer (moments i).checked = true)
      (attempt : Alerted { mc with alertCh := mc.alertCh.receive (moments i).received } metrics peer name
        (some err, sent, next)) :
      Checked i ((peer, name) :: rest) mc (some err, [], next)

theorem checked_of_check (i : ℕ) (keys : List (PeerID × String)) (mc : Checker) :
    Checked metrics moments i keys mc (check metrics moments i keys mc) := by
  induction keys generalizing i mc with
  | nil => exact .done
  | cons key rest ih =>
    obtain ⟨peer, name⟩ := key
    by_cases failed : failedMetric metrics name peer (moments i).checked = true
    · have attempt := @alerted_of_alert { mc with alertCh := mc.alertCh.receive (moments i).received } metrics peer name
        (moments i).triggered
      rcases result : alert { mc with alertCh := mc.alertCh.receive (moments i).received } metrics peer name
        (moments i).triggered with ⟨_ | err, sent, next⟩
      · rw [result] at attempt
        rw [check_cons_of_counted mc failed result]
        exact .counted failed attempt (ih (i + 1) next)
      · rw [result] at attempt
        rw [check_cons_of_full mc failed result]
        exact .full failed attempt
    · rw [check, if_neg failed]
      exact .passed failed (ih (i + 1) _)

structure Room (mc : Checker) (alerts : ℕ) : Prop where
  isOpen : mc.alertCh.closed = false
  fits : mc.alertCh.buffer.length + alerts ≤ mc.alertCh.capacity

variable {alerts : ℕ}

theorem Room.receive (room : Room mc alerts) (count : ℕ) :
    Room { mc with alertCh := mc.alertCh.receive count } alerts where
  isOpen := room.isOpen
  fits := by
    have fits := room.fits
    simp only [Chan.receive, length_drop]
    omega

theorem Room.send {next : Checker} (room : Room mc (alerts + 1)) (sent : mc.alertCh.trySend alrt = some next.alertCh) :
    Room next alerts := by
  obtain ⟨buffer, isOpen, capacity⟩ := Chan.trySend_eq_some sent
  refine ⟨isOpen, ?_⟩
  have fits := room.fits
  rw [buffer, capacity, length_append, length_singleton]
  omega

theorem Room.trySend_ne_none (room : Room mc (alerts + 1)) (alrt : Metrics.Alert) : mc.alertCh.trySend alrt ≠ none := by
  have fits := room.fits
  exact isSome_iff_ne_none.mp (Chan.trySend_isSome_iff.mpr ⟨by omega, room.isOpen⟩)

variable {keys : List (PeerID × String)} {result : Option CheckError × List Metrics.Alert × Checker} {i : ℕ}

section

variable (checked : Checked metrics moments i keys mc result)

include checked

theorem Checked.of_room (own : Own metrics)
    (room : Room mc ((failures mc).due (failing metrics moments i keys)).length) :
    result.1 = none ∧ result.2.1.map about = (failures mc).due (failing metrics moments i keys) := by
  induction checked with
  | done => exact ⟨rfl, rfl⟩
  | @passed i peer name rest mc result valid more ih =>
    rw [failing, if_neg valid] at room ⊢
    exact ih (room.receive (moments i).received)
  | @counted i peer name rest mc next last sent err later failed attempt more ih =>
    have received := room.receive (moments i).received
    rw [failing, if_pos failed, Tally.due] at received ⊢
    cases attempt with
    | suppressed before counted channel =>
      have none_due : ¬ failures mc (peer, name) + 1 ≤ maxAlertThreshold := before
      rw [if_neg none_due, nil_append] at received ⊢
      have left : Room next ((failures next).due (failing metrics moments (i + 1) rest)).length := by
        rw [counted]
        exact ⟨channel ▸ received.isOpen, channel ▸ received.fits⟩
      obtain ⟨none_failed, due⟩ := ih left
      exact ⟨none_failed, due.trans (by rw [counted]; rfl)⟩
    | @sent alrt _ first counted metric channel =>
      have one_due : failures mc (peer, name) + 1 ≤ maxAlertThreshold := first
      rw [if_pos one_due, singleton_append] at received ⊢
      have left : Room next ((failures next).due (failing metrics moments (i + 1) rest)).length := by
        rw [counted]
        exact received.send channel
      obtain ⟨none_failed, due⟩ := ih left
      refine ⟨none_failed, ?_⟩
      change about alrt :: later.map about = _
      rw [about_of_metric own metric, due, counted]
      rfl
  | @full i peer name rest mc next sent err failed attempt =>
    have received := room.receive (moments i).received
    rw [failing, if_pos failed, Tally.due] at received
    cases attempt with
    | full first counted channel noRoom =>
      have one_due : failures mc (peer, name) + 1 ≤ maxAlertThreshold := first
      rw [if_pos one_due, singleton_append] at received
      obtain ⟨alrt, refused⟩ := noRoom
      exact absurd refused (received.trySend_ne_none alrt)

theorem Checked.invariant (inv : Checker → Prop)
    (received : ∀ mc count, inv mc → inv { mc with alertCh := mc.alertCh.receive count })
    (alerted : ∀ mc pid name result, inv mc → Alerted mc metrics pid name result → inv result.2.2) (holds : inv mc) :
    inv result.2.2 := by
  induction checked with
  | done => exact holds
  | passed _ _ ih => exact ih (received _ _ holds)
  | counted _ attempt _ ih => exact ih (alerted _ _ _ _ (received _ _ holds) attempt)
  | full _ attempt => exact alerted _ _ _ _ (received _ _ holds) attempt

/-- A check that fails has sent the alerts that were due before some failure, and has counted that failure without one. -/
theorem Checked.of_full (own : Own metrics) (inRange : (failures mc).InRange) (full : result.1 ≠ none) :
    ∃ before key after, failing metrics moments i keys = before ++ key :: after ∧
      result.2.1.map about = (failures mc).due before ∧ failures result.2.2 key = 1 := by
  induction checked with
  | done => exact absurd rfl full
  | @passed i peer name rest mc result valid more ih =>
    rw [failing, if_neg valid]
    exact ih inRange full
  | @counted i peer name rest mc next last sent err later failed attempt more ih =>
    rw [failing, if_pos failed]
    obtain ⟨alerts, counted⟩ := attempt.sent_of_counted own
    obtain ⟨before, key, after, shape, due, one⟩ := ih (counted ▸ inRange.bump _) full
    refine ⟨(peer, name) :: before, key, after, by rw [shape]; rfl, ?_, one⟩
    rw [map_append, alerts, due, counted]
    rfl
  | @full i peer name rest mc next sent err failed attempt =>
    rw [failing, if_pos failed]
    cases attempt with
    | full first counted channel noRoom =>
      refine ⟨[], (peer, name), _, rfl, rfl, ?_⟩
      have before := (inRange (peer, name)).1
      have one : failures mc (peer, name) + 1 = 1 := le_antisymm first (by omega)
      have few : ¬ (300 : ℤ) ≤ failures mc (peer, name) + 1 := by omega
      exact (congrFun counted _).trans (Tally.bump_self.trans ((if_neg few).trans one))

end

theorem count_failing {peer : PeerID} (expired : ∀ i, failedMetric metrics name peer (moments i).checked = true) (i : ℕ)
    (keys : List (PeerID × String)) :
    (failing metrics moments i keys).count (peer, name) = keys.count (peer, name) := by
  induction keys generalizing i with
  | nil => rfl
  | cons key rest ih =>
    obtain ⟨otherPeer, otherName⟩ := key
    rw [failing]
    by_cases same : (otherPeer, otherName) = (peer, name)
    · cases same
      rw [if_pos (expired i), count_cons_self, count_cons_self, ih]
    · rw [count_cons_of_ne same]
      split_ifs
      · rw [count_cons_of_ne same, ih]
      · exact ih (i + 1)

theorem count_checkedMetrics (own : Own metrics) (order : MapOrder) (peers : List PeerID) (peer : PeerID)
    (name : String) : (checkedMetrics metrics order peers).count (peer, name) =
      peers.count peer * (metrics.peerMetricAll name peer).length := by
  have renamed (n : String) (p : PeerID) : ((metrics.peerMetricAll n p).map fun metric => (p, metric.name)) =
      List.replicate (metrics.peerMetricAll n p).length (p, n) := by
    refine eq_replicate_iff.mpr ⟨length_map _, fun key member => ?_⟩
    obtain ⟨metric, kept, rfl⟩ := mem_map.mp member
    rw [(own n p metric kept).1]
  have ofName (n : String) (other : n ≠ name) :
      (peers.flatMap fun p => List.replicate (metrics.peerMetricAll n p).length (p, n)).count (peer, name) = 0 := by
    refine count_eq_zero.mpr fun member => ?_
    obtain ⟨p, -, replicated⟩ := mem_flatMap.mp member
    exact other (Prod.mk.inj (eq_of_mem_replicate replicated)).2.symm
  have ofPeers : (peers.flatMap fun p => List.replicate (metrics.peerMetricAll name p).length (p, name)).count
      (peer, name) = peers.count peer * (metrics.peerMetricAll name peer).length := by
    rw [count_flatMap, sum_map_eq_nsmul_single peer, nsmul_eq_mul, Nat.cast_id]
    · rw [comp_apply, count_replicate_self]
    · intro p other _
      rw [comp_apply, count_replicate, if_neg]
      rintro same
      exact other (Prod.mk.inj (eq_of_beq same)).1
  have listed : (metrics.metricNames order).count name * (metrics.peerMetricAll name peer).length =
      (metrics.peerMetricAll name peer).length := by
    by_cases known : name ∈ metrics.byName
    · rw [Store.metricNames, (order.visit_perm [] _).count_eq, count_eq_one_of_mem metrics.byName.keys_nodup known,
        Nat.one_mul]
    · rw [Store.peerMetricAll, lookup_eq_none.mpr known, length_nil, Nat.mul_zero]
  simp only [checkedMetrics, renamed]
  rw [count_flatMap, sum_map_eq_nsmul_single name, nsmul_eq_mul, Nat.cast_id, comp_apply, ofPeers,
    Nat.mul_left_comm, listed]
  exact fun n other _ => ofName n other

end

end IpfsCluster.Proofs.Monitor
