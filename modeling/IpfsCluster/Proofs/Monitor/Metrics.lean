import IpfsCluster.Model.Monitor.Metrics

/-! # The store keeps the most recent metric of each name and peer

Two nested maps of circular windows stand for one partial map from names and peers to metrics: what each window has last
been given. Every call changes that map at the names and peers it is about.
-/

namespace IpfsCluster.Proofs.Monitor

open Model Model.Api Model.Metrics Golang List Option Window AList

section

def lastGiven (mw : Window) : Option Metric := mw.window.prev.value

@[simp] theorem lastGiven_add (mw : Window) (m : Metric) (now : ℤ) :
    lastGiven (mw.add m now) = some { m with receivedAt := now } := by
  simp only [lastGiven, add, Ring.prev_next, Ring.value_setValue]

variable {m : Metric}

theorem latest_eq_some_iff {mw : Window} : mw.latest = some m ↔ lastGiven mw = some m ∧ m.defined = true := by
  unfold latest lastGiven
  cases mw.window.prev.value with
  | none => simp
  | some last =>
    dsimp only
    cases named : last.defined with
    | false =>
      refine iff_of_false (fun same => nomatch same) ?_
      rintro ⟨same, other⟩
      cases same
      cases named.symm.trans other
    | true =>
      rw [Bool.not_true, if_neg Bool.false_ne_true]
      refine ⟨fun same => ⟨same, ?_⟩, And.left⟩
      rw [← some.inj same]
      exact named

variable {windowCap : ℕ}

theorem all_eq (mw : Window windowCap) : mw.all = (mw.window.visited.filterMap id).reverse := by
  rw [Window.all]
  induction mw.window.visited using List.reverseRecOn with
  | nil => rfl
  | append_singleton visited v ih =>
    rw [foldl_concat, filterMap_append, reverse_append, ih]
    cases v with
    | none => rfl
    | some i => rfl

variable {mw : Window windowCap}

theorem mem_all_iff : m ∈ mw.all ↔ some m ∈ mw.window.visited := by
  rw [all_eq, mem_reverse, mem_filterMap]
  simp only [id, exists_eq_right]

def received (add : Metric × ℤ) : Metric := { add.1 with receivedAt := add.2 }

variable [NeZero windowCap]

theorem mem_all_of_latest (latest : mw.latest = some m) : m ∈ mw.all := by
  have last : mw.window.prev.value = some m := by
    rw [Window.latest] at latest
    split at latest
    · cases latest
    next value found =>
      split_ifs at latest
      exact found.trans latest
  rw [mem_all_iff]
  exact mem_of_getLast? (mw.window.getLast?_visited.trans (congrArg some last))

theorem mem_all_add {added : Metric} {now : ℤ} (member : m ∈ (mw.add added now).all) :
    m = received (added, now) ∨ m ∈ mw.all := by
  rw [mem_all_iff, add, Ring.visited_push, mem_append, mem_singleton] at member
  rw [mem_all_iff]
  exact member.symm.imp some.inj mem_of_mem_tail

variable (adds : List (Metric × ℤ))

include adds

theorem holds_after :
    (Window.after windowCap adds).window.Holds ((adds.map received).foldl .push (.empty Metric windowCap)) := by
  induction adds using List.reverseRecOn with
  | nil => exact Ring.holds_new
  | append_singleton adds add ih =>
    rw [Window.after, foldl_concat, map_append, map_singleton, foldl_concat]
    exact ih.push (received add)

theorem all_after : (Window.after windowCap adds).all = (adds.map received).reverse.take windowCap := by
  rw [all_eq, (holds_after adds).filterMap_visited, BoundedQueue.items_foldl_push]

theorem latest_after : (Window.after windowCap adds).latest = (adds.map received).getLast?.filter (·.defined) := by
  have newest : (Window.after windowCap adds).window.prev.value = _ := (holds_after adds).value_prev
  rw [BoundedQueue.items_foldl_push, head?_take, if_neg (NeZero.ne windowCap), head?_reverse] at newest
  rw [latest, newest]
  cases (adds.map received).getLast? with
  | none => rfl
  | some last =>
    rw [filter_some]
    cases named : last.defined with
    | false | true => simp [named]

end

section

variable (mtrs : Store) (name : String) (peer : PeerID)

def windowOf : Option Window := (mtrs.byName.lookup name).bind fun byPeer => byPeer.lookup peer

/-- The map that the store stands for. -/
def recent : Option Metric := (windowOf mtrs name peer).bind lastGiven

/-- What a call makes of the most recent metric of a name and a peer. -/
def effect (name : String) (peer : PeerID) (before : Option Metric) : Call → Option Metric
  | .add m now => if m.name = name ∧ m.peer = peer then some { m with receivedAt := now } else before
  | .removePeer pid => if pid = peer then none else before
  | .removePeerMetrics pid other => if pid = peer ∧ other = name then none else before

def windowEffect (name : String) (peer : PeerID) (before : Option Window) : Call → Option Window
  | .add m now => if m.name = name ∧ m.peer = peer then some ((before.getD .newWindow).add m now) else before
  | .removePeer pid => if pid = peer then none else before
  | .removePeerMetrics pid other => if pid = peer ∧ other = name then none else before

theorem windowOf_add (m : Metric) (now : ℤ) :
    windowOf (mtrs.add m now) name peer = windowEffect name peer (windowOf mtrs name peer) (.add m now) := by
  rw [windowEffect, windowOf, windowOf, Store.add]
  dsimp only
  by_cases sameName : m.name = name
  · subst sameName
    rw [lookup_insert, bind_some]
    by_cases samePeer : m.peer = peer
    · subst samePeer
      rw [lookup_insert, if_pos ⟨rfl, rfl⟩]
      cases mtrs.byName.lookup m.name <;> rfl
    · rw [lookup_insert_ne (Ne.symm samePeer), if_neg fun same => samePeer same.2]
      cases mtrs.byName.lookup m.name <;> rfl
  · rw [lookup_insert_ne (Ne.symm sameName), if_neg fun same => sameName same.1]

theorem windowOf_removePeer (pid : PeerID) :
    windowOf (mtrs.removePeer pid) name peer = windowEffect name peer (windowOf mtrs name peer) (.removePeer pid) := by
  rw [windowEffect, windowOf, windowOf, Store.removePeer, lookup_mapValues]
  cases mtrs.byName.lookup name with
  | none => split <;> rfl
  | some byPeer =>
    rw [map_some, bind_some, bind_some]
    by_cases same : pid = peer
    · subst same
      rw [lookup_erase, if_pos rfl]
    · rw [lookup_erase_ne (Ne.symm same), if_neg same]

theorem windowOf_removePeerMetrics (pid : PeerID) (other : String) :
    windowOf (mtrs.removePeerMetrics pid other) name peer =
      windowEffect name peer (windowOf mtrs name peer) (.removePeerMetrics pid other) := by
  rw [windowEffect, windowOf, windowOf, Store.removePeerMetrics]
  cases found : mtrs.byName.lookup other with
  | none =>
    by_cases same : pid = peer ∧ other = name
    · rw [if_pos same, ← same.2, found]
      rfl
    · rw [if_neg same]
  | some byPeer =>
    by_cases sameName : other = name
    · subst sameName
      rw [lookup_insert, found, bind_some, bind_some]
      by_cases samePeer : pid = peer
      · subst samePeer
        rw [lookup_erase, if_pos ⟨rfl, rfl⟩]
      · rw [lookup_erase_ne (Ne.symm samePeer), if_neg fun same => samePeer same.1]
    · rw [lookup_insert_ne (Ne.symm sameName), if_neg fun same => sameName same.2]

theorem windowOf_apply (call : Call) :
    windowOf (mtrs.apply call) name peer = windowEffect name peer (windowOf mtrs name peer) call := by
  cases call with
  | add m now => exact windowOf_add mtrs name peer m now
  | removePeer pid => exact windowOf_removePeer mtrs name peer pid
  | removePeerMetrics pid other => exact windowOf_removePeerMetrics mtrs name peer pid other

/-- Every metric that is kept is under its own name and peer. -/
def Own : Prop := ∀ name pid, ∀ m ∈ mtrs.peerMetricAll name pid, m.name = name ∧ m.peer = pid

theorem peerMetricAll_eq : mtrs.peerMetricAll name peer = ((windowOf mtrs name peer).map Window.all).getD [] := by
  rw [Store.peerMetricAll, windowOf]
  cases mtrs.byName.lookup name with
  | none => rfl
  | some byPeer =>
    dsimp only [bind_some]
    cases byPeer.lookup peer <;> rfl

theorem peerLatest_eq : mtrs.peerLatest name peer = ((windowOf mtrs name peer).bind Window.latest).getD zeroMetric := by
  rw [Store.peerLatest, windowOf]
  cases mtrs.byName.lookup name with
  | none => rfl
  | some byPeer =>
    dsimp only [bind_some]
    cases byPeer.lookup peer <;> rfl

variable {mtrs}

theorem Own.peerLatest (own : Own mtrs) {name : String} {pid : PeerID}
    (named : (mtrs.peerLatest name pid).defined = true) :
    (mtrs.peerLatest name pid).name = name ∧ (mtrs.peerLatest name pid).peer = pid := by
  rw [peerLatest_eq] at *
  cases found : (windowOf mtrs name pid).bind latest with
  | none =>
    rw [found] at named
    cases named
  | some m =>
    obtain ⟨window, isWindow, latest⟩ := bind_eq_some_iff.mp found
    refine own name pid m ?_
    rw [peerMetricAll_eq, isWindow]
    exact mem_all_of_latest latest

theorem Own.apply (own : Own mtrs) (call : Call) : Own (mtrs.apply call) := by
  intro name pid m member
  have before := own name pid m
  rw [peerMetricAll_eq] at before member
  rw [windowOf_apply] at member
  cases call with
  | add added now =>
    rw [windowEffect] at member
    split_ifs at member with same
    · rw [map_some, getD_some] at member
      obtain rfl | kept := mem_all_add member
      · exact same
      · refine before ?_
        cases isWindow : windowOf mtrs name pid with
        | none =>
          have empty : (newWindow : Window).all = [] := all_after []
          rw [isWindow, getD_none, empty] at kept
          cases kept
        | some window =>
          rw [isWindow] at kept
          exact kept
    · exact before member
  | removePeer | removePeerMetrics =>
    rw [windowEffect] at member
    split_ifs at member
    · cases member
    · exact before member

variable (mtrs)

/-- The store refines the partial map, call by call. -/
theorem recent_apply (call : Call) :
    recent (mtrs.apply call) name peer = effect name peer (recent mtrs name peer) call := by
  rw [recent, windowOf_apply, recent]
  cases call with
  | add m now =>
    rw [windowEffect, effect]
    split_ifs with same
    · rw [bind_some, lastGiven_add]
    · rfl
  | removePeer | removePeerMetrics =>
    rw [windowEffect, effect]
    split_ifs <;> rfl

end

section

def touches (name : String) (peer : PeerID) : Call → Bool
  | .add m _ => m.name = name ∧ m.peer = peer
  | .removePeer pid => pid = peer
  | .removePeerMetrics pid other => pid = peer ∧ other = name

/-- The metric was added for the peer, stamped with the time of the call, and nothing was added or removed
for that name and peer since. -/
def MostRecent (calls : List Call) (name : String) (peer : PeerID) (m : Metric) : Prop :=
  ∃ before added now after, calls = before ++ .add added now :: after ∧ added.name = name ∧ added.peer = peer ∧
    m = { added with receivedAt := now } ∧ ∀ call ∈ after, touches name peer call = false

variable {calls : List Call} {name : String} {peer : PeerID} {m : Metric}

theorem mostRecent_concat_iff {call : Call} : MostRecent (calls ++ [call]) name peer m ↔
      (∃ added now, call = .add added now ∧ added.name = name ∧ added.peer = peer ∧ m = { added with receivedAt := now }) ∨
        (touches name peer call = false ∧ MostRecent calls name peer m) := by
  constructor
  · rintro ⟨before, added, now, after, split, sameName, samePeer, stamped, untouched⟩
    rcases eq_nil_or_concat' after with rfl | ⟨rest, last, rfl⟩
    · obtain ⟨-, same⟩ := append_inj' split rfl
      exact .inl ⟨added, now, head_eq_of_cons_eq same, sameName, samePeer, stamped⟩
    · rw [← cons_append, ← append_assoc] at split
      obtain ⟨same, lastSame⟩ := append_inj' split rfl
      obtain rfl := head_eq_of_cons_eq lastSame
      refine .inr ⟨untouched call (mem_append_right _ mem_cons_self), before, added, now, rest, same,
        sameName, samePeer, stamped, fun other member => untouched other (mem_append_left _ member)⟩
  · rintro (⟨added, now, rfl, sameName, samePeer, stamped⟩ | ⟨untouched, before, added, now, after, rfl, sameName,
      samePeer, stamped, others⟩)
    · exact ⟨calls, added, now, [], rfl, sameName, samePeer, stamped, fun _ member => nomatch member⟩
    · refine ⟨before, added, now, after ++ [call], by simp, sameName, samePeer, stamped, fun other member => ?_⟩
      rcases mem_append.mp member with earlier | last
      · exact others other earlier
      · rw [mem_singleton.mp last]
        exact untouched

theorem effect_eq_some_iff {before : Option Metric} {call : Call} : effect name peer before call = some m ↔
      (∃ added now, call = .add added now ∧ added.name = name ∧ added.peer = peer ∧ m = { added with receivedAt := now }) ∨
        (touches name peer call = false ∧ before = some m) := by
  cases call with
  | add added now =>
    rw [effect, touches, decide_eq_false_iff_not]
    by_cases same : added.name = name ∧ added.peer = peer
    · rw [if_pos same, or_iff_left fun other => other.1 same]
      constructor
      · intro stamped
        exact ⟨added, now, rfl, same.1, same.2, (some.inj stamped).symm⟩
      · rintro ⟨_, _, ⟨⟩, -, -, rfl⟩
        rfl
    · rw [if_neg same, and_iff_right same, or_iff_right]
      rintro ⟨_, _, ⟨⟩, sameName, samePeer, -⟩
      exact same ⟨sameName, samePeer⟩
  | removePeer | removePeerMetrics =>
    rw [effect, touches, decide_eq_false_iff_not, or_iff_right fun ⟨_, _, other, _⟩ => (nomatch other)]
    split
    next same => exact iff_of_false (fun found => nomatch found) fun other => other.1 same
    next other => rw [and_iff_right other]

theorem recent_after_iff : recent (Store.after calls) name peer = some m ↔ MostRecent calls name peer m := by
  induction calls using List.reverseRecOn generalizing m with
  | nil =>
    refine iff_of_false (fun found => nomatch found) ?_
    rintro ⟨before, added, now, after, split, -⟩
    exact append_ne_nil_of_right_ne_nil _ (cons_ne_nil _ _) split.symm
  | append_singleton calls call ih =>
    rw [Store.after, foldl_concat, recent_apply, effect_eq_some_iff, mostRecent_concat_iff, ← ih]
    rfl

variable {mtrs : Store} {order : MapOrder} {now : PeerID → ℤ}

theorem validMetric_eq_some_iff {entry : Sigma fun _ : PeerID => Window} {m : Metric} :
    Store.validMetric now entry = some m ↔
      lastGiven entry.2 = some m ∧ m.defined = true ∧ m.discard (now entry.1) = false := by
  rw [← and_assoc, ← latest_eq_some_iff, Store.validMetric]
  cases entry.2.latest with
  | none => exact iff_of_false (fun found => nomatch found) fun other => nomatch other.1
  | some last =>
    dsimp only
    split
    next discarded =>
      refine iff_of_false (fun found => nomatch found) ?_
      rintro ⟨same, kept⟩
      rw [← some.inj same, discarded] at kept
      cases kept
    next kept =>
      refine ⟨fun same => ⟨same, ?_⟩, And.left⟩
      rw [← some.inj same]
      exact Bool.eq_false_of_not_eq_true kept

theorem mem_latestValid_iff {m : Metric} : m ∈ mtrs.latestValid order now name ↔
      ∃ peer, recent mtrs name peer = some m ∧ m.defined = true ∧ m.discard (now peer) = false := by
  unfold Store.latestValid recent windowOf
  cases mtrs.byName.lookup name with
  | none => simp
  | some byPeer =>
    dsimp only
    rw [mem_insertionSort, mem_filterMap]
    constructor
    · rintro ⟨⟨peer, mw⟩, visited, reported⟩
      have found := mem_entries_iff.mp ((order.mem_visit _ _ _).mp visited)
      obtain ⟨given, kept⟩ := validMetric_eq_some_iff.mp reported
      refine ⟨peer, ?_, kept⟩
      rw [bind_some, found]
      exact given
    · rintro ⟨peer, given, kept⟩
      obtain ⟨mw, found, given⟩ := bind_eq_some_iff.mp given
      exact ⟨⟨peer, mw⟩, (order.mem_visit _ _ _).mpr (mem_entries_iff.mpr found), validMetric_eq_some_iff.mpr ⟨given, kept⟩⟩

theorem less_eq_false_iff {a b : Metric} :
    b.less a = false ↔ a.peer < b.peer ∨ (a.peer = b.peer ∧ a.expire ≤ b.expire) := by
  unfold Metric.less
  by_cases same : b.peer = a.peer
  · rw [if_pos same, decide_eq_false_iff_not, not_lt, same]
    simp
  · rw [if_neg same, decide_eq_false_iff_not, not_lt, or_iff_left fun other => same other.1.symm]
    exact ⟨fun le => lt_of_le_of_ne le (Ne.symm same), le_of_lt⟩

instance less_total : Std.Total fun a b : Metric => b.less a = false where
  total a b := by
    rw [less_eq_false_iff, less_eq_false_iff]
    rcases lt_trichotomy a.peer b.peer with lower | same | higher
    · exact .inl (.inl lower)
    · rcases le_total a.expire b.expire with le | ge
      · exact .inl (.inr ⟨same, le⟩)
      · exact .inr (.inr ⟨same.symm, ge⟩)
    · exact .inr (.inl higher)

instance less_trans : IsTrans Metric fun a b => b.less a = false where
  trans a b c := by
    rw [less_eq_false_iff, less_eq_false_iff, less_eq_false_iff]
    rintro (lower | ⟨same, le⟩) (lower' | ⟨same', le'⟩)
    · exact .inl (lower.trans lower')
    · exact .inl (same' ▸ lower)
    · exact .inl (same ▸ lower')
    · exact .inr ⟨same.trans same', le.trans le'⟩

theorem latestValid_sorted (own : ∀ peer m, recent mtrs name peer = some m → m.peer = peer) :
    (mtrs.latestValid order now name).Pairwise fun a b => a.peer < b.peer := by
  unfold Store.latestValid
  unfold recent windowOf at own
  cases found : mtrs.byName.lookup name with
  | none => exact List.Pairwise.nil
  | some byPeer =>
    dsimp only
    rw [found] at own
    have ownKey {entry : Sigma fun _ : PeerID => Window} {m : Metric} (visited : entry ∈ order.visit [] byPeer.entries)
        (reported : Store.validMetric now entry = some m) : m.peer = entry.1 := by
      apply own
      rw [bind_some, mem_entries_iff.mp ((order.mem_visit _ _ _).mp visited)]
      exact (validMetric_eq_some_iff.mp reported).1
    have keys : (order.visit [] byPeer.entries).Pairwise fun a b => a.1 ≠ b.1 :=
      (order.visit_perm [] byPeer.entries).symm.pairwise (nodupKeys_iff_pairwise.mp byPeer.nodupKeys)
        fun different => Ne.symm different
    have peers : ((order.visit [] byPeer.entries).filterMap (Store.validMetric now)).Pairwise fun a b => a.peer ≠ b.peer := by
      refine (List.Pairwise.and_mem.mp keys).filterMap _ fun a b both m reported m' reported' => ?_
      obtain ⟨first, second, different⟩ := both
      rwa [ownKey first reported, ownKey second reported']
    have sorted := pairwise_insertionSort (fun a b : Metric => b.less a = false)
      ((order.visit [] byPeer.entries).filterMap (Store.validMetric now))
    have distinct := (perm_insertionSort (fun a b : Metric => b.less a = false) _).symm.pairwise peers
      fun different => Ne.symm different
    refine (sorted.and distinct).imp ?_
    rintro a b ⟨le, different⟩
    exact (less_eq_false_iff.mp le).resolve_right fun same => different same.1

end

end IpfsCluster.Proofs.Monitor
