import IpfsCluster.Model.Cluster.Allocate
import IpfsCluster.Proofs.Allocator.Partitioning

/-! # Which peers `filterMetrics` keeps

A peer is usable when it is not blacklisted, the trust options allow it and it holds every metric that the allocator
asks for. The groups are the usable peers that hold the pin, those on the priority list and all others, whatever the
iteration order.
-/

namespace IpfsCluster.Proofs.Cluster

open Model Model.Api Golang Allocator List AList

section

variable (view : MetricView) (names : List String)

def HoldsAll (peer : PeerID) : Prop := ∀ name ∈ names, peer ∈ (view.latestMetrics name).map (·.peer)

instance (peer : PeerID) : Decidable (HoldsAll view names peer) := inferInstanceAs (Decidable (∀ _ ∈ _, _))

def allMetrics : List Metric := names.flatMap view.latestMetrics

variable {view names}

theorem length_filter_peer (peer : PeerID) : ((allMetrics view names).filter (fun m => decide (m.peer = peer))).length =
      names.countP (fun name => decide (peer ∈ (view.latestMetrics name).map (·.peer))) := by
  induction names with
  | nil => rfl
  | cons name rest ih =>
    have one : ((view.latestMetrics name).filter (fun m => decide (m.peer = peer))).length =
        ((view.latestMetrics name).map (·.peer)).count peer := by
      rw [List.count, countP_map, countP_eq_length_filter]
      rfl
    rw [allMetrics, flatMap_cons, filter_append, length_append, one]
    rw [countP_cons, ← ih, Nat.add_comm]
    congr 1
    by_cases held : peer ∈ (view.latestMetrics name).map (·.peer)
    · simp only [held, decide_true, ↓reduceIte]
      exact count_eq_one_of_mem (view.onePerPeer name) held
    · simp only [held, decide_false, Bool.false_eq_true, ↓reduceIte]
      exact count_eq_zero_of_not_mem held

theorem length_filter_peer_eq_iff (peer : PeerID) :
    ((allMetrics view names).filter (fun m => decide (m.peer = peer))).length = names.length ↔
      HoldsAll view names peer := by
  rw [length_filter_peer, countP_eq_length]
  simp [HoldsAll]

theorem filter_name_allMetrics (distinct : names.Nodup) {name : String} (asked : name ∈ names) :
    (allMetrics view names).filter (fun m => decide (m.name = name)) = view.latestMetrics name := by
  induction names with
  | nil => simp at asked
  | cons first rest ih =>
    obtain ⟨other, distinctRest⟩ := nodup_cons.mp distinct
    rw [allMetrics, flatMap_cons, filter_append]
    rcases mem_cons.mp asked with rfl | later
    · have all : (view.latestMetrics name).filter (fun m => decide (m.name = name)) =
          view.latestMetrics name :=
        filter_eq_self.mpr (fun m member => decide_eq_true (view.named name m member))
      have none : (rest.flatMap view.latestMetrics).filter (fun m => decide (m.name = name)) = [] := by
        apply filter_eq_nil_iff.mpr
        intro m member
        obtain ⟨next, inRest, inNext⟩ := mem_flatMap.mp member
        have named := view.named next m inNext
        rw [decide_eq_true_eq, named]
        rintro rfl
        exact other inRest
      rw [all, none, append_nil]
    · have none : (view.latestMetrics first).filter (fun m => decide (m.name = name)) = [] := by
        apply filter_eq_nil_iff.mpr
        intro m member
        rw [decide_eq_true_eq, view.named first m member]
        rintro rfl
        exact other later
      rw [none, nil_append]
      exact ih distinctRest later

theorem map_peer_filter_name (distinct : names.Nodup) {name : String} (asked : name ∈ names)
    {peer : PeerID} (held : peer ∈ (view.latestMetrics name).map (·.peer)) {metrics : List Metric}
    (same : metrics.Perm ((allMetrics view names).filter (fun m => decide (m.peer = peer)))) :
    (metrics.filter (fun m => decide (m.name = name))).map (·.peer) = [peer] := by
  have sameName := same.filter (fun m => decide (m.name = name))
  rw [filter_comm, filter_name_allMetrics distinct asked] at sameName
  have peers := sameName.map (·.peer)
  have single : ((view.latestMetrics name).filter (fun m => decide (m.peer = peer))).map (·.peer) = [peer] := by
    have commute : ((view.latestMetrics name).filter (fun m => decide (m.peer = peer))).map (·.peer) =
        ((view.latestMetrics name).map (·.peer)).filter (fun other => decide (other = peer)) := by
      rw [filter_map]
      rfl
    rw [commute, filter_eq]
    have once := count_eq_one_of_mem (view.onePerPeer name) held
    rw [once]
    rfl
  rw [single] at peers
  exact perm_singleton.mp peers

end

private theorem foldl_fill (entries : List (Sigma fun _ : PeerID => List Metric)) (numMetrics : ℕ)
    (set : MetricsSet) (peers : List PeerID) :
    let filled := entries.foldl (fun (set, peers) entry =>
      if entry.2.length = numMetrics then
        (entry.2.foldl (fun set m => MetricsSet.append set m.name m) set, peers ++ [entry.1])
      else (set, peers)) (set, peers)
    let kept := entries.filter fun entry => decide (entry.2.length = numMetrics)
    filled.2 = peers ++ kept.map (·.1) ∧ ∀ name, filled.1.get name =
        set.get name ++ (kept.flatMap (·.2)).filter fun m => decide (m.name = name) := by
  induction entries generalizing set peers with
  | nil => simp
  | cons entry rest ih =>
    dsimp only at ih ⊢
    rw [foldl_cons]
    by_cases full : entry.2.length = numMetrics
    · obtain ⟨listed, metrics⟩ := ih (entry.2.foldl (fun set m => MetricsSet.append set m.name m) set)
        (peers ++ [entry.1])
      rw [if_pos full]
      refine ⟨?_, ?_⟩
      · rw [listed]
        simp [full]
      · intro name
        have grouped := listAt_appendAll (fun m : Metric => m.name) (fun _ => true) entry.2 set name
        simp only [appendAll, ↓reduceIte, Bool.true_and] at grouped
        rw [metrics name, MetricsSet.get]
        simp only [MetricsSet.append, grouped]
        simp [full, MetricsSet.get]
    · rw [if_neg full]
      simpa [full] using ih set peers

def gather (select : PeerID → Bool) (metrics : List Metric) : AList (fun _ : PeerID => List Metric) :=
  appendAll (·.peer) (fun m => select m.peer) metrics ∅

section

variable {select : PeerID → Bool} {metrics : List Metric}

theorem mem_gather (peer : PeerID) :
    peer ∈ gather select metrics ↔ select peer = true ∧ ∃ m ∈ metrics, m.peer = peer := by
  rw [gather, mem_appendAll]
  constructor
  · rintro (none | ⟨m, member, admitted, rfl⟩)
    · exact (notMem_empty peer none).elim
    · exact ⟨admitted, m, member, rfl⟩
  · rintro ⟨admitted, m, member, rfl⟩
    exact Or.inr ⟨m, member, admitted, rfl⟩

theorem listAt_gather {peer : PeerID} (admitted : select peer = true) :
    (gather select metrics).listAt peer = metrics.filter fun m => decide (m.peer = peer) := by
  rw [gather, listAt_appendAll, listAt_empty, nil_append]
  apply filter_congr
  intro m _
  by_cases same : m.peer = peer
  · simp [same, admitted]
  · simp [same]

theorem mem_entries_gather (entry : Sigma fun _ : PeerID => List Metric) :
    entry ∈ (gather select metrics).entries ↔ select entry.1 = true ∧ (∃ m ∈ metrics, m.peer = entry.1) ∧
      entry.2 = metrics.filter fun m => decide (m.peer = entry.1) := by
  rw [mem_entries_iff]
  constructor
  · intro found
    have present := (mem_gather entry.1).mp (lookup_isSome.mp (by rw [found]; rfl))
    refine ⟨present.1, present.2, ?_⟩
    rw [← listAt_gather present.1, listAt, found]
    rfl
  · rintro ⟨admitted, some, same⟩
    rw [lookup_eq_some_listAt ((mem_gather _).mpr ⟨admitted, some⟩), listAt_gather admitted, same]

end

/-- The group that `fillMetricsSet` makes of the metrics of the peers that `select` admits. -/
structure Group (view : MetricView) (names : List String) (select : PeerID → Bool)
    (group : MetricsSet × List PeerID) : Prop where
  mem : ∀ peer, peer ∈ group.2 ↔ select peer = true ∧ names ≠ [] ∧ HoldsAll view names peer
  uniform : Uniform group.1 names group.2

section

variable {view : MetricView} {names : List String} {select : PeerID → Bool} {metrics : List Metric}

private theorem mem_kept (all : metrics.Perm (allMetrics view names)) (entry : Sigma fun _ : PeerID => List Metric) :
    entry ∈ (gather select metrics).entries ∧ entry.2.length = names.length ↔
      (select entry.1 = true ∧ names ≠ [] ∧ HoldsAll view names entry.1) ∧
        entry.2 = metrics.filter fun m => decide (m.peer = entry.1) := by
  have count : (metrics.filter fun m => decide (m.peer = entry.1)).length = names.length ↔
      HoldsAll view names entry.1 := by
    rw [(all.filter _).length_eq]
    exact length_filter_peer_eq_iff entry.1
  rw [mem_entries_gather]
  constructor
  · rintro ⟨⟨admitted, ⟨m, member, -⟩, same⟩, full⟩
    refine ⟨⟨admitted, ?_, count.mp (same ▸ full)⟩, same⟩
    rintro rfl
    exact not_mem_nil (all.mem_iff.mp member)
  · rintro ⟨⟨admitted, nonempty, held⟩, same⟩
    refine ⟨⟨admitted, ?_, same⟩, same ▸ count.mpr held⟩
    obtain ⟨name, asked⟩ := exists_mem_of_ne_nil _ nonempty
    obtain ⟨m, member, here⟩ := mem_map.mp (held name asked)
    exact ⟨m, all.mem_iff.mpr (mem_flatMap.mpr ⟨name, asked, member⟩), here⟩

theorem fillMetricsSet_group (distinct : names.Nodup) (order : MapOrder) (site : List ℕ)
    (all : metrics.Perm (allMetrics view names)) :
    Group view names select (Cluster.fillMetricsSet order site names.length (gather select metrics)) := by
  obtain ⟨listed, filled⟩ := foldl_fill (order.visit site (gather select metrics).entries) names.length ∅ []
  rw [nil_append] at listed
  generalize keptDef : (order.visit site (gather select metrics).entries).filter
    (fun entry => decide (entry.2.length = names.length)) = kept at listed filled
  have kept_iff (entry : Sigma fun _ : PeerID => List Metric) : entry ∈ kept ↔
      (select entry.1 = true ∧ names ≠ [] ∧ HoldsAll view names entry.1) ∧
        entry.2 = metrics.filter fun m => decide (m.peer = entry.1) := by
    rw [← mem_kept all, ← keptDef, mem_filter, MapOrder.mem_visit, decide_eq_true_eq]
  have peers_eq : (Cluster.fillMetricsSet order site names.length (gather select metrics)).2 = kept.map (·.1) := listed
  refine ⟨?_, ?_, ?_⟩
  · intro peer
    rw [peers_eq, mem_map]
    constructor
    · rintro ⟨entry, member, rfl⟩
      exact ((kept_iff entry).mp member).1
    · intro usable
      exact ⟨⟨peer, metrics.filter fun m => decide (m.peer = peer)⟩, (kept_iff _).mpr ⟨usable, rfl⟩, rfl⟩
  · have visited := (order.visit_perm site (gather select metrics).entries).map Sigma.fst
    rw [peers_eq, ← keptDef]
    exact (visited.nodup_iff.mpr (gather select metrics).nodupKeys).sublist (filter_sublist.map _)
  · intro name asked
    have metricsOf : (Cluster.fillMetricsSet order site names.length (gather select metrics)).1.get name =
        (kept.flatMap (·.2)).filter fun m => decide (m.name = name) := filled name
    rw [peers_eq, metricsOf, filter_flatMap, map_flatMap, map_eq_flatMap]
    apply List.Perm.of_eq
    apply flatMap_congr
    intro entry member
    obtain ⟨⟨-, -, held⟩, same⟩ := (kept_iff entry).mp member
    exact map_peer_filter_name distinct asked (held name asked) (same ▸ all.filter _)

end

section

variable (c : Cluster) (currentAllocs priorityList blacklist : List PeerID)

def allowed (peer : PeerID) : Bool :=
  !blacklist.contains peer && !(c.config.pinOnlyOnTrustedPeers && !c.isTrustedPeer peer) &&
    !(c.config.pinOnlyOnUntrustedPeers && c.isTrustedPeer peer)

def isCurrent (peer : PeerID) : Bool := allowed c blacklist peer && currentAllocs.contains peer

def isPriority (peer : PeerID) : Bool :=
  allowed c blacklist peer && !currentAllocs.contains peer && priorityList.contains peer

def isCandidate (peer : PeerID) : Bool :=
  allowed c blacklist peer && !currentAllocs.contains peer && !priorityList.contains peer

private theorem classify_eq (maps : PeersMaps) (m : Metric) : c.classify currentAllocs priorityList blacklist maps m =
      { cur := if isCurrent c currentAllocs blacklist m.peer then maps.cur.appendAt m.peer m else maps.cur
        cand := if isCandidate c currentAllocs priorityList blacklist m.peer
          then maps.cand.appendAt m.peer m else maps.cand
        prio := if isPriority c currentAllocs priorityList blacklist m.peer
          then maps.prio.appendAt m.peer m else maps.prio } := by
  simp only [Cluster.classify, isCurrent, isCandidate, isPriority, allowed]
  rcases Bool.eq_false_or_eq_true (blacklist.contains m.peer) with black | black
  · simp only [black]
    rfl
  rcases Bool.eq_false_or_eq_true (c.config.pinOnlyOnTrustedPeers && !c.isTrustedPeer m.peer) with trust | trust
  · simp only [black, trust]
    rfl
  rcases Bool.eq_false_or_eq_true (c.config.pinOnlyOnUntrustedPeers && c.isTrustedPeer m.peer) with untrust | untrust
  · simp only [black, trust, untrust]
    rfl
  rcases Bool.eq_false_or_eq_true (currentAllocs.contains m.peer) with held | held
  · simp only [black, trust, untrust, held]
    rfl
  · simp only [black, trust, untrust, held]
    cases priorityList.contains m.peer <;> rfl

theorem foldl_classify (metrics : List Metric) : metrics.foldl (c.classify currentAllocs priorityList blacklist) {} =
      { cur := gather (isCurrent c currentAllocs blacklist) metrics
        cand := gather (isCandidate c currentAllocs priorityList blacklist) metrics
        prio := gather (isPriority c currentAllocs priorityList blacklist) metrics } := by
  have pass (maps : PeersMaps) : metrics.foldl (c.classify currentAllocs priorityList blacklist) maps =
        { cur := maps.cur.appendAll (·.peer) (fun m => isCurrent c currentAllocs blacklist m.peer) metrics
          cand := maps.cand.appendAll (·.peer)
            (fun m => isCandidate c currentAllocs priorityList blacklist m.peer) metrics
          prio := maps.prio.appendAll (·.peer)
            (fun m => isPriority c currentAllocs priorityList blacklist m.peer) metrics } := by
    induction metrics generalizing maps with
    | nil => rfl
    | cons m rest ih => rw [foldl_cons, ih, classify_eq]; rfl
  exact pass {}

end

theorem metricsSet_entries_perm (c : Cluster) (distinct : c.allocateBy.Nodup) :
    (c.metricsSet.entries.flatMap (·.2)).Perm (allMetrics c.monitor c.allocateBy) := by
  have fold (names : List String) (set : MetricsSet) (distinct : names.Nodup) (absent : ∀ name ∈ names, name ∉ set) :
      ((names.foldl (fun mSet name => mSet.insert name (c.monitor.latestMetrics name)) set).entries.flatMap
        (·.2)).Perm (allMetrics c.monitor names ++ set.entries.flatMap (·.2)) := by
    induction names generalizing set with
    | nil => exact .refl _
    | cons name rest ih =>
      obtain ⟨other, distinctRest⟩ := nodup_cons.mp distinct
      have absentHere := absent name (mem_cons_self ..)
      rw [foldl_cons]
      refine (ih _ distinctRest ?_).trans ?_
      · intro next member stored
        rcases (mem_insert _).mp stored with rfl | old
        · exact other member
        · exact absent next (mem_cons_of_mem _ member) old
      · rw [entries_insert_of_notMem absentHere, flatMap_cons, allMetrics, allMetrics, flatMap_cons, append_assoc]
        exact perm_append_comm_assoc _ _ _
  have whole := fold c.allocateBy ∅ distinct (fun name _ => notMem_empty name)
  rwa [empty_entries, flatMap_nil, append_nil] at whole

theorem filterMetrics_groups (c : Cluster) (order : MapOrder)
    (currentAllocs priorityList blacklist : List PeerID) (distinct : c.allocateBy.Nodup) :
    let classified := c.filterMetrics order c.metricsSet c.allocateBy.length currentAllocs priorityList blacklist
    Group c.monitor c.allocateBy (isCurrent c currentAllocs blacklist) (classified.current, classified.currentPeers) ∧
      Group c.monitor c.allocateBy (isCandidate c currentAllocs priorityList blacklist)
        (classified.candidate, classified.candidatePeers) ∧
      Group c.monitor c.allocateBy (isPriority c currentAllocs priorityList blacklist)
        (classified.priority, classified.priorityPeers) := by
  have all : ((order.visit [4] c.metricsSet.entries).flatMap (·.2)).Perm (allMetrics c.monitor c.allocateBy) :=
    ((order.visit_perm [4] c.metricsSet.entries).flatMap_right _).trans (metricsSet_entries_perm c distinct)
  simp only [Cluster.filterMetrics, ← foldl_flatMap, foldl_classify]
  exact ⟨fillMetricsSet_group distinct order [5] all, fillMetricsSet_group distinct order [6] all,
    fillMetricsSet_group distinct order [7] all⟩

end IpfsCluster.Proofs.Cluster
