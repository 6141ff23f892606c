import IpfsCluster.Proofs.Allocator.Fairness
import IpfsCluster.Proofs.Cluster.Allocate

/-! # The allocation contract

For valid replication factors, what a caller of `allocate` may rely on: which peers are in the answer, how many, and in
which order. The balanced allocator takes from the partitions of each level in turn, if no metric is named twice. The
results hold for every iteration order of maps.
-/

namespace IpfsCluster.Soundness

open Model Model.Api Golang Proofs.Cluster Model.Allocator Machine Proofs.Allocator List Cluster

def uniformView (peers : List PeerID) (distinct : peers.Nodup) : MetricView where
  latestMetrics name := peers.map fun peer => { name := name, peer := peer }
  named name m member := by
    obtain ⟨peer, -, rfl⟩ := mem_map.mp member
    rfl
  onePerPeer name := by
    rw [map_map]
    exact (map_id peers).symm ▸ distinct

private theorem mem_before_of_mem_first {α : Type} {first last before after : List α} {item early : α} {count : ℕ}
    (split : (first ++ last).take count = before ++ item :: after) (late : item ∉ first) (inFirst : early ∈ first) :
    early ∈ before := by
  have start : before ++ [item] <+: first ++ last := by
    refine List.IsPrefix.trans ⟨after, ?_⟩ ( take_prefix count _)
    rw [split, append_assoc, singleton_append]
  rcases prefix_or_prefix_of_prefix start (prefix_append first last) with inside | beyond
  · exact (late (inside.subset (mem_append_right _ (mem_singleton_self item)))).elim
  · rcases prefix_concat_iff.mp beyond with whole | within
    · exact (late (whole ▸ mem_append_right _ (mem_singleton_self item))).elim
    · exact within.subset inFirst

section

variable (c : Cluster) (order : MapOrder) (currentPin : Pin) (rplMin rplMax : ℤ) (blacklist priorityList : List PeerID)

theorem uniformView_identified {peers : List PeerID} (distinct : peers.Nodup) (proper : ∀ peer ∈ peers, peer ≠ "") :
    ∀ name, ∀ m ∈ (uniformView peers distinct).latestMetrics name, m.peer ≠ "" := by
  intro name m member
  obtain ⟨peer, listed, rfl⟩ := mem_map.mp member
  exact proper peer listed

def pingCluster (peers : List PeerID) (distinct : peers.Nodup) : Cluster :=
  { allocateBy := ["ping"], monitor := uniformView peers distinct, isTrustedPeer := fun _ => true }

def allocatedPin (allocations : List PeerID) : Pin :=
  { pinCid ⟨"cid"⟩ Time.zero with allocations := allocations }

variable {c blacklist} in
private theorem filter_valid_eq_self {peers : List PeerID} (valid : ∀ peer ∈ peers, peer ∈ validPeers c blacklist) :
    peers.filter (ValidPeer c blacklist ·) = peers := by
  apply filter_eq_self.mpr
  intro peer member
  exact decide_eq_true ((mem_validPeers peer).mp (valid peer member)).2

variable {c blacklist priorityList} in
private theorem length_filter_valid {currentAllocs cur prio cand : List PeerID}
    (groups : Groups c currentAllocs priorityList blacklist cur prio cand) (names : c.allocateBy ≠ [])
    (distinct : currentAllocs.Nodup) : (currentAllocs.filter (ValidPeer c blacklist ·)).length = cur.length := by
  rw [groups.cur_perm.length_eq, validCurrent, distinct.dedup]
  congr 1
  apply filter_congr
  intro peer _
  simp only [mem_validPeers, names, ne_eq, not_false_eq_true, true_and]

/-- An answer has no duplicates and enough valid peers, and only valid peers are added. It has at
most `rplMax` peers, unless it is the list of current allocations, returned with its invalid members
because between `rplMin` and `rplMax` of them are valid. -/
theorem allocate_contract (distinct : c.allocateBy.Nodup) (positive : 0 < rplMin) (ordered : rplMin ≤ rplMax)
    (distinctAllocs : (currentAllocs currentPin).Nodup) {result : List PeerID}
    (returned : c.allocate order currentPin rplMin rplMax blacklist priorityList = .ok result) :
    result.Nodup ∧ (result.length ≤ rplMax ∨ result = currentAllocs currentPin) ∧
      rplMin ≤ (result.filter (ValidPeer c blacklist ·)).length ∧
      (result.filter (ValidPeer c blacklist ·)).length ≤ rplMax ∧
      ∀ peer ∈ result, peer ∉ currentAllocs currentPin → ValidPeer c blacklist peer := by
  obtain ⟨cur, prio, cand, groups, outcome⟩ :=
    allocate_outcome c currentPin blacklist priorityList order distinct positive ordered
  rw [returned] at outcome
  cases outcome with
  | drop above =>
    have valid : ∀ peer ∈ cur.take rplMax.toNat, peer ∈ validPeers c blacklist := fun peer member =>
      ((groups.mem_cur peer).mp (mem_of_mem_take member)).1
    have length : ((cur.take rplMax.toNat).length : ℤ) = rplMax := by
      rw [length_take]
      omega
    rw [filter_valid_eq_self valid]
    refine ⟨groups.curNodup.sublist (take_sublist ..), Or.inl (by omega), by omega, by omega, ?_⟩
    intro peer member _
    exact ((mem_validPeers peer).mp (valid peer member)).2
  | keep enough below =>
    have names : c.allocateBy ≠ [] := by
      obtain ⟨peer, member⟩ := exists_mem_of_length_pos (l := cur) (by omega)
      exact ((mem_validPeers peer).mp ((groups.mem_cur peer).mp member).1).1
    rw [length_filter_valid groups names distinctAllocs]
    exact ⟨distinctAllocs, Or.inr rfl, enough, below, fun peer member other => (other member).elim⟩
  | extend first last below fromPrio fromCand whole enough =>
    obtain ⟨nodup, valid⟩ := groups.extension fromPrio fromCand (rplMax - cur.length).toNat
    have length : ((cur ++ (first ++ last).take (rplMax - cur.length).toNat).length : ℤ) =
        min rplMax (cur.length + (first ++ last).length) := by
      rw [length_append, length_take]
      omega
    rw [filter_valid_eq_self valid]
    refine ⟨nodup, Or.inl (by omega), by omega, by omega, ?_⟩
    intro peer member _
    exact ((mem_validPeers peer).mp (valid peer member)).2

theorem allocate_contract_extending :
    (pingCluster ["a", "b", "c"] (by decide)).allocate .stored (allocatedPin ["a"]) 2 2 [] ["c"] = .ok ["a", "c"] ∧
      (2 : ℤ) ≤ (["a", "c"].filter (ValidPeer (pingCluster ["a", "b", "c"] (by decide)) ([] : List PeerID) ·)).length :=
  ⟨by decide, (allocate_contract (pingCluster ["a", "b", "c"] (by decide)) .stored (allocatedPin ["a"]) 2 2 [] ["c"]
    (by decide) (by decide) (by decide) (by decide) (by decide)).2.2.1⟩

theorem allocate_keeps_above_maximum : (pingCluster ["a", "b"] (by decide)).allocateBy.Nodup ∧
      (currentAllocs (allocatedPin ["a", "b"])).Nodup ∧
      (pingCluster ["a", "b"] (by decide)).allocate .stored (allocatedPin ["a", "b"]) 1 1 ["b"] [] = .ok ["a", "b"] ∧
      ¬ (["a", "b"].length : ℤ) ≤ 1 := by
  decide

/-- With fewer than `rplMin` valid allocations, `allocate` fails only for lack of valid peers. Otherwise
it keeps the valid allocations and adds other valid peers until `rplMax`, priority peers first. -/
theorem allocate_extends (names : c.allocateBy ≠ []) (distinct : c.allocateBy.Nodup)
    (identified : ∀ name, ∀ m ∈ c.monitor.latestMetrics name, m.peer ≠ "") (positive : 0 < rplMin)
    (ordered : rplMin ≤ rplMax) (few : (validCurrent c (currentAllocs currentPin) blacklist).length < rplMin) :
    ((∃ err, c.allocate order currentPin rplMin rplMax blacklist priorityList = .error err) ↔
      (validCurrent c (currentAllocs currentPin) blacklist).length +
        (available c (currentAllocs currentPin) blacklist).length < rplMin) ∧
    (rplMin ≤ (validCurrent c (currentAllocs currentPin) blacklist).length +
        (available c (currentAllocs currentPin) blacklist).length →
      ∃ held added, c.allocate order currentPin rplMin rplMax blacklist priorityList = .ok (held ++ added) ∧
        held.Perm (validCurrent c (currentAllocs currentPin) blacklist) ∧ added.Nodup ∧
        (added.length : ℤ) = min (rplMax - (validCurrent c (currentAllocs currentPin) blacklist).length)
          (available c (currentAllocs currentPin) blacklist).length ∧
        (∀ peer ∈ added, ValidPeer c blacklist peer ∧ peer ∉ currentAllocs currentPin) ∧
        ∀ before peer after, added = before ++ peer :: after → peer ∉ priorityList →
          ∀ prior ∈ priorityList, ValidPeer c blacklist prior → prior ∉ currentAllocs currentPin → prior ∈ before) := by
  obtain ⟨cur, prio, cand, groups, outcome⟩ :=
    allocate_outcome c currentPin blacklist priorityList order distinct positive ordered
  rw [← groups.cur_perm.length_eq] at few ⊢
  rw [← groups.rest_perm.length_eq]
  have none : "" ∉ prio ++ cand := fun empty => empty_notMem_validPeers blacklist identified
    (mem_filter.mp (groups.rest_perm.mem_iff.mp empty)).1
  generalize c.allocate order currentPin rplMin rplMax blacklist priorityList = answer at outcome ⊢
  cases outcome with
  | drop above => omega
  | keep enough below => omega
  | lack err below short =>
    have lacking := short none
    exact ⟨⟨fun _ => lacking, fun _ => ⟨err, rfl⟩⟩, fun enough => by omega⟩
  | extend first last below fromPrio fromCand whole enough =>
    obtain ⟨allPrio, allCand⟩ := whole none
    have all := allPrio.append allCand
    rw [all.length_eq] at enough
    refine ⟨⟨?_, fun short => by omega⟩, fun _ => ⟨cur, _, rfl, groups.cur_perm, ?_, ?_, ?_, ?_⟩⟩
    · rintro ⟨err, failed⟩
      cases failed
    · exact (all.nodup_iff.mpr groups.rest_nodup).sublist (take_sublist ..)
    · rw [length_take, all.length_eq]
      omega
    · intro peer member
      have listed := groups.rest_perm.mem_iff.mp (all.mem_iff.mp (mem_of_mem_take member))
      exact ⟨((mem_validPeers peer).mp (mem_filter.mp listed).1).2, of_decide_eq_true (mem_filter.mp listed).2⟩
    · intro before peer after split notPrior prior isPrior valid other
      have inFirst : prior ∈ first := allPrio.mem_iff.mpr
        ((groups.mem_prio prior).mpr ⟨(mem_validPeers prior).mpr ⟨names, valid⟩, other, isPrior⟩)
      have notInFirst : peer ∉ first := fun inFirst =>
        notPrior ((groups.mem_prio peer).mp (allPrio.mem_iff.mp inFirst)).2.2
      exact mem_before_of_mem_first split notInFirst inFirst

theorem allocate_extends_by_two :
    ∃ held added, (pingCluster ["a", "b", "c", "d"] (by decide)).allocate .stored (allocatedPin ["a"]) 2 3 ["b"]
        ["d"] = .ok (held ++ added) ∧ held.Perm ["a"] ∧ (added.length : ℤ) = 2 := by
  obtain ⟨held, added, answer, same, -, length, -⟩ :=
    (allocate_extends (pingCluster ["a", "b", "c", "d"] (by decide)) .stored (allocatedPin ["a"]) 2 3 ["b"] ["d"]
      (by decide) (by decide) (uniformView_identified (by decide) (by decide))
      (by decide) (by decide) (by decide)).2 (by decide)
  exact ⟨held, added, answer, same, length⟩

end

/-- For metrics that are about the same peers, each level of the tree is sorted and picked from in turn, and the loop
of `sortedPeers` ends by itself, with each peer listed once. -/
theorem sortedPeers_fair (order : MapOrder) (site turn : List ℕ) {rootMetric : String} {rest : List String}
    (distinct : (rootMetric :: rest).Nodup) {set : MetricsSet} {peers : List PeerID}
    (uniform : Uniform set (rootMetric :: rest) peers) (proper : "" ∉ peers) :
    (∀ level ∈ levels rest.length (partitionMetrics order site set rootMetric rest), level.Pairwise Bucket.Before ∧
        RoundRobin (level.map (·.peers))
          (sortedPeers order turn rest.length (partitionMetrics order site set rootMetric rest))) ∧
      (sortedPeers order turn rest.length (partitionMetrics order site set rootMetric rest)).Perm peers ∧
      ∀ fuel, peers.length < fuel →
        sortedPeersLoop order turn rest.length fuel 0 (partitionMetrics order site set rootMetric rest) =
          sortedPeers order turn rest.length (partitionMetrics order site set rootMetric rest) := by
  obtain ⟨pending, intact⟩ := partitionMetrics_spec order site set rootMetric rest peers distinct uniform
  have none : "" ∉ (partitionMetrics order site set rootMetric rest).pending rest.length :=
    fun here => proper (pending.mem_iff.mp here)
  refine ⟨?_, (sortedPeers_perm intact.alive none).trans pending, ?_⟩
  · intro level member
    obtain ⟨last, served⟩ := serves_sortedPeers order turn (partitionMetrics order site set rootMetric rest)
    have fair := fairLevel_of_tree intact (pending.nodup_iff.mpr uniform.distinct) none served level member
    exact ⟨fair.sorted, fair.fair⟩
  · intro fuel enough
    rw [← pending.length_eq] at enough
    exact sortedPeersLoop_fuel (Nat.lt_succ_self _) enough

def regionMetrics : MetricsSet :=
  AList.insert "region" [{ name := "region", peer := "a", value := "eu", partitionable := true },
      { name := "region", peer := "b", value := "eu", partitionable := true },
      { name := "region", peer := "c", value := "eu", partitionable := true },
      { name := "region", peer := "d", value := "us", partitionable := true }]
    (AList.insert "freespace"
      [{ name := "freespace", peer := "a", weight := 1 }, { name := "freespace", peer := "b", weight := 3 },
        { name := "freespace", peer := "c", weight := 2 }, { name := "freespace", peer := "d", weight := 1 }] ∅)

theorem sortedPeers_fair_regions :
    sortedPeers .stored [1] 1 (partitionMetrics .stored [0] regionMetrics "region" ["freespace"]) =
        ["b", "d", "c", "a"] ∧ ∀ level ∈ levels 1 (partitionMetrics .stored [0] regionMetrics "region" ["freespace"]),
        RoundRobin (level.map (·.peers))
          (sortedPeers .stored [1] 1 (partitionMetrics .stored [0] regionMetrics "region" ["freespace"])) := by
  refine ⟨by decide +kernel, fun level member => ?_⟩
  have uniform : Uniform regionMetrics ["region", "freespace"] ["a", "b", "c", "d"] := ⟨by decide, by decide +kernel⟩
  exact ((sortedPeers_fair .stored [0] [1] (by decide) uniform (by decide)).1 level member).2

def oneRegion : MetricsSet := AList.insert "region" [{ name := "region", peer := "a", value := "eu" }] ∅

theorem sortedPeers_empty_of_repeated_name : Uniform oneRegion ["region", "region"] ["a"] ∧ "" ∉ ["a"] ∧
      sortedPeers .stored [1] 1 (partitionMetrics .stored [0] oneRegion "region" ["region"]) = [] :=
  ⟨⟨by decide, by decide +kernel⟩, by decide, by decide +kernel⟩

end IpfsCluster.Soundness
