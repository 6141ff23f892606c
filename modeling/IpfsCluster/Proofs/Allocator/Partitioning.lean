import IpfsCluster.Proofs.Allocator.Picking

/-! # Partitioning keeps every peer exactly once

Grouping metrics of the same peers by value puts each peer into exactly one bottom partition. The tree built by
`partitionMetrics` has not been picked from, and its pending peers are those peers, for every iteration order.
-/

namespace IpfsCluster.Proofs.Allocator

open Golang List Model.Allocator Model.Api Partition MetricsSet AList

section

structure Bucket where
  value : String
  weight : Int64
  aggregatedWeight : Int64
  peers : List PeerID

/-- More weight comes first, then more aggregated weight, then the smaller value. -/
def Bucket.Before (p q : Bucket) : Prop :=
  q.weight < p.weight ∨ q.weight = p.weight ∧
    (q.aggregatedWeight < p.aggregatedWeight ∨ q.aggregatedWeight = p.aggregatedWeight ∧ p.value ≤ q.value)

theorem Bucket.before_total (p q : Bucket) : p.Before q ∨ q.Before p := by
  unfold Bucket.Before
  grind

theorem Bucket.Before.trans {p q r : Bucket} (first : p.Before q) (second : q.Before r) : p.Before r := by
  unfold Bucket.Before at *
  grind

variable {σ : Type}

def bucket (p : Partition σ) : Bucket := ⟨p.value, p.weight, p.aggregatedWeight, p.peers.keys⟩

theorem less_eq_false_iff (p q : Partition σ) : q.less p = false ↔ (bucket p).Before (bucket q) := by
  unfold less Bucket.Before bucket
  grind

/-- A level that has not been picked from: its partitions are sorted, and all of their peers are pending. -/
structure Whole (below : σ → List PeerID) (whole : σ → Prop) (pnedm : PartitionedMetric σ) : Prop where
  start : pnedm.curChoosingIndex = 0
  running : pnedm.noMore = false
  sorted : pnedm.partitions.Pairwise fun p q => (bucket p).Before (bucket q)
  unpicked : ∀ p ∈ pnedm.partitions, (p.pending below).Perm p.peers.keys
  subs : ∀ p ∈ pnedm.partitions, ∀ s, p.sub = some s → whole s

theorem Whole.alive {below : σ → List PeerID} {whole alive : σ → Prop} (living : ∀ s, whole s → alive s)
    {pnedm : PartitionedMetric σ} (intact : Whole below whole pnedm) : Alive below alive pnedm where
  index filled := by
    rw [intact.start]
    exact length_pos_iff.mpr filled
  stopped stopped := absurd (intact.running.symm.trans stopped) Bool.false_ne_true
  subs p member s present := living s (intact.subs p member s present)

def TreeWhole : (depth : ℕ) → PartitionTree depth → Prop
  | 0 => Whole (fun none => none.elim) (fun _ => True)
  | depth + 1 => Whole (PartitionTree.pending depth) (TreeWhole depth)

theorem TreeWhole.alive {depth : ℕ} {tree : PartitionTree depth} (intact : TreeWhole depth tree) :
    TreeAlive depth tree := by
  induction depth with
  | zero => exact Whole.alive (fun _ _ => trivial) intact
  | succ depth ih => exact Whole.alive (fun _ => ih) intact

end

@[simp] theorem get_empty (name : String) : get ∅ name = [] := rfl

theorem get_foldl_append (select : Metric → Bool) (key : String) (metrics : List Metric) (set : MetricsSet)
    (name : String) : get (metrics.foldl (fun acc m => if select m then append acc key m else acc) set) name =
      if name = key then get set name ++ metrics.filter select else get set name := by
  change listAt (appendAll (fun _ => key) select metrics set) name = _
  rw [listAt_appendAll]
  by_cases same : name = key
  · simp [same, MetricsSet.get]
  · simp [same, Ne.symm same, MetricsSet.get]

section

variable {σ : Type} (order : MapOrder) (site : List ℕ)

theorem get_filteredSet (set : MetricsSet) (rootMetric : String) (p : Partition σ) (name : String) :
    get (filteredSet order site set rootMetric p) name = if name = rootMetric then []
      else (set.get name).filter fun m => (p.peers.lookup m.peer).isSome := by
  have fold (entries : List (Sigma fun _ : String => List Metric)) (keys : entries.NodupKeys) (acc : MetricsSet) :
      get (entries.foldl (fun filtered entry =>
        if entry.1 = rootMetric then filtered
        else entry.2.foldl (fun filtered m =>
          if (p.peers.lookup m.peer).isSome then append filtered entry.1 m else filtered)
          filtered) acc) name =
        acc.get name ++ if name = rootMetric then [] else
          ((entries.dlookup name).getD []).filter fun m => (p.peers.lookup m.peer).isSome := by
    induction entries generalizing acc with
    | nil => simp
    | cons entry rest ih =>
      obtain ⟨key, metrics⟩ := entry
      obtain ⟨fresh, restKeys⟩ := nodupKeys_cons.mp keys
      rw [foldl_cons, ih restKeys]
      by_cases root : name = rootMetric
      · subst root
        by_cases same : key = name
        · simp [same]
        · simp [same, get_foldl_append, Ne.symm same]
      · by_cases same : name = key
        · subst same
          have absent : rest.dlookup name = none := dlookup_eq_none.mpr fresh
          simp [root, get_foldl_append, absent]
        · by_cases keyRoot : key = rootMetric
          · simp [root, keyRoot]
          · have skip : List.dlookup name (⟨key, metrics⟩ :: rest) = rest.dlookup name :=
              dlookup_cons_ne _ _ same
            simp [root, keyRoot, same, get_foldl_append, skip]
  have keys : (order.visit site set.entries).NodupKeys :=
    (perm_nodupKeys (order.visit_perm site set.entries)).mpr set.nodupKeys
  rw [filteredSet, fold _ keys, get_empty, nil_append, perm_dlookup name keys (order.visit_perm site set.entries)]
  rfl

/-- A partition as `partitionValues` leaves it: no sub-partitions and no picked peer. -/
structure Fresh (p : Partition σ) : Prop where
  bottom : p.sub = none
  unused : ∀ entry ∈ p.peers.entries, entry.2 = false

variable {p : Partition σ}

theorem Fresh.pending (fresh : Fresh p) (below : σ → List PeerID) : p.pending below = p.peers.keys := by
  have all : p.peers.entries.filter (fun entry => !entry.2) = p.peers.entries :=
    filter_eq_self.mpr (fun entry member => by simp [fresh.unused entry member])
  simp only [Partition.pending, fresh.bottom, all]
  rfl

theorem fresh_ofMetric (m : Metric) : Fresh (ofMetric m : Partition σ) where
  bottom := rfl
  unused := by simp [ofMetric]

theorem Fresh.join (fresh : Fresh p) (m : Metric) : Fresh (p.join m) where
  bottom := fresh.bottom
  unused := by
    intro entry member
    simp only [Partition.join, entries_insert, mem_cons] at member
    rcases member with rfl | old
    · rfl
    · exact fresh.unused entry ((kerase_sublist _ _).subset old)

theorem keys_join {m : Metric} (absent : m.peer ∉ p.peers.keys) : (p.join m).peers.keys = m.peer :: p.peers.keys := by
  rw [Partition.join, keys_insert, erase_of_not_mem absent]

private def gathered (acc : List (Partition σ) × AList (fun _ : String => Partition σ)) : List PeerID :=
  acc.1.flatMap (·.peers.keys) ++ acc.2.entries.flatMap (·.2.peers.keys)

private def made (acc : List (Partition σ) × AList (fun _ : String => Partition σ)) : List (Partition σ) :=
  acc.1 ++ acc.2.entries.map (·.2)

private theorem partitionValue_step (acc : List (Partition σ) × AList (fun _ : String => Partition σ)) (m : Metric)
    (absent : m.peer ∉ gathered acc) (fresh : ∀ p ∈ made acc, Fresh p) :
    (gathered (partitionValue acc m)).Perm (m.peer :: gathered acc) ∧ ∀ p ∈ made (partitionValue acc m), Fresh p := by
  obtain ⟨partitions, byValue⟩ := acc
  unfold partitionValue
  split
  · refine ⟨?_, ?_⟩
    · simp only [gathered, flatMap_append, flatMap_singleton, ofMetric, keys_singleton, append_assoc, singleton_append]
      exact perm_middle
    · intro p member
      simp only [made, append_assoc, mem_append, mem_singleton] at member
      rcases member with old | rfl | old
      · exact fresh p (mem_append_left _ old)
      · exact fresh_ofMetric m
      · exact fresh p (mem_append_right _ old)
  · split
    · next p found =>
      have split := entries_perm_cons_erase found
      have entry : (⟨m.value, p⟩ : Sigma fun _ : String => Partition σ) ∈ byValue.entries :=
        mem_lookup_iff.mp found
      have member : p ∈ made (partitions, byValue) :=
        mem_append_right _ (mem_map.mpr ⟨_, entry, rfl⟩)
      have outside : m.peer ∉ p.peers.keys := fun here =>
        absent (mem_append_right _ (mem_flatMap.mpr ⟨_, entry, here⟩))
      refine ⟨?_, ?_⟩
      · have old : (byValue.entries.flatMap (·.2.peers.keys)).Perm
            (p.peers.keys ++ (byValue.erase m.value).entries.flatMap (·.2.peers.keys)) :=
          split.flatMap_right _
        simp only [gathered, entries_insert, flatMap_cons, keys_join outside, cons_append]
        refine perm_middle.trans (List.Perm.cons _ ?_)
        exact old.symm.append_left _
      · intro q stored
        simp only [made, entries_insert, map_cons, mem_append, mem_cons] at stored
        rcases stored with old | rfl | old
        · exact fresh q (mem_append_left _ old)
        · exact (fresh p member).join m
        · obtain ⟨entry, here, rfl⟩ := mem_map.mp old
          exact fresh _ (mem_append_right _ (mem_map_of_mem ((kerase_sublist _ _).subset here)))
    · next missing =>
      have absentKey : m.value ∉ byValue := lookup_eq_none.mp missing
      refine ⟨?_, ?_⟩
      · simp only [gathered, entries_insert_of_notMem absentKey, flatMap_cons,
          ofMetric, keys_singleton, singleton_append]
        exact perm_middle
      · intro q stored
        simp only [made, entries_insert_of_notMem absentKey, map_cons, mem_append, mem_cons] at stored
        rcases stored with old | rfl | old
        · exact fresh q (mem_append_left _ old)
        · exact fresh_ofMetric m
        · exact fresh q (mem_append_right _ old)

private theorem partitionValue_foldl (metrics : List Metric)
    (acc : List (Partition σ) × AList (fun _ : String => Partition σ)) (distinct : (metrics.map (·.peer)).Nodup)
    (absent : ∀ m ∈ metrics, m.peer ∉ gathered acc) (fresh : ∀ p ∈ made acc, Fresh p) :
    (gathered (metrics.foldl partitionValue acc)).Perm (metrics.map (·.peer) ++ gathered acc) ∧
      ∀ p ∈ made (metrics.foldl partitionValue acc), Fresh p := by
  induction metrics generalizing acc with
  | nil => exact ⟨.refl _, fresh⟩
  | cons m rest ih =>
    obtain ⟨outside, distinctRest⟩ := nodup_cons.mp distinct
    obtain ⟨added, freshNext⟩ := partitionValue_step acc m (absent m (mem_cons_self ..)) fresh
    have absentNext : ∀ other ∈ rest, other.peer ∉ gathered (partitionValue acc m) := by
      intro other member here
      rcases mem_cons.mp (added.mem_iff.mp here) with same | old
      · exact outside (mem_map.mpr ⟨other, member, same⟩)
      · exact absent other (mem_cons_of_mem _ member) old
    obtain ⟨gatheredRest, freshRest⟩ := ih _ distinctRest absentNext freshNext
    refine ⟨?_, freshRest⟩
    exact gatheredRest.trans ((added.append_left _).trans perm_middle)

theorem partitionValues_spec (metrics : List Metric) (distinct : (metrics.map (·.peer)).Nodup) :
    ((partitionValues order site metrics : List (Partition σ)).flatMap (·.peers.keys)).Perm (metrics.map (·.peer)) ∧
      ∀ p ∈ (partitionValues order site metrics : List (Partition σ)), Fresh p := by
  obtain ⟨all, fresh⟩ := partitionValue_foldl (σ := σ) metrics ([], ∅) distinct
    (fun _ _ => by simp [gathered]) (by simp [made])
  have visited := order.visit_perm site (metrics.foldl (partitionValue (σ := σ)) ([], ∅)).2.entries
  refine ⟨?_, ?_⟩
  · simp only [partitionValues, flatMap_append, flatMap_map]
    refine ((visited.flatMap_right _).append_left _).trans ?_
    simpa [gathered] using all
  · intro p member
    refine fresh p ?_
    simp only [partitionValues, mem_append, mem_map, MapOrder.mem_visit] at member
    simpa only [made, mem_append, mem_map] using member

end

/-- Every named metric is about the same peers, once each. -/
structure Uniform (set : MetricsSet) (names : List String) (peers : List PeerID) : Prop where
  distinct : peers.Nodup
  each : ∀ name ∈ names, ((set.get name).map (·.peer)).Perm peers

private theorem filter_perm_of_subset {peers part : List PeerID} (distinct : peers.Nodup) (distinctPart : part.Nodup)
    (inside : part ⊆ peers) (select : PeerID → Bool) (selects : ∀ peer, select peer = true ↔ peer ∈ part) :
    (peers.filter select).Perm part := by
  apply (perm_ext_iff_of_nodup (distinct.filter _) distinctPart).mpr
  intro peer
  rw [mem_filter, selects]
  exact ⟨And.right, fun member => ⟨inside member, member⟩⟩

theorem Uniform.filtered {σ : Type} {set : MetricsSet} {rootMetric : String} {names : List String} {peers : List PeerID}
    (uniform : Uniform set (rootMetric :: names) peers) (other : rootMetric ∉ names) (order : MapOrder) (site : List ℕ)
    (p : Partition σ) (inside : p.peers.keys ⊆ peers) :
    Uniform (filteredSet order site set rootMetric p) names p.peers.keys where
  distinct := p.peers.keys_nodup
  each name member := by
    have notRoot : name ≠ rootMetric := fun same => other (same ▸ member)
    rw [get_filteredSet, if_neg notRoot]
    have commute : ((set.get name).filter fun m => (p.peers.lookup m.peer).isSome).map (·.peer) =
        ((set.get name).map (·.peer)).filter fun peer => (p.peers.lookup peer).isSome := by
      rw [filter_map]
      rfl
    rw [commute]
    refine ((uniform.each name (mem_cons_of_mem _ member)).filter _).trans ?_
    apply filter_perm_of_subset uniform.distinct p.peers.keys_nodup inside
    intro peer
    rw [AList.lookup_isSome, AList.mem_keys]

private theorem flatMap_mapIdx_perm {α β γ : Type} (items : List α) (f : ℕ → α → β) (g : β → List γ) (h : α → List γ)
    (each : ∀ index, ∀ item ∈ items, (g (f index item)).Perm (h item)) :
    ((items.mapIdx f).flatMap g).Perm (items.flatMap h) := by
  induction items generalizing f with
  | nil => simp
  | cons item rest ih =>
    rw [mapIdx_cons, flatMap_cons, flatMap_cons]
    exact (each 0 item (mem_cons_self ..)).append
      (ih _ (fun index other member => each (index + 1) other (mem_cons_of_mem _ member)))

/-- The tree of a uniform set has not been picked from and has exactly the peers of the set pending. -/
theorem partitionMetrics_spec (order : MapOrder) (site : List ℕ) (set : MetricsSet) (rootMetric : String)
    (rest : List String) (peers : List PeerID) (distinct : (rootMetric :: rest).Nodup)
    (uniform : Uniform set (rootMetric :: rest) peers) :
    ((partitionMetrics order site set rootMetric rest).pending rest.length).Perm peers ∧
      TreeWhole rest.length (partitionMetrics order site set rootMetric rest) := by
  induction rest generalizing site set rootMetric peers with
  | nil =>
    have root := uniform.each rootMetric (mem_cons_self ..)
    obtain ⟨all, fresh⟩ := partitionValues_spec (σ := Empty) order (1 :: site) (set.get rootMetric)
      (root.nodup_iff.mpr uniform.distinct)
    have sorted := order.sortSlice_perm (0 :: site) less
      (partitionValues order (1 :: site) (set.get rootMetric) : List (Partition Empty))
    refine ⟨?_, rfl, rfl, ?_, ?_, fun _ _ none _ => none.elim⟩
    · change ((order.sortSlice (0 :: site) less (partitionValues order (1 :: site)
        (set.get rootMetric))).flatMap (pending fun none : Empty => none.elim)).Perm peers
      refine (sorted.flatMap_right _).trans (List.Perm.trans ?_ (all.trans root))
      apply List.Perm.of_eq
      exact flatMap_congr (fun p member => (fresh p member).pending _)
    · exact order.sortSlice_pairwise _ less_eq_false_iff (fun _ _ => Bucket.before_total _ _) Bucket.Before.trans _
    · intro p member
      exact .of_eq ((fresh p (sorted.mem_iff.mp member)).pending _)
  | cons next rest ih =>
    have root := uniform.each rootMetric (mem_cons_self ..)
    obtain ⟨other, distinctRest⟩ := nodup_cons.mp distinct
    obtain ⟨all, fresh⟩ := partitionValues_spec (σ := PartitionTree rest.length) order (1 :: site)
      (set.get rootMetric) (root.nodup_iff.mpr uniform.distinct)
    have inside : ∀ p ∈ (partitionValues order (1 :: site) (set.get rootMetric) :
        List (Partition (PartitionTree rest.length))), p.peers.keys ⊆ peers := by
      intro p member peer here
      exact (all.trans root).mem_iff.mp (mem_flatMap.mpr ⟨p, member, here⟩)
    have below := fun index p member => ih (index :: 2 :: site)
      (filteredSet order (index :: 3 :: site) set rootMetric p) next p.peers.keys distinctRest
      (uniform.filtered other order (index :: 3 :: site) p (inside p member))
    refine ⟨?_, rfl, rfl, ?_, ?_, ?_⟩
    · change ((order.sortSlice (0 :: site) less _).flatMap
        (pending (PartitionTree.pending rest.length))).Perm peers
      refine ((order.sortSlice_perm _ _ _).flatMap_right _).trans (List.Perm.trans ?_ (all.trans root))
      exact flatMap_mapIdx_perm _ _ _ _ (fun index p member => (below index p member).1)
    · exact order.sortSlice_pairwise _ less_eq_false_iff (fun _ _ => Bucket.before_total _ _) Bucket.Before.trans _
    · intro p member
      obtain ⟨index, bound, rfl⟩ := mem_mapIdx.mp ((order.sortSlice_perm _ _ _).mem_iff.mp member)
      exact (below index _ (getElem_mem bound)).1
    · intro p member sub present
      obtain ⟨index, bound, rfl⟩ := mem_mapIdx.mp ((order.sortSlice_perm _ _ _).mem_iff.mp member)
      cases present
      exact (below index _ (getElem_mem bound)).2

/-- The allocator puts priority peers first and invents and repeats nothing. It loses nothing either,
unless a peer has the empty ID. -/
theorem allocate_spec (order : MapOrder) {rootMetric : String} {rest : List String}
    (distinct : (rootMetric :: rest).Nodup) {candidates priority : MetricsSet} {cand prio : List PeerID}
    (ofCandidates : Uniform candidates (rootMetric :: rest) cand)
    (ofPriority : Uniform priority (rootMetric :: rest) prio) :
    ∃ first last, Model.Allocator.allocate order (rootMetric :: rest) candidates priority = .ok (first ++ last) ∧
      first.Subperm prio ∧ last.Subperm cand ∧ ("" ∉ prio → first.Perm prio) ∧ ("" ∉ cand → last.Perm cand) := by
  obtain ⟨pendingCand, wholeCand⟩ := partitionMetrics_spec order [0] candidates rootMetric rest cand distinct
    ofCandidates
  obtain ⟨pendingPrio, wholePrio⟩ := partitionMetrics_spec order [1] priority rootMetric rest prio distinct ofPriority
  refine ⟨_, _, rfl, ?_, ?_, ?_, ?_⟩
  · exact (sortedPeers_subperm _).trans pendingPrio.subperm
  · exact (sortedPeers_subperm _).trans pendingCand.subperm
  · intro none
    exact (sortedPeers_perm wholePrio.alive (fun empty => none (pendingPrio.mem_iff.mp empty))).trans pendingPrio
  · intro none
    exact (sortedPeers_perm wholeCand.alive (fun empty => none (pendingCand.mem_iff.mp empty))).trans pendingCand

end IpfsCluster.Proofs.Allocator
