import IpfsCluster.Proofs.Cluster.FilterMetrics

/-! # The outcomes of `allocate`

The groups of `filterMetrics` are described by what makes a peer valid, and `allocate` by its four outcomes. Every
statement about allocations goes through this case distinction.
-/

namespace IpfsCluster.Proofs.Cluster

open Model Model.Api Golang Allocator List Cluster

section

variable (c : Cluster) (blacklist : List PeerID)

/-- What it takes for a peer to be given a pin. -/
structure ValidPeer (peer : PeerID) : Prop where
  notBlacklisted : peer ∉ blacklist
  trusted : c.config.pinOnlyOnTrustedPeers = true → c.isTrustedPeer peer = true
  untrusted : c.config.pinOnlyOnUntrustedPeers = true → c.isTrustedPeer peer = false
  holdsAll : HoldsAll c.monitor c.allocateBy peer

theorem validPeer_iff (peer : PeerID) : ValidPeer c blacklist peer ↔
      allowed c blacklist peer = true ∧ HoldsAll c.monitor c.allocateBy peer := by
  simp only [allowed, Bool.and_eq_true, Bool.not_eq_true', Bool.and_eq_false_iff, contains_eq_mem,
    decide_eq_false_iff_not, Bool.not_eq_false']
  constructor
  · rintro ⟨black, trust, untrust, holds⟩
    refine ⟨⟨⟨black, ?_⟩, ?_⟩, holds⟩
    · cases on : c.config.pinOnlyOnTrustedPeers
      · exact Or.inl rfl
      · exact Or.inr (trust on)
    · cases on : c.config.pinOnlyOnUntrustedPeers
      · exact Or.inl rfl
      · exact Or.inr (untrust on)
  · rintro ⟨⟨⟨black, trust⟩, untrust⟩, holds⟩
    exact ⟨black, fun on => trust.resolve_left (by simp [on]), fun on => untrust.resolve_left (by simp [on]), holds⟩

instance (peer : PeerID) : Decidable (ValidPeer c blacklist peer) :=
  decidable_of_iff _ (validPeer_iff c blacklist peer).symm

def validPeers : List PeerID :=
  match c.allocateBy with
  | [] => []
  | rootMetric :: _ => ((c.monitor.latestMetrics rootMetric).map (·.peer)).filter (ValidPeer c blacklist ·)

theorem validPeers_nodup : (validPeers c blacklist).Nodup := by
  unfold validPeers
  cases c.allocateBy with
  | nil => exact nodup_nil
  | cons rootMetric rest => exact (c.monitor.onePerPeer rootMetric).filter _

variable {c blacklist} in
theorem mem_validPeers (peer : PeerID) :
    peer ∈ validPeers c blacklist ↔ c.allocateBy ≠ [] ∧ ValidPeer c blacklist peer := by
  unfold validPeers
  cases names : c.allocateBy with
  | nil => simp
  | cons rootMetric rest =>
    simp only [mem_filter, decide_eq_true_eq, ne_eq, reduceCtorEq, not_false_eq_true, true_and]
    refine ⟨And.right, fun valid => ⟨valid.holdsAll rootMetric ?_, valid⟩⟩
    rw [names]
    exact mem_cons_self ..

end

/-- The valid peers by their relation to the pin, in the order in which `filterMetrics` finds them. -/
structure Groups (c : Cluster) (currentAllocs priorityList blacklist : List PeerID)
    (cur prio cand : List PeerID) : Prop where
  curNodup : cur.Nodup
  prioNodup : prio.Nodup
  candNodup : cand.Nodup
  mem_cur : ∀ peer, peer ∈ cur ↔ peer ∈ validPeers c blacklist ∧ peer ∈ currentAllocs
  mem_prio : ∀ peer, peer ∈ prio ↔ peer ∈ validPeers c blacklist ∧ peer ∉ currentAllocs ∧ peer ∈ priorityList
  mem_cand : ∀ peer, peer ∈ cand ↔ peer ∈ validPeers c blacklist ∧ peer ∉ currentAllocs ∧ peer ∉ priorityList

section

variable {c : Cluster} {currentAllocs priorityList blacklist cur prio cand : List PeerID}

variable (c currentAllocs priorityList blacklist) in
theorem filterMetrics_spec (order : MapOrder) (distinct : c.allocateBy.Nodup) :
    let classified := c.filterMetrics order c.metricsSet c.allocateBy.length currentAllocs priorityList blacklist
    Groups c currentAllocs priorityList blacklist classified.currentPeers classified.priorityPeers
      classified.candidatePeers ∧ Uniform classified.candidate c.allocateBy classified.candidatePeers ∧
    Uniform classified.priority c.allocateBy classified.priorityPeers := by
  obtain ⟨current, candidate, priority⟩ :=
    filterMetrics_groups c order currentAllocs priorityList blacklist distinct
  refine ⟨⟨current.uniform.distinct, priority.uniform.distinct, candidate.uniform.distinct, ?_, ?_, ?_⟩,
    candidate.uniform, priority.uniform⟩ <;> intro peer
  · rw [current.mem, mem_validPeers, validPeer_iff]
    simp only [isCurrent, Bool.and_eq_true, contains_eq_mem, decide_eq_true_eq]
    tauto
  · rw [priority.mem, mem_validPeers, validPeer_iff]
    simp only [isPriority, Bool.and_eq_true, Bool.not_eq_true', contains_eq_mem, decide_eq_true_eq,
      decide_eq_false_iff_not]
    tauto
  · rw [candidate.mem, mem_validPeers, validPeer_iff]
    simp only [isCandidate, Bool.and_eq_true, Bool.not_eq_true', contains_eq_mem, decide_eq_false_iff_not]
    tauto

def validCurrent (c : Cluster) (currentAllocs blacklist : List PeerID) : List PeerID :=
  currentAllocs.dedup.filter (· ∈ validPeers c blacklist)

def available (c : Cluster) (currentAllocs blacklist : List PeerID) : List PeerID :=
  (validPeers c blacklist).filter (· ∉ currentAllocs)

namespace Groups

variable (groups : Groups c currentAllocs priorityList blacklist cur prio cand)
include groups

theorem cur_perm : cur.Perm (validCurrent c currentAllocs blacklist) := by
  apply (perm_ext_iff_of_nodup groups.curNodup ((nodup_dedup _).filter _)).mpr
  intro peer
  rw [groups.mem_cur, mem_filter, mem_dedup, decide_eq_true_eq]
  exact and_comm

theorem rest_nodup : (prio ++ cand).Nodup := by
  refine nodup_append'.mpr ⟨groups.prioNodup, groups.candNodup, ?_⟩
  intro peer inPrio inCand
  exact ((groups.mem_cand peer).mp inCand).2.2 ((groups.mem_prio peer).mp inPrio).2.2

theorem rest_perm : (prio ++ cand).Perm (available c currentAllocs blacklist) := by
  apply (perm_ext_iff_of_nodup groups.rest_nodup ((validPeers_nodup c blacklist).filter _)).mpr
  intro peer
  simp only [mem_append, groups.mem_prio, groups.mem_cand, mem_filter, decide_eq_true_eq]
  tauto

theorem extension {first last : List PeerID} (fromPrio : first.Subperm prio) (fromCand : last.Subperm cand)
    (count : ℕ) : (cur ++ (first ++ last).take count).Nodup ∧
      ∀ peer ∈ cur ++ (first ++ last).take count, peer ∈ validPeers c blacklist := by
  have fromRest : (first ++ last).Subperm (prio ++ cand) := fromPrio.append fromCand
  have inRest (peer : PeerID) (member : peer ∈ (first ++ last).take count) :
      peer ∈ available c currentAllocs blacklist :=
    groups.rest_perm.mem_iff.mp (fromRest.subset (mem_of_mem_take member))
  constructor
  · refine nodup_append'.mpr ⟨groups.curNodup, ?_, ?_⟩
    · obtain ⟨listed, same, sublist⟩ := fromRest
      exact (same.nodup_iff.mp (groups.rest_nodup.sublist sublist)).sublist (take_sublist ..)
    · intro peer held added
      exact of_decide_eq_true (mem_filter.mp (inRest peer added)).2 ((groups.mem_cur peer).mp held).2
  · intro peer member
    rcases mem_append.mp member with held | added
    · exact ((groups.mem_cur peer).mp held).1
    · exact (mem_filter.mp (inRest peer added)).1

end Groups

theorem length_validCurrent_add_available (c : Cluster) (currentAllocs blacklist : List PeerID) :
    (validCurrent c currentAllocs blacklist).length + (available c currentAllocs blacklist).length =
      (validPeers c blacklist).length := by
  have held : (validCurrent c currentAllocs blacklist).Perm ((validPeers c blacklist).filter (· ∈ currentAllocs)) := by
    apply (perm_ext_iff_of_nodup ((nodup_dedup _).filter _) ((validPeers_nodup c blacklist).filter _)).mpr
    intro peer
    simp only [mem_filter, mem_dedup, decide_eq_true_eq]
    exact and_comm
  have split := length_eq_length_filter_add (l := validPeers c blacklist) (fun peer => decide (peer ∈ currentAllocs))
  simp only [held.length_eq, available, decide_not, ← split]

theorem empty_notMem_validPeers {c : Cluster} (blacklist : List PeerID)
    (identified : ∀ name, ∀ m ∈ c.monitor.latestMetrics name, m.peer ≠ "") : "" ∉ validPeers c blacklist := by
  intro empty
  obtain ⟨names, valid⟩ := (mem_validPeers "").mp empty
  obtain ⟨name, asked⟩ := exists_mem_of_ne_nil _ names
  obtain ⟨m, member, blank⟩ := mem_map.mp (valid.holdsAll name asked)
  exact identified name m member blank

theorem validCurrent_eq_self {c : Cluster} {peers blacklist : List PeerID} (distinct : peers.Nodup)
    (valid : ∀ peer ∈ peers, peer ∈ validPeers c blacklist) : validCurrent c peers blacklist = peers := by
  rw [validCurrent, distinct.dedup]
  exact filter_eq_self.mpr fun peer member => decide_eq_true (valid peer member)

end

/-- What `allocate` answers, given the groups of valid peers. -/
inductive Outcome (currentAllocs cur prio cand : List PeerID) (rplMin rplMax : ℤ) : Except Error (List PeerID) → Prop
  /-- Above the maximum the first valid allocations are kept. -/
  | drop (above : rplMax < cur.length) : Outcome currentAllocs cur prio cand rplMin rplMax (.ok (cur.take rplMax.toNat))
  /-- Between the bounds nothing changes, and invalid allocations stay as well. -/
  | keep (enough : rplMin ≤ cur.length) (below : cur.length ≤ rplMax) :
      Outcome currentAllocs cur prio cand rplMin rplMax (.ok currentAllocs)
  /-- There are too few valid peers, or an empty ID has cut the list of the allocator short. -/
  | lack (err : Error) (below : cur.length < rplMin)
      (few : "" ∉ prio ++ cand → cur.length + (prio ++ cand).length < rplMin) :
      Outcome currentAllocs cur prio cand rplMin rplMax (.error err)
  /-- The valid allocations are followed by the first peers of the allocator. -/
  | extend (first last : List PeerID) (below : cur.length < rplMin)
      (fromPrio : first.Subperm prio) (fromCand : last.Subperm cand)
      (whole : "" ∉ prio ++ cand → first.Perm prio ∧ last.Perm cand)
      (enough : rplMin ≤ cur.length + (first ++ last).length) :
      Outcome currentAllocs cur prio cand rplMin rplMax (.ok (cur ++ (first ++ last).take (rplMax - cur.length).toNat))

section

variable {c : Cluster} {currentPin : Pin} {rplMin rplMax : ℤ} {blacklist priorityList : List PeerID}

private theorem take_min_toNat {α : Type} (wanted : ℤ) (items : List α) :
    items.take (min wanted items.length).toNat = items.take wanted.toNat := by
  rcases le_total wanted items.length with within | beyond
  · rw [min_eq_left within]
  · rw [min_eq_right beyond, Int.toNat_natCast, take_length, take_of_length_le (by omega)]

theorem Groups.nil_of_no_names {currentAllocs cur prio cand : List PeerID}
    (groups : Groups c currentAllocs priorityList blacklist cur prio cand) (none : c.allocateBy = []) :
    prio ++ cand = [] := by
  have empty : available c currentAllocs blacklist = [] := by simp [available, validPeers, none]
  exact perm_nil.mp (empty ▸ groups.rest_perm)

private theorem obtainAllocations_outcome (order : MapOrder) (rplMin rplMax : ℤ) (metrics : ClassifiedMetrics)
    (distinct : c.allocateBy.Nodup) (currentAllocs : List PeerID)
    (groups : Groups c currentAllocs priorityList blacklist metrics.currentPeers metrics.priorityPeers
      metrics.candidatePeers) (ofCandidates : Uniform metrics.candidate c.allocateBy metrics.candidatePeers)
    (ofPriority : Uniform metrics.priority c.allocateBy metrics.priorityPeers) :
    Outcome currentAllocs metrics.currentPeers metrics.priorityPeers metrics.candidatePeers rplMin rplMax
      ((c.obtainAllocations order rplMin rplMax metrics).map (·.getD currentAllocs)) := by
  have restLength : ((metrics.priorityPeers ++ metrics.candidatePeers).length : ℤ) =
      metrics.candidatePeers.length + metrics.priorityPeers.length := by
    rw [length_append, Nat.cast_add, add_comm]
  simp only [obtainAllocations]
  split
  next above =>
    have same : metrics.currentPeers.length + (rplMax - metrics.currentPeers.length : ℤ) = rplMax := by omega
    rw [same]
    exact .drop (by omega)
  next below =>
  split
  next enough => exact .keep (by omega) (by omega)
  next needed =>
  split
  next few => exact .lack _ (by omega) (fun _ => by omega)
  next available =>
  cases names : c.allocateBy with
  | nil =>
    have nothing := groups.nil_of_no_names names
    rw [nothing] at restLength
    simp only [length_nil, Nat.cast_zero] at restLength
    omega
  | cons rootMetric rest =>
    rw [names] at distinct ofCandidates ofPriority
    obtain ⟨first, last, listed, fromPrio, fromCand, wholePrio, wholeCand⟩ :=
      allocate_spec order distinct ofCandidates ofPriority
    have whole (none : "" ∉ metrics.priorityPeers ++ metrics.candidatePeers) :
        first.Perm metrics.priorityPeers ∧ last.Perm metrics.candidatePeers :=
      ⟨wholePrio (fun empty => none (mem_append_left _ empty)),
        wholeCand (fun empty => none (mem_append_right _ empty))⟩
    simp only [listed]
    split
    next short =>
      refine .lack _ (by omega) (fun none => ?_)
      have all := ((whole none).1.append (whole none).2).length_eq
      omega
    next enough =>
      rw [take_min_toNat]
      exact .extend first last (by omega) fromPrio fromCand whole (by omega)

variable (c currentPin blacklist priorityList) in
theorem allocate_outcome (order : MapOrder) (distinct : c.allocateBy.Nodup) (positive : 0 < rplMin)
    (ordered : rplMin ≤ rplMax) :
    ∃ cur prio cand, Groups c (currentAllocs currentPin) priorityList blacklist cur prio cand ∧
      Outcome (currentAllocs currentPin) cur prio cand rplMin rplMax
        (c.allocate order currentPin rplMin rplMax blacklist priorityList) := by
  obtain ⟨groups, ofCandidates, ofPriority⟩ := filterMetrics_spec c (currentAllocs currentPin)
    priorityList blacklist order distinct
  have outcome := obtainAllocations_outcome order rplMin rplMax _ distinct _ groups ofCandidates ofPriority
  refine ⟨_, _, _, groups, ?_⟩
  simp only [Cluster.allocate]
  rw [if_neg (by omega), if_neg (by omega)]
  generalize c.obtainAllocations order rplMin rplMax _ = answer at outcome ⊢
  cases answer <;> exact outcome

variable (c currentPin blacklist priorityList) in
theorem allocate_restores (order : MapOrder) (distinct : c.allocateBy.Nodup)
    (identified : ∀ name, ∀ m ∈ c.monitor.latestMetrics name, m.peer ≠ "") (positive : 0 < rplMin)
    (ordered : rplMin ≤ rplMax) (few : (validCurrent c (currentAllocs currentPin) blacklist).length < rplMin)
    (enough : rplMin ≤ (validPeers c blacklist).length) :
    ∃ allocs, c.allocate order currentPin rplMin rplMax blacklist priorityList = .ok allocs ∧ allocs.Nodup ∧
      (∀ peer ∈ allocs, peer ∈ validPeers c blacklist) ∧ rplMin ≤ allocs.length := by
  obtain ⟨cur, prio, cand, groups, outcome⟩ :=
    allocate_outcome c currentPin blacklist priorityList order distinct positive ordered
  have total := length_validCurrent_add_available c (currentAllocs currentPin) blacklist
  rw [← groups.cur_perm.length_eq, ← groups.rest_perm.length_eq] at total
  rw [← groups.cur_perm.length_eq] at few
  have none : "" ∉ prio ++ cand := fun empty => empty_notMem_validPeers blacklist identified
    (mem_filter.mp (groups.rest_perm.mem_iff.mp empty)).1
  generalize c.allocate order currentPin rplMin rplMax blacklist priorityList = answer at outcome ⊢
  cases outcome with
  | drop above => omega
  | keep enough below => omega
  | lack err below short =>
    have lacking := short none
    omega
  | extend first last below fromPrio fromCand whole reached =>
    obtain ⟨nodup, valid⟩ := groups.extension fromPrio fromCand (rplMax - cur.length).toNat
    refine ⟨_, rfl, nodup, valid, ?_⟩
    rw [length_append, length_take]
    omega

end

end IpfsCluster.Proofs.Cluster
