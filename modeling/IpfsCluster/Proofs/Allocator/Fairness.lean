import IpfsCluster.Machine.RoundRobin
import IpfsCluster.Proofs.Allocator.Partitioning

/-! # Every level of the tree picks in turn

What a level finds in its partitions is a sequence of visits, of which the blank ones are not seen from above; each
partition is asked in its own turns only. The levels are taken care of one by one, from the top to the bottom.
-/

namespace IpfsCluster.Proofs.Allocator

open Golang List Machine Model.Allocator Model.Api PartitionedMetric Partition PartitionTree

/-- The peer that was picked; the empty ID stands for none. -/
def answer (peer : PeerID) : Option PeerID := if peer = "" then none else some peer

theorem answer_eq_none_iff {peer : PeerID} : answer peer = none ↔ peer = "" := by
  rw [answer]
  split_ifs with blank
  · exact iff_of_true rfl blank
  · exact iff_of_false id blank

theorem Takes.perm {all rest : List PeerID} {peer : PeerID} (takes : Takes all peer rest) (none : "" ∉ all) :
    all.Perm ((answer peer).toList ++ rest) := by
  obtain ⟨blanks, areBlank, split⟩ := takes
  rw [blanks_eq_nil areBlank split none, nil_append] at split
  rw [answer]
  split_ifs at split ⊢ <;> exact split

section

variable {σ : Type} {next : List ℕ → σ → PeerID × σ} {below : σ → List PeerID} {alive : σ → Prop}

/-- The peers that are picked when a state is asked any number of times, and the state that is left. -/
inductive Serves (next : List ℕ → σ → PeerID × σ) (first : σ) : List PeerID → σ → Prop
  | start : Serves next first [] first
  | ask {picks s} (before : Serves next first picks s) (site : List ℕ) :
      Serves next first (picks ++ (answer (next site s).1).toList) (next site s).2

theorem Serves.pending_perm {first s : σ} {picked : List PeerID} (serves : Serves next first picked s)
    (contract : Picks next below alive) (living : alive first) (none : "" ∉ below first) :
    alive s ∧ (below first).Perm (picked ++ below s) := by
  induction serves with
  | start => exact ⟨living, .refl _⟩
  | @ask picked s before site ih =>
    obtain ⟨living, split⟩ := ih
    have none_left : "" ∉ below s := fun here => none (split.mem_iff.mpr (mem_append_right _ here))
    refine ⟨contract.stays site s living none_left, split.trans ?_⟩
    rw [append_assoc]
    exact ((contract.takes site s).perm none_left).append_left _

end

section

variable {σ : Type} {order : MapOrder} {next : List ℕ → σ → PeerID × σ} {below : σ → List PeerID} {alive : σ → Prop}

theorem Picks.partition (contract : Picks next below alive) :
    Picks (choose order next) (pending below) fun p => ∀ s, p.sub = some s → alive s where
  takes site p := choose_takes contract site p
  exhausts site p living none blank := choose_blank contract site p living none blank
  stays site p living none := choose_alive contract site p living none

variable {p q : Partition σ} {picked : List PeerID}

theorem Serves.sub {first : Partition σ} (serves : Serves (choose order next) first picked p) {s₀ : σ}
    (present : first.sub = some s₀) : ∃ s, p.sub = some s ∧ Serves next s₀ picked s := by
  induction serves with
  | start => exact ⟨s₀, present, .start⟩
  | ask before site ih =>
    obtain ⟨s, here, served⟩ := ih
    simp only [Partition.choose, here]
    exact ⟨_, rfl, served.ask site⟩

variable (below alive) in
/-- A level of which nothing has been picked, with proper IDs that are each in one partition only. -/
structure Untouched (first : PartitionedMetric σ) : Prop where
  start : first.curChoosingIndex = 0
  living : ∀ p ∈ first.partitions, ∀ s, p.sub = some s → alive s
  none : "" ∉ first.pending below
  unpicked : ∀ p ∈ first.partitions, (p.pending below).Perm p.peers.keys
  apart : (first.partitions.map (·.peers.keys)).Pairwise List.Disjoint

variable (order next) in
/-- A level after some visits: where it is, and what its partitions have given. -/
structure Rotated (first : PartitionedMetric σ) (visits : List (Option PeerID)) (pnedm : PartitionedMetric σ) :
    Prop where
  turns : Turns (first.partitions.map (·.peers.keys)) visits
  length : pnedm.partitions.length = first.partitions.length
  cursor : pnedm.curChoosingIndex = visits.length % first.partitions.length
  served : ∀ {i : ℕ} {q p}, first.partitions[i]? = some q → pnedm.partitions[i]? = some p →
    Serves (choose order next) q (visits.reduceOption.filter (· ∈ q.peers.keys)) p

variable {first pnedm : PartitionedMetric σ} {visits : List (Option PeerID)}

theorem rotated_start (fresh : Untouched below alive first) : Rotated order next first [] first where
  turns := .nil
  length := rfl
  cursor := fresh.start.trans (Nat.zero_mod _).symm
  served at_i here := by
    obtain rfl := Option.mem_unique at_i here
    exact .start

variable (contract : Picks next below alive)

include contract

section

variable (fresh : Untouched below alive first) (rotated : Rotated order next first visits pnedm) (site : List ℕ)

include fresh rotated site

private theorem choose_current {i : ℕ} (at_i : first.partitions[i]? = some q)
    (current : pnedm.partitions[i]? = some p) :
    (∀ peer, answer (p.choose order next site).1 = some peer → peer ∈ q.peers.keys ∧ peer ∉ visits.reduceOption) ∧
      (answer (p.choose order next site).1 = none → ∀ peer ∈ q.peers.keys, peer ∈ visits.reduceOption) := by
  have listed := mem_of_getElem? at_i
  have whole := fresh.unpicked q listed
  have none : "" ∉ q.pending below := fun here => fresh.none (mem_flatMap.mpr ⟨q, listed, here⟩)
  obtain ⟨living, split⟩ := (rotated.served at_i current).pending_perm contract.partition (fresh.living q listed) none
  have none_left : "" ∉ p.pending below := fun here => none (split.mem_iff.mpr (mem_append_right _ here))
  have picked_iff (peer : PeerID) (own : peer ∈ q.peers.keys) :
      peer ∈ visits.reduceOption.filter (· ∈ q.peers.keys) ↔ peer ∈ visits.reduceOption := by
    rw [mem_filter, and_iff_left (decide_eq_true own)]
  constructor
  · intro peer picked
    have takes : Takes (p.pending below) (p.choose order next site).1
      ((p.choose order next site).2.pending below) := choose_takes contract site p
    have pending : peer ∈ p.pending below := by
      refine (takes.perm none_left).mem_iff.mpr (mem_append_left _ ?_)
      rw [picked]
      exact mem_singleton_self peer
    have own := whole.mem_iff.mp (split.mem_iff.mpr (mem_append_right _ pending))
    have distinct := (whole.symm.trans split).nodup_iff.mp q.peers.keys_nodup
    refine ⟨own, fun before => ?_⟩
    exact disjoint_of_nodup_append distinct ((picked_iff peer own).mpr before) pending
  · intro blank peer own
    have nothing := choose_blank contract site p living none_left (answer_eq_none_iff.mp blank)
    rw [nothing, append_nil] at split
    exact (picked_iff peer own).mp (split.mem_iff.mp (whole.mem_iff.mpr own))

theorem Rotated.visit (current : pnedm.partitions[pnedm.curChoosingIndex]? = some p) :
    Rotated order next first (visits ++ [answer (p.choose order next site).1])
      (pnedm.advance (p.choose order next site).2) := by
  have inside := (List.getElem?_eq_some_iff.mp current).1
  have reached : pnedm.curChoosingIndex < first.partitions.length := rotated.length ▸ inside
  have at_cursor := getElem?_eq_getElem reached
  generalize first.partitions[pnedm.curChoosingIndex] = q at at_cursor
  obtain ⟨taken, blank⟩ := choose_current contract fresh rotated site at_cursor current
  refine ⟨rotated.turns.concat ?_ taken blank, ?_, ?_, ?_⟩
  · rw [length_map, ← rotated.cursor, getElem?_map, at_cursor, Option.map_some]
  · rw [advance_length, rotated.length]
  · rw [advance, length_append, length_singleton, rotated.length, rotated.cursor, Nat.mod_add_mod]
  · intro i other p' at_i here
    rw [reduceOption_append, reduceOption_singleton, filter_append]
    by_cases same : i = pnedm.curChoosingIndex
    · subst same
      obtain rfl := Option.mem_unique at_cursor at_i
      have stored : p' = (p.choose order next site).2 := by
        rw [advance, getElem?_set_self inside] at here
        exact (Option.some.inj here).symm
      have kept : (answer (p.choose order next site).1).toList.filter (· ∈ q.peers.keys) =
          (answer (p.choose order next site).1).toList :=
        filter_eq_self.mpr fun peer picked => decide_eq_true (taken peer (Option.mem_toList.mp picked)).1
      rw [stored, kept]
      exact (rotated.served at_cursor current).ask site
    · have dropped : (answer (p.choose order next site).1).toList.filter (· ∈ other.peers.keys) = [] := by
        refine filter_eq_nil_iff.mpr fun peer picked member => same ?_
        have keys_i : (first.partitions.map (·.peers.keys))[i]? = some other.peers.keys := by
          rw [getElem?_map, at_i, Option.map_some]
        have keys_cursor : (first.partitions.map (·.peers.keys))[pnedm.curChoosingIndex]? = some q.peers.keys := by
          rw [getElem?_map, at_cursor, Option.map_some]
        exact Turns.index_eq fresh.apart keys_i keys_cursor (of_decide_eq_true member)
          (taken peer (Option.mem_toList.mp picked)).1
      rw [dropped, append_nil]
      rw [advance, getElem?_set_ne (Ne.symm same)] at here
      exact rotated.served at_i here

theorem Rotated.chooseLoop (left : ℕ) :
    ∃ more, Rotated order next first (visits ++ more) (pnedm.chooseLoop order next site left).2 ∧
      more.reduceOption = (answer (pnedm.chooseLoop order next site left).1).toList := by
  induction left generalizing visits pnedm with
  | zero =>
    refine ⟨[], ?_, rfl⟩
    rw [append_nil]
    exact { rotated with }
  | succ left ih =>
    unfold chooseLoop
    split
    · refine ⟨[], ?_, rfl⟩
      rw [append_nil]
      exact rotated
    next p current =>
      have visited := rotated.visit contract fresh (pnedm.curChoosingIndex :: site) current
      dsimp only
      split_ifs with blank
      · obtain ⟨more, last, same⟩ := ih visited
        refine ⟨answer (p.choose order next (pnedm.curChoosingIndex :: site)).1 :: more, ?_, ?_⟩
        · rw [append_cons]
          exact last
        · rw [answer_eq_none_iff.mpr blank, reduceOption_cons_of_none, same]
      · exact ⟨_, visited, reduceOption_singleton _⟩

theorem Rotated.chooseNext : ∃ more, Rotated order next first (visits ++ more) (pnedm.chooseNext order next site).2 ∧
      more.reduceOption = (answer (pnedm.chooseNext order next site).1).toList := by
  have unchanged : Rotated order next first (visits ++ []) pnedm := by
    rw [append_nil]
    exact rotated
  unfold PartitionedMetric.chooseNext
  split_ifs
  · exact ⟨[], unchanged, rfl⟩
  · exact ⟨[], unchanged, rfl⟩
  · exact rotated.chooseLoop contract fresh site _

end

variable (fresh : Untouched below alive first) (serves : Serves (chooseNext order next) first picked pnedm)

include fresh serves

theorem rotated_of_serves : ∃ visits, Rotated order next first visits pnedm ∧ visits.reduceOption = picked := by
  induction serves with
  | start => exact ⟨[], rotated_start fresh, rfl⟩
  | ask before site ih =>
    obtain ⟨visits, rotated, rfl⟩ := ih
    obtain ⟨more, last, same⟩ := rotated.chooseNext contract fresh site
    exact ⟨visits ++ more, last, by rw [reduceOption_append, same]⟩

theorem roundRobin_of_serves : RoundRobin (first.partitions.map (·.peers.keys)) picked := by
  obtain ⟨visits, rotated, rfl⟩ := rotated_of_serves contract fresh serves
  exact rotated.turns.roundRobin fresh.apart

theorem serves_sub_of_serves (listed : q ∈ first.partitions) {s₀ : σ} (present : q.sub = some s₀) :
    ∃ s, Serves next s₀ (picked.filter (· ∈ q.peers.keys)) s := by
  obtain ⟨visits, rotated, rfl⟩ := rotated_of_serves contract fresh serves
  obtain ⟨i, inside, rfl⟩ := getElem_of_mem listed
  have current := getElem?_eq_getElem (rotated.length.symm ▸ inside)
  obtain ⟨s, -, served⟩ := (rotated.served (getElem?_eq_getElem inside) current).sub present
  exact ⟨s, served⟩

end

section

variable {σ : Type}

def levelsOf (below : σ → List (List Bucket)) (pnedm : PartitionedMetric σ) : List (List Bucket) :=
  pnedm.partitions.map bucket :: pnedm.partitions.flatMap fun p => p.sub.elim [] below

def levels : (depth : ℕ) → PartitionTree depth → List (List Bucket)
  | 0 => levelsOf fun none => none.elim
  | depth + 1 => levelsOf (levels depth)

structure FairLevel (peers picked : List PeerID) (level : List Bucket) : Prop where
  sorted : level.Pairwise Bucket.Before
  fair : RoundRobin (level.map (·.peers)) picked
  inside : ∀ b ∈ level, b.peers ⊆ peers

variable {order : MapOrder} {next : List ℕ → σ → PeerID × σ} {below : σ → List PeerID} {alive whole : σ → Prop}
  {levelsBelow : σ → List (List Bucket)} {first last : PartitionedMetric σ} {picked : List PeerID}

theorem Whole.untouched (intact : Whole below whole first) (living : ∀ s, whole s → alive s)
    (distinct : (first.pending below).Nodup) (none : "" ∉ first.pending below) : Untouched below alive first where
  start := intact.start
  living p listed s present := living s (intact.subs p listed s present)
  none := none
  unpicked := intact.unpicked
  apart := by
    have pending := (nodup_flatMap.mp distinct).2
    refine pairwise_map.mpr (pending.imp_of_mem fun {p q} p_listed q_listed apart peer inP inQ => ?_)
    exact apart ((intact.unpicked p p_listed).mem_iff.mpr inP) ((intact.unpicked q q_listed).mem_iff.mpr inQ)

theorem fairLevel_of_serves (contract : Picks next below alive) (living : ∀ s, whole s → alive s)
    (fairBelow : ∀ {s₀ s picked}, whole s₀ → (below s₀).Nodup → "" ∉ below s₀ → Serves next s₀ picked s →
      ∀ level ∈ levelsBelow s₀, FairLevel (below s₀) picked level) (intact : Whole below whole first)
    (distinct : (first.pending below).Nodup) (none : "" ∉ first.pending below)
    (serves : Serves (chooseNext order next) first picked last) :
    ∀ level ∈ levelsOf levelsBelow first, FairLevel (first.pending below) picked level := by
  have fresh := intact.untouched living distinct none
  have within (p : Partition σ) (listed : p ∈ first.partitions) : p.pending below ⊆ first.pending below :=
    fun peer pending => mem_flatMap.mpr ⟨p, listed, pending⟩
  intro level member
  rcases mem_cons.mp member with rfl | deeper
  · refine ⟨pairwise_map.mpr intact.sorted, ?_, ?_⟩
    · rw [map_map]
      exact roundRobin_of_serves contract fresh serves
    · intro b listed peer inB
      obtain ⟨p, p_listed, rfl⟩ := mem_map.mp listed
      exact within p p_listed ((intact.unpicked p p_listed).mem_iff.mpr inB)
  · obtain ⟨q, listed, inSub⟩ := mem_flatMap.mp deeper
    cases present : q.sub with
    | none =>
      rw [present] at inSub
      cases inSub
    | some s₀ =>
      rw [present] at inSub
      have same : q.pending below = below s₀ := by simp only [Partition.pending, present]
      have keys : (below s₀).Perm q.peers.keys := same ▸ intact.unpicked q listed
      obtain ⟨s, served⟩ := serves_sub_of_serves contract fresh serves listed present
      have fair := fairBelow (intact.subs q listed s₀ present) (keys.nodup_iff.mpr q.peers.keys_nodup)
        (fun here => none (within q listed (same ▸ here))) served level inSub
      refine ⟨fair.sorted, fair.fair.of_filter ?_, fun b b_listed peer inB => ?_⟩
      · intro group group_listed peer inGroup
        obtain ⟨b, b_listed, rfl⟩ := mem_map.mp group_listed
        exact decide_eq_true (keys.mem_iff.mp (fair.inside b b_listed inGroup))
      · exact within q listed (same ▸ fair.inside b b_listed inB)

theorem fairLevel_of_tree {depth : ℕ} {tree last : PartitionTree depth} {picked : List PeerID}
    (intact : TreeWhole depth tree) (distinct : (tree.pending depth).Nodup) (none : "" ∉ tree.pending depth)
    (serves : Serves (chooseNext order depth) tree picked last) :
    ∀ level ∈ levels depth tree, FairLevel (tree.pending depth) picked level := by
  induction depth generalizing picked with
  | zero =>
    have bottom : Picks (fun (_ : List ℕ) (none : Empty) => none.elim) (fun none => none.elim) (fun _ => True) :=
      ⟨fun _ none => none.elim, fun _ none => none.elim, fun _ none => none.elim⟩
    exact fairLevel_of_serves bottom (fun _ _ => trivial) (fun {none} => none.elim) intact distinct none serves
  | succ depth ih =>
    exact fairLevel_of_serves (chooseNext_picks order depth) (fun _ => TreeWhole.alive) ih intact distinct none serves

theorem serves_sortedPeersLoop {site : List ℕ} {depth fuel tick : ℕ} {first tree : PartitionTree depth}
    {picked : List PeerID} (before : Serves (chooseNext order depth) first picked tree) :
    ∃ last, Serves (chooseNext order depth) first
      (picked ++ sortedPeersLoop order site depth fuel tick tree) last := by
  induction fuel generalizing tick tree picked with
  | zero => exact ⟨tree, by rwa [sortedPeersLoop, append_nil]⟩
  | succ fuel ih =>
    have asked := before.ask (tick :: site)
    rw [sortedPeersLoop]
    dsimp only
    split_ifs with blank
    · exact ⟨tree, by rwa [append_nil]⟩
    · rw [answer, if_neg blank] at asked
      obtain ⟨last, served⟩ := @ih (tick + 1) _ _ asked
      refine ⟨last, ?_⟩
      rwa [Option.toList_some, append_assoc, singleton_append] at served

theorem serves_sortedPeers (order : MapOrder) (site : List ℕ) {depth : ℕ} (tree : PartitionTree depth) :
    ∃ last, Serves (chooseNext order depth) tree (sortedPeers order site depth tree) last := by
  have served := @serves_sortedPeersLoop order site depth ((tree.pending depth).length + 1) 0 tree tree [] .start
  rwa [nil_append] at served

end

end IpfsCluster.Proofs.Allocator
