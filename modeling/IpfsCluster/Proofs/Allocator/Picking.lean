import IpfsCluster.Model.Allocator.Balanced

/-! # Picking neither loses nor repeats a peer

One pick takes its result out of the pending peers and leaves all others pending. The empty ID is the answer for
"nothing left", so a peer with that ID can only get lost. Each fact about a level follows from the same fact about the
level below.
-/

namespace IpfsCluster.Proofs.Allocator

open Golang List Model.Allocator Model.Api PartitionedMetric

/-- Taking `peer` out of `all` leaves `rest`; empty IDs may get lost on the way. -/
def Takes (all : List PeerID) (peer : PeerID) (rest : List PeerID) : Prop :=
  ∃ blanks : List PeerID, (∀ blank ∈ blanks, blank = "") ∧
    all.Perm ((if peer = "" then [] else [peer]) ++ (blanks ++ rest))

namespace Takes

variable {all middle rest other : List PeerID} {peer : PeerID}

theorem refl (all : List PeerID) : Takes all "" all := ⟨[], by simp, by simp⟩

theorem of_perm_cons (split : all.Perm (peer :: rest)) : Takes all peer rest := by
  by_cases blank : peer = ""
  · exact ⟨[peer], by simp [blank], by simpa [blank] using split⟩
  · exact ⟨[], by simp, by simpa [blank] using split⟩

theorem trans (first : Takes all "" middle) (second : Takes middle peer rest) : Takes all peer rest := by
  obtain ⟨blanks, areBlank, split⟩ := first
  obtain ⟨others, areOthers, splitOther⟩ := second
  refine ⟨blanks ++ others, ?_, ?_⟩
  · intro blank member
    exact (mem_append.mp member).elim (areBlank blank) (areOthers blank)
  · have moved := splitOther.append_left blanks
    rw [if_pos rfl, nil_append] at split
    refine split.trans (moved.trans ?_)
    rw [append_assoc blanks others rest]
    exact perm_append_comm_assoc _ _ _

section

variable (takes : Takes all peer rest)

include takes

theorem append_right (other : List PeerID) : Takes (all ++ other) peer (rest ++ other) := by
  obtain ⟨blanks, areBlank, split⟩ := takes
  exact ⟨blanks, areBlank, by simpa only [append_assoc] using split.append_right other⟩

theorem congr {all' rest' : List PeerID} (same : all'.Perm all) (sameRest : rest.Perm rest') :
    Takes all' peer rest' := by
  obtain ⟨blanks, areBlank, split⟩ := takes
  exact ⟨blanks, areBlank, same.trans (split.trans ((sameRest.append_left _).append_left _))⟩

theorem subset : rest ⊆ all := by
  obtain ⟨blanks, -, split⟩ := takes
  intro x member
  exact split.mem_iff.mpr (mem_append_right _ (mem_append_right _ member))

theorem length_lt (proper : peer ≠ "") : rest.length < all.length := by
  obtain ⟨blanks, -, split⟩ := takes
  have length := split.length_eq
  simp only [if_neg proper, length_append, length_singleton] at length
  omega

end

theorem blanks_eq_nil {head blanks : List PeerID} (areBlank : ∀ blank ∈ blanks, blank = "")
    (split : all.Perm (head ++ (blanks ++ rest))) (none : "" ∉ all) : blanks = [] := by
  refine eq_nil_iff_forall_not_mem.mpr fun blank member => none ?_
  rw [← areBlank blank member]
  exact split.mem_iff.mpr (mem_append_right _ (mem_append_left _ member))

end Takes

section

variable {σ : Type} (order : MapOrder) (next : List ℕ → σ → PeerID × σ) (below : σ → List PeerID) (alive : σ → Prop)

/-- The contract of a level: picks are taken out of the pending peers, and the level answers the
empty ID only when nothing is pending. -/
structure Picks : Prop where
  takes : ∀ site s, Takes (below s) (next site s).1 (below (next site s).2)
  exhausts : ∀ site s, alive s → "" ∉ below s → (next site s).1 = "" → below s = []
  stays : ∀ site s, alive s → "" ∉ below s → alive (next site s).2

/-- The position is inside the partitions, and a level that has stopped has nothing pending. -/
structure Alive (pnedm : PartitionedMetric σ) : Prop where
  index : pnedm.partitions ≠ [] → pnedm.curChoosingIndex < pnedm.partitions.length
  stopped : pnedm.noMore = true → pnedm.pending below = []
  subs : ∀ p ∈ pnedm.partitions, ∀ s, p.sub = some s → alive s

variable {order next below alive}

section

variable (picks : Picks next below alive)

include picks

theorem choose_takes (site : List ℕ) (p : Partition σ) :
    Takes (p.pending below) (p.choose order next site).1 ((p.choose order next site).2.pending below) := by
  unfold Partition.choose
  split
  · next sub present =>
    simp only [Partition.pending, present]
    exact picks.takes site sub
  · next absent =>
    split
    · next entry found =>
      obtain ⟨peer, used⟩ := entry
      have unused : used = false := by simpa using find?_some found
      subst unused
      have member : (⟨peer, false⟩ : Sigma fun _ : PeerID => Bool) ∈ p.peers.entries :=
        (order.mem_visit site _ _).mp (mem_of_find?_eq_some found)
      apply Takes.of_perm_cons
      have split := AList.entries_perm_cons_erase (AList.mem_entries_iff.mp member)
      simp only [Partition.pending, absent, AList.entries_insert]
      exact ((split.filter _).map _).trans (List.Perm.of_eq (by simp; rfl))
    · exact .refl _

section

variable (site : List ℕ) (p : Partition σ) (living : ∀ s, p.sub = some s → alive s) (none : "" ∉ p.pending below)

include site p living none

theorem choose_blank (blank : (p.choose order next site).1 = "") : p.pending below = [] := by
  unfold Partition.choose at blank
  unfold Partition.pending at none ⊢
  split at blank
  · next sub present =>
    simp only [present] at none ⊢
    exact picks.exhausts site sub (living sub present) none blank
  · next absent =>
    simp only [absent] at none ⊢
    split at blank
    · next entry found =>
      refine (none ?_).elim
      have member : entry ∈ p.peers.entries :=
        (order.mem_visit site _ _).mp (mem_of_find?_eq_some found)
      have unused := find?_some found
      exact mem_map.mpr ⟨entry, mem_filter.mpr ⟨member, unused⟩, blank⟩
    · next missing =>
      rw [map_eq_nil_iff, filter_eq_nil_iff]
      intro entry member
      exact find?_eq_none.mp missing entry ((order.mem_visit site _ _).mpr member)

theorem choose_alive : ∀ s, (p.choose order next site).2.sub = some s → alive s := by
  unfold Partition.choose
  split
  · next sub present =>
    intro s same
    cases same
    simp only [Partition.pending, present] at none
    exact picks.stays site sub (living sub present) none
  · next absent =>
    split <;> exact living

end

end

variable {p : Partition σ} {pnedm : PartitionedMetric σ}

theorem pending_perm (below : σ → List PeerID) (current : pnedm.partitions[pnedm.curChoosingIndex]? = some p) :
    (pnedm.pending below).Perm (p.pending below ++
      (pnedm.partitions.eraseIdx pnedm.curChoosingIndex).flatMap (Partition.pending below)) := by
  obtain ⟨bound, rfl⟩ := List.getElem?_eq_some_iff.mp current
  exact ((getElem_cons_eraseIdx_perm bound).symm.flatMap_right _)

variable (order) in
theorem advance_takes (picks : Picks next below alive) (site : List ℕ)
    (current : pnedm.partitions[pnedm.curChoosingIndex]? = some p) :
    Takes (pnedm.pending below) (p.choose order next site).1
      ((pnedm.advance (p.choose order next site).2).pending below) :=
  ((choose_takes picks site p).append_right _).congr (pending_perm below current)
    ((List.set_perm_cons_eraseIdx (List.getElem?_eq_some_iff.mp current).1 _).flatMap_right _).symm

variable (order) in
theorem chooseLoop_takes (picks : Picks next below alive) (site : List ℕ) (left : ℕ) (pnedm : PartitionedMetric σ) :
    Takes (pnedm.pending below) (pnedm.chooseLoop order next site left).1
      ((pnedm.chooseLoop order next site left).2.pending below) := by
  induction left generalizing pnedm with
  | zero => exact .refl _
  | succ left ih =>
    unfold chooseLoop
    split
    · exact .refl _
    · next p current =>
      have taken := advance_takes order picks (pnedm.curChoosingIndex :: site) current
      dsimp only
      split
      · next blank =>
        rw [blank] at taken
        exact taken.trans (ih _)
      · exact taken

@[simp] theorem advance_length (pnedm : PartitionedMetric σ) (p : Partition σ) :
    (pnedm.advance p).partitions.length = pnedm.partitions.length := length_set ..

variable (below alive) in
/-- What the loop needs of a level: a valid position, live sub-partitions and no empty IDs. -/
structure Ready (pnedm : PartitionedMetric σ) : Prop where
  index : pnedm.curChoosingIndex < pnedm.partitions.length
  subs : ∀ p ∈ pnedm.partitions, ∀ s, p.sub = some s → alive s
  none : "" ∉ pnedm.pending below

theorem Ready.none_of_mem (ready : Ready below alive pnedm) (member : p ∈ pnedm.partitions) : "" ∉ p.pending below :=
  fun here => ready.none (mem_flatMap.mpr ⟨p, member, here⟩)

section

variable (picks : Picks next below alive)

include picks

theorem Ready.advance (ready : Ready below alive pnedm) (site : List ℕ)
    (current : pnedm.partitions[pnedm.curChoosingIndex]? = some p) :
    Ready below alive (pnedm.advance (p.choose order next site).2) where
  index := by
    rw [advance_length]
    exact Nat.mod_lt _ (Nat.lt_of_le_of_lt (Nat.zero_le _) ready.index)
  subs := by
    have member := mem_of_getElem? current
    intro q stored
    rcases mem_or_eq_of_mem_set stored with old | rfl
    · exact ready.subs q old
    · exact choose_alive picks site p (ready.subs p member) (ready.none_of_mem member)
  none here := ready.none ((advance_takes _ picks site current).subset here)

theorem Ready.chooseLoop (ready : Ready below alive pnedm) (site : List ℕ) (left : ℕ) :
    Ready below alive (pnedm.chooseLoop order next site left).2 := by
  induction left generalizing pnedm with
  | zero => exact { ready with }
  | succ left ih =>
    have current := getElem?_eq_getElem ready.index
    unfold chooseLoop
    simp only [current]
    split
    · exact ih (ready.advance picks _ current)
    · exact ready.advance picks _ current

theorem chooseLoop_blank (site : List ℕ) (left : ℕ) (pnedm : PartitionedMetric σ) (ready : Ready below alive pnedm)
    (blank : (pnedm.chooseLoop order next site left).1 = "") :
    ∀ offset < left, ∀ p, pnedm.partitions[(pnedm.curChoosingIndex + offset) % pnedm.partitions.length]? = some p →
        p.pending below = [] := by
  induction left generalizing pnedm with
  | zero => intro offset bound; omega
  | succ left ih =>
    have current := getElem?_eq_getElem ready.index
    have member := getElem_mem ready.index
    unfold chooseLoop at blank
    simp only [current] at blank
    split at blank
    · next blankHere =>
      have nothing := choose_blank picks _ _ (ready.subs _ member) (ready.none_of_mem member) blankHere
      have rest := ih _ (ready.advance picks _ current) blank
      intro offset bound p atOffset
      -- The partition at this offset is the current one, which has nothing pending, or it is
      -- one that the rest of the loop looks into.
      by_cases here : (pnedm.curChoosingIndex + offset) % pnedm.partitions.length = pnedm.curChoosingIndex
      · rw [here, current] at atOffset
        cases atOffset
        exact nothing
      · cases offset with
        | zero => exact (here (Nat.mod_eq_of_lt ready.index)).elim
        | succ offset =>
          apply rest offset (by omega) p
          have position : ((pnedm.curChoosingIndex + 1) % pnedm.partitions.length + offset) % pnedm.partitions.length =
              (pnedm.curChoosingIndex + (offset + 1)) % pnedm.partitions.length := by
            rw [Nat.mod_add_mod, Nat.add_assoc, Nat.add_comm 1 offset]
          simp only [advance, length_set, position]
          rw [getElem?_set_ne (Ne.symm here)]
          exact atOffset
    · next proper => exact (proper blank).elim

theorem chooseLoop_round_blank (site : List ℕ) (pnedm : PartitionedMetric σ) (ready : Ready below alive pnedm)
    (blank : (pnedm.chooseLoop order next site pnedm.partitions.length).1 = "") : pnedm.pending below = [] := by
  have nothing := chooseLoop_blank picks site _ pnedm ready blank
  apply flatMap_eq_nil_iff.mpr
  intro p member
  obtain ⟨index, bound, rfl⟩ := getElem_of_mem member
  -- Going around from the current position reaches every index.
  let offset := (index + pnedm.partitions.length - pnedm.curChoosingIndex) % pnedm.partitions.length
  have start := ready.index
  have reached : (pnedm.curChoosingIndex + offset) % pnedm.partitions.length = index := by
    have total : pnedm.curChoosingIndex + (index + pnedm.partitions.length - pnedm.curChoosingIndex) =
        index + pnedm.partitions.length := by omega
    rw [Nat.add_mod_mod, total, Nat.add_mod_right, Nat.mod_eq_of_lt bound]
  apply nothing offset (Nat.mod_lt _ (by omega))
  rw [reached, getElem?_eq_getElem bound]

end

theorem chooseLoop_noMore (site : List ℕ) (left : ℕ) (pnedm : PartitionedMetric σ)
    (proper : (pnedm.chooseLoop order next site left).1 ≠ "") :
    (pnedm.chooseLoop order next site left).2.noMore = pnedm.noMore := by
  induction left generalizing pnedm with
  | zero => exact (proper rfl).elim
  | succ left ih =>
    unfold chooseLoop at proper ⊢
    split
    · rfl
    · next p current =>
      simp only [current] at proper
      dsimp only at proper ⊢
      split
      · next blank =>
        rw [if_pos blank] at proper
        exact ih _ proper
      · rfl

/-- A level keeps the contract of the level below it. -/
theorem Picks.level (picks : Picks next below alive) :
    Picks (chooseNext order next) (pending below) (Alive below alive) where
  takes site pnedm := by
    unfold chooseNext
    split
    · exact .refl _
    · split
      · exact .refl _
      · exact chooseLoop_takes order picks site _ pnedm
  exhausts site pnedm living none blank := by
    unfold chooseNext at blank
    split at blank
    · next empty => simp [pending, length_eq_zero_iff.mp empty]
    · next filled =>
      split at blank
      · next stopped => exact living.stopped stopped
      · have ready : Ready below alive pnedm :=
          ⟨living.index (fun empty => filled (by rw [empty]; rfl)), living.subs, none⟩
        exact chooseLoop_round_blank picks site pnedm ready blank
  stays site pnedm living none := by
    unfold chooseNext
    split
    · exact living
    · next filled =>
      split
      · exact living
      · next running =>
        have ready : Ready below alive pnedm :=
          ⟨living.index (fun empty => filled (by rw [empty]; rfl)), living.subs, none⟩
        have after : Ready below alive (pnedm.chooseLoop order next site pnedm.partitions.length).2 :=
          ready.chooseLoop picks site pnedm.partitions.length
        refine ⟨fun _ => after.index, ?_, after.subs⟩
        intro stopped
        -- The loop sets the flag only with a blank answer, after a round without any peer.
        have blank : (pnedm.chooseLoop order next site pnedm.partitions.length).1 = "" := by
          by_contra proper
          rw [chooseLoop_noMore site _ pnedm proper] at stopped
          exact running stopped
        have nothing := chooseLoop_round_blank picks site pnedm ready blank
        have taken := chooseLoop_takes order picks site pnedm.partitions.length pnedm
        rw [nothing] at taken
        exact eq_nil_of_subset_nil taken.subset

end

def TreeAlive : (depth : ℕ) → PartitionTree depth → Prop
  | 0 => Alive (fun none => none.elim) (fun _ => True)
  | depth + 1 => Alive (PartitionTree.pending depth) (TreeAlive depth)

theorem chooseNext_picks (order : MapOrder) (depth : ℕ) :
    Picks (PartitionTree.chooseNext order depth) (PartitionTree.pending depth) (TreeAlive depth) := by
  induction depth with
  | zero =>
    have bottom : Picks (fun (_ : List ℕ) (none : Empty) => none.elim) (fun none => none.elim) (fun _ => True) :=
      ⟨fun _ none => none.elim, fun _ none => none.elim, fun _ none => none.elim⟩
    exact bottom.level
  | succ depth ih => exact ih.level

section

variable {order : MapOrder} {site : List ℕ} {depth : ℕ} {tree : PartitionTree depth}

theorem sortedPeersLoop_fuel {fuel more tick : ℕ} (enough : (tree.pending depth).length < fuel)
    (further : fuel ≤ more) :
    sortedPeersLoop order site depth more tick tree = sortedPeersLoop order site depth fuel tick tree := by
  induction fuel generalizing more tick tree with
  | zero => omega
  | succ fuel ih =>
    obtain ⟨more, rfl⟩ : ∃ extra, more = extra + 1 := ⟨more - 1, by omega⟩
    simp only [sortedPeersLoop]
    split
    · rfl
    · next proper =>
      have fewer := ((chooseNext_picks order depth).takes (tick :: site) tree).length_lt proper
      rw [ih (by omega) (by omega)]

theorem sortedPeersLoop_spec (order : MapOrder) (site : List ℕ) (fuel tick : ℕ) (tree : PartitionTree depth) :
    ∃ rest, (tree.pending depth).Perm (sortedPeersLoop order site depth fuel tick tree ++ rest) ∧
      ((tree.pending depth).length < fuel → TreeAlive depth tree → "" ∉ tree.pending depth → rest = []) := by
  induction fuel generalizing tick tree with
  | zero => exact ⟨_, .refl _, fun enough => by omega⟩
  | succ fuel ih =>
    have picks := chooseNext_picks order depth
    have taken := picks.takes (tick :: site) tree
    simp only [sortedPeersLoop]
    split
    · next blank =>
      exact ⟨_, .refl _, fun _ living none => picks.exhausts _ tree living none blank⟩
    · next proper =>
      obtain ⟨rest, split, complete⟩ := ih (tick + 1) (tree.chooseNext order depth (tick :: site)).2
      obtain ⟨blanks, areBlank, parts⟩ := id taken
      rw [if_neg proper] at parts
      refine ⟨blanks ++ rest, ?_, ?_⟩
      · refine parts.trans (List.Perm.cons _ ?_)
        refine (split.append_left blanks).trans ?_
        exact perm_append_comm_assoc _ _ _
      · intro enough living none
        have fewer := taken.length_lt proper
        have noneLeft : "" ∉ (tree.chooseNext order depth (tick :: site)).2.pending depth :=
          fun here => none (taken.subset here)
        rw [complete (by omega) (picks.stays _ tree living none) noneLeft, append_nil]
        exact Takes.blanks_eq_nil areBlank parts none

theorem sortedPeers_subperm (tree : PartitionTree depth) :
    (sortedPeers order site depth tree).Subperm (tree.pending depth) := by
  obtain ⟨rest, split, -⟩ := sortedPeersLoop_spec order site ((tree.pending depth).length + 1) 0 tree
  exact (sublist_append_left _ rest).subperm.trans split.symm.subperm

theorem sortedPeers_perm (living : TreeAlive depth tree) (none : "" ∉ tree.pending depth) :
    (sortedPeers order site depth tree).Perm (tree.pending depth) := by
  obtain ⟨rest, split, complete⟩ := sortedPeersLoop_spec order site ((tree.pending depth).length + 1) 0 tree
  rw [complete (Nat.lt_succ_self _) living none, append_nil] at split
  exact split.symm

end

end IpfsCluster.Proofs.Allocator
