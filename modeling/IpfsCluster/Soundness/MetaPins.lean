import IpfsCluster.Proofs.Adder.Dag
import IpfsCluster.Proofs.Cluster.Operations
import IpfsCluster.Soundness.Repin

/-! # Unpinning sharded content

An attempt to unpin a meta pin that fails can be repeated as long as the clusterDAG pin is there, and it removes all
shards when they are links of the root of the clusterDAG.
-/

namespace IpfsCluster.Soundness

open Model Model.Api Model.Adder Golang Golang.Indexed Proofs.Api Proofs.Adder Proofs.Cluster List

/-- Sharded content in a pinset: the meta pin, the clusterDAG pin, the shard pins, and a clusterDAG that
was made over the shards, with the given links at its root. -/
structure Sharded (st : DsState) (h dag : Cid) (shards : List Cid) (root : DagObj) : Prop where
  metaPin : ∃ pin, st.get h = .ok pin ∧ pin.type = PinType.metaType ∧ pin.reference = some dag
  dagPin : ∃ pin, st.get dag = .ok pin ∧ pin.type = PinType.clusterDAGType
  shardPins : ∀ s ∈ shards, StoredAs st s PinType.shardType
  nodup : shards.Nodup
  made : ∃ wrapObject dagObj leafNodes, Lists dagObj shards ∧
    makeDAG wrapObject dagObj = .ok ({ cid := dag, obj := root } :: leafNodes)

/-- A call of an attempt to unpin a meta pin, after the state was read. -/
inductive UnpinCall where
  | blockGet
  | logUnpin (i : ℕ)

def UnpinCall.removals : UnpinCall → ℕ
  | .blockGet => 0
  | .logUnpin i => i

/-- In the attempt, the call is made and fails, and those before it succeed. -/
def FailsAt (ipfs : BlockSource) (dag : Cid) (root : DagObj) (consensus : Consensus) (err : Error) : UnpinCall → Prop
  | .blockGet => Healthy consensus ∧ ipfs.blockGet dag = .error err
  | .logUnpin i => ipfs.blockGet dag = .ok (.cbor root) ∧ i < root.entries.length + 3 ∧
      ∃ rest, consensus.outcomes = [none, none, none] ++ List.replicate i none ++ some err :: rest

/-- An attempt in which all calls succeed reports no error and leaves nothing of the content. -/
def Retriable (h dag : Cid) (shards : List Cid) (root : DagObj) (st : DsState) : Prop :=
  ∀ (c : Cluster) ipfs order now consensus, c.config.followerMode = false → ipfs.blockGet dag = .ok (.cbor root) →
    Healthy consensus → consensus.state = st →
    (c.unpin ipfs order now consensus h).1.2 = none ∧
      ∀ x ∈ h :: dag :: shards, (c.unpin ipfs order now consensus h).2.state.store.lookup x = none

section

variable {st : DsState} {h dag : Cid} {shards : List Cid} {root : DagObj}

section

variable {order : MapOrder} (links : (root.entries.map (·.2)).Perm shards) {count : ℕ}

include links

theorem metaCids_eq_append : ∃ visited, metaCids order root dag h = visited ++ [dag, h] ∧ visited.Perm shards := by
  refine ⟨_, rfl, ?_⟩
  exact (reverse_perm _).trans (((order.visit_perm [] root.entries).map _).trans links)

theorem dag_mem_take (late : shards.length < count) : dag ∈ (metaCids order root dag h).take count := by
  obtain ⟨visited, isCids, perm⟩ := @metaCids_eq_append h dag shards root order links
  have length := perm.length_eq
  obtain ⟨more, isMore⟩ : ∃ more, count - visited.length = more + 1 := ⟨count - visited.length - 1, by omega⟩
  rw [isCids, take_append, isMore]
  exact mem_append_right _ mem_cons_self

theorem shard_of_mem_take (early : count ≤ shards.length) {x : Cid} (removed : x ∈ (metaCids order root dag h).take count) :
    x ∈ shards := by
  obtain ⟨visited, isCids, perm⟩ := @metaCids_eq_append h dag shards root order links
  have length := perm.length_eq
  rw [isCids, take_append_of_le_length (by omega)] at removed
  exact perm.mem_iff.mp (mem_of_mem_take removed)

end

namespace Sharded

variable (sharded : Sharded st h dag shards root)

include sharded

theorem shard_ne {s : Cid} (isShard : s ∈ shards) : s ≠ dag ∧ s ≠ h := by
  obtain ⟨metaPin, stored, isMeta, -⟩ := sharded.metaPin
  obtain ⟨dagPin, storedDag, isDag⟩ := sharded.dagPin
  have storedShard := sharded.shardPins s isShard
  exact ⟨storedShard.ne (.of_get storedDag) (by rw [isDag]; decide), storedShard.ne (.of_get stored) (by rw [isMeta]; decide)⟩

theorem shard_mem_metaCids_iff {order : MapOrder} {s : Cid} (isShard : s ∈ shards) :
    s ∈ metaCids order root dag h ↔ s ∈ root.entries.map (·.2) := by
  obtain ⟨notDag, notMeta⟩ := sharded.shard_ne isShard
  rw [mem_metaCids]
  simp only [notDag, notMeta, or_false]

theorem retriable_removeAll_iff (removed : List Cid) : Retriable h dag shards root (removeAll removed st) ↔
      h ∉ removed ∧ dag ∉ removed ∧ ∀ s ∈ shards, s ∉ removed → s ∈ root.entries.map (·.2) := by
  obtain ⟨metaPin, stored, isMeta, reference⟩ := sharded.metaPin
  obtain ⟨dagPin, storedDag, -⟩ := sharded.dagPin
  have kept {x : Cid} (left : x ∉ removed) : (removeAll removed st).get x = st.get x :=
    get_of_lookup_eq (by rw [lookup_removeAll, if_neg left])
  have gone {x : Cid} (isRemoved : x ∈ removed) : (removeAll removed st).get x = .error .notFound := by
    simp only [DsState.get, lookup_removeAll, isRemoved, ↓reduceIte]
  constructor
  · intro retriable
    have healthy : Healthy { state := removeAll removed st } := fun _ none => by cases none
    obtain ⟨done, removal⟩ := retriable threePeers { blockGet := fun _ => .ok (.cbor root) } .stored Time.zero
      { state := removeAll removed st } rfl rfl healthy rfl
    have metaLeft : h ∉ removed := fun isRemoved => unpin_absent healthy (gone isRemoved) done
    have storedLeft := (kept metaLeft).trans stored
    have dagLeft : dag ∉ removed := fun isRemoved =>
      unpin_meta_dangling rfl healthy storedLeft isMeta reference (gone isRemoved) done
    refine ⟨metaLeft, dagLeft, fun s isShard left => ?_⟩
    by_contra missed
    have after := removal s (mem_cons_of_mem _ (mem_cons_of_mem _ isShard))
    rw [(unpin_meta_removes rfl healthy storedLeft isMeta reference ((kept dagLeft).trans storedDag) rfl).2,
      if_neg fun handled => missed ((sharded.shard_mem_metaCids_iff isShard).mp handled), lookup_removeAll,
      if_neg left] at after
    obtain ⟨data, found, -⟩ := sharded.shardPins s isShard
    exact Option.some_ne_none _ (found.symm.trans after)
  · rintro ⟨metaLeft, dagLeft, linked⟩ c ipfs order now consensus writes block healthy state
    have storedLeft : consensus.state.get h = .ok metaPin := by rw [state, kept metaLeft, stored]
    have storedDagLeft : consensus.state.get dag = .ok dagPin := by rw [state, kept dagLeft, storedDag]
    refine ⟨(unpin_meta_removes writes healthy storedLeft isMeta reference storedDagLeft block).1, fun x content => ?_⟩
    rw [(unpin_meta_removes writes healthy storedLeft isMeta reference storedDagLeft block).2, state, lookup_removeAll]
    simp only [mem_cons] at content
    split_ifs with handled isRemoved
    · rfl
    · rfl
    · rw [mem_metaCids] at handled
      rcases content with isMetaCid | isDag | isShard
      · exact (handled (.inr (.inr isMetaCid))).elim
      · exact (handled (.inr (.inl isDag))).elim
      · exact (handled (.inl (linked x isShard isRemoved))).elim

section

variable {c : Cluster} {ipfs : BlockSource} {order : MapOrder} {now : Time} {consensus : Consensus}
  (writes : c.config.followerMode = false) (block : ipfs.blockGet dag = .ok (.cbor root)) (healthy : Healthy consensus)
  (state : consensus.state = st)

include writes block healthy state

theorem unpin_removes_links : (c.unpin ipfs order now consensus h).1.2 = none ∧
      ∀ x, (c.unpin ipfs order now consensus h).2.state.store.lookup x =
        if x ∈ metaCids order root dag h then none else st.store.lookup x := by
  subst state
  obtain ⟨metaPin, stored, isMeta, reference⟩ := sharded.metaPin
  obtain ⟨dagPin, storedDag, -⟩ := sharded.dagPin
  exact unpin_meta_removes writes healthy stored isMeta reference storedDag block

theorem unpin_leaves (many : maxLinks < shards.length) :
    ∃ s ∈ shards, ((c.unpin ipfs order now consensus h).2.state.store.lookup s).isSome = true := by
  obtain ⟨wrapObject, dagObj, leafNodes, lists, made⟩ := sharded.made
  obtain ⟨s, isShard, missed⟩ := (makeDAG_layout lists made).exists_not_mem_rootLinks sharded.nodup many
  obtain ⟨data, found, -⟩ := sharded.shardPins s isShard
  refine ⟨s, isShard, ?_⟩
  rw [(sharded.unpin_removes_links writes block healthy state).2,
    if_neg fun handled => missed ((sharded.shard_mem_metaCids_iff isShard).mp handled), found]
  rfl

/-- Sharded content is removed as a whole, and nothing else, exactly when the shards are the links of the
root. -/
theorem unpin_exact_iff : ((c.unpin ipfs order now consensus h).1.2 = none ∧
      ∀ x, (c.unpin ipfs order now consensus h).2.state.store.lookup x =
        if x ∈ h :: dag :: shards then none else st.store.lookup x) ↔ shards.length ≤ maxLinks := by
  constructor
  · rintro ⟨-, exact⟩
    by_contra many
    obtain ⟨s, isShard, left⟩ := sharded.unpin_leaves writes block healthy state (Nat.lt_of_not_le many)
    rw [exact, if_pos (mem_cons_of_mem _ (mem_cons_of_mem _ isShard))] at left
    cases left
  · intro few
    obtain ⟨wrapObject, dagObj, leafNodes, lists, made⟩ := sharded.made
    have links := (makeDAG_layout lists made).rootLinks_perm lists few
    refine ⟨(sharded.unpin_removes_links writes block healthy state).1, fun x => ?_⟩
    rw [(sharded.unpin_removes_links writes block healthy state).2]
    refine if_congr ?_ rfl rfl
    rw [mem_metaCids, links.mem_iff, mem_cons, mem_cons, or_comm, or_assoc, or_left_comm]

end

theorem unpin_of_failsAt {c : Cluster} {ipfs : BlockSource} {order : MapOrder} {now : Time} {consensus : Consensus}
    {err : Error} {point : UnpinCall} (writes : c.config.followerMode = false) (state : consensus.state = st)
    (fails : FailsAt ipfs dag root consensus err point) :
    (c.unpin ipfs order now consensus h).2.state = removeAll ((metaCids order root dag h).take point.removals) st := by
  obtain ⟨metaPin, stored, isMeta, reference⟩ := sharded.metaPin
  obtain ⟨dagPin, storedDag, -⟩ := sharded.dagPin
  cases point with
  | blockGet =>
    obtain ⟨healthy, noBlock⟩ := fails
    obtain ⟨ready, reads, -⟩ := healthy.readsState
    rw [unpin_meta writes reads (state ▸ stored) isMeta reference (state ▸ storedDag), noBlock]
    exact reads.state.trans state
  | logUnpin i =>
    obtain ⟨block, made, rest, outcomes⟩ := fails
    have length : (metaCids order root dag h).length = root.entries.length + 2 := by
      rw [metaCids, length_append, length_reverse, length_map, (order.visit_perm [] _).length_eq]
      rfl
    obtain ⟨_, _⟩ := consensus
    subst state outcomes
    exact unpin_meta_of_failing writes stored isMeta reference storedDag block (by omega)

end Sharded

/-- An attempt to unpin sharded content that failed can be repeated exactly when the shards are the links of
the root, and the call that failed is not the removal of the meta pin. -/
theorem retriable_iff (c : Cluster) (ipfs : BlockSource) (order : MapOrder) (now : Time) (consensus : Consensus)
    (h dag : Cid) (shards : List Cid) (root : DagObj) (point : UnpinCall) (err : Error)
    (sharded : Sharded consensus.state h dag shards root) (writes : c.config.followerMode = false)
    (fails : FailsAt ipfs dag root consensus err point) :
    Retriable h dag shards root (c.unpin ipfs order now consensus h).2.state ↔
      shards.length ≤ maxLinks ∧ ∀ i, point = .logUnpin i → i ≤ shards.length := by
  obtain ⟨wrapObject, dagObj, leafNodes, lists, made⟩ := sharded.made
  have layout := makeDAG_layout lists made
  rw [sharded.unpin_of_failsAt writes rfl fails, sharded.retriable_removeAll_iff]
  have position : (∀ i, point = .logUnpin i → i ≤ shards.length) ↔ point.removals ≤ shards.length := by
    cases point with
    | blockGet | logUnpin => simp [UnpinCall.removals]
  rw [position]
  generalize point.removals = count
  rcases Nat.lt_or_ge maxLinks shards.length with many | few
  · obtain ⟨s, isShard, missed⟩ := layout.exists_not_mem_rootLinks sharded.nodup many
    have left : s ∉ (metaCids order root dag h).take count := fun removed =>
      missed ((sharded.shard_mem_metaCids_iff isShard).mp (mem_of_mem_take removed))
    constructor
    · rintro ⟨-, -, linked⟩
      exact (missed (linked s isShard left)).elim
    · rintro ⟨few, -⟩
      omega
  · have links := layout.rootLinks_perm lists few
    constructor
    · rintro ⟨-, dagLeft, -⟩
      refine ⟨few, ?_⟩
      by_contra late
      exact dagLeft (dag_mem_take links (Nat.lt_of_not_le late))
    · rintro ⟨-, early⟩
      refine ⟨fun removed => ?_, fun removed => ?_, fun s isShard _ => links.mem_iff.mpr isShard⟩
      · exact (sharded.shard_ne (shard_of_mem_take links early removed)).2 rfl
      · exact (sharded.shard_ne (shard_of_mem_take links early removed)).1 rfl

end

def oneLink : DagObj := Indexed.push ∅ ⟨"shard"⟩

def oneShard : DsState :=
  (((({} : DsState).add { pinCid ⟨"shard"⟩ Time.zero with type := PinType.shardType, maxDepth := 1 }).add
    { pinCid ⟨"dag"⟩ Time.zero with type := PinType.clusterDAGType, maxDepth := 0, reference := some ⟨"root"⟩ })).add
    { pinCid ⟨"root"⟩ Time.zero with type := PinType.metaType, maxDepth := 0, reference := some ⟨"dag"⟩ }

def oneBlock : BlockSource where
  blockGet _ := .ok (.cbor oneLink)

def failingRemoval (i : ℕ) : Consensus where
  state := oneShard
  outcomes := [none, none, none] ++ List.replicate i none ++ [some (.text "no leader")]

def afterAttempt (i : ℕ) : DsState := (threePeers.unpin oneBlock .stored Time.zero (failingRemoval i) ⟨"root"⟩).2.state

theorem sharded_oneShard : Sharded oneShard ⟨"root"⟩ ⟨"dag"⟩ [⟨"shard"⟩] oneLink where
  metaPin := ⟨_, rfl, rfl, rfl⟩
  dagPin := ⟨_, rfl, rfl⟩
  shardPins := by
    intro s isShard
    obtain rfl := mem_singleton.mp isShard
    exact ⟨_, rfl, rfl⟩
  nodup := nodup_singleton _
  made := ⟨fun _ => .ok ⟨"dag"⟩, oneLink, [], lists_empty.push _, rfl⟩

theorem failsAt_failingRemoval {i : ℕ} (made : i < 4) :
    FailsAt oneBlock ⟨"dag"⟩ oneLink (failingRemoval i) (.text "no leader") (.logUnpin i) :=
  ⟨rfl, made, [], rfl⟩

theorem retriable_iff_dagRemoval : Retriable ⟨"root"⟩ ⟨"dag"⟩ [⟨"shard"⟩] oneLink (afterAttempt 1) := by
  refine (retriable_iff threePeers oneBlock .stored Time.zero (failingRemoval 1) _ _ _ _ (.logUnpin 1)
    (.text "no leader") sharded_oneShard rfl (failsAt_failingRemoval (by decide))).mpr ⟨by decide, fun i same => ?_⟩
  obtain rfl := UnpinCall.logUnpin.inj same
  exact Nat.le_refl 1

theorem metaRemoval_not_retriable : Sharded oneShard ⟨"root"⟩ ⟨"dag"⟩ [⟨"shard"⟩] oneLink ∧
    (FailsAt oneBlock ⟨"dag"⟩ oneLink (failingRemoval 2) (.text "no leader") (.logUnpin 2) ∧
      (threePeers.unpin oneBlock .stored Time.zero { state := afterAttempt 2 } ⟨"root"⟩).1.2 =
        some (.text "could not get clusterDAG pin from state. Malformed pin?: pin is not part of the pinset") ∧
      ((afterAttempt 2).store.lookup ⟨"root"⟩).isSome = true) ∧
    FailsAt oneBlock ⟨"dag"⟩ oneLink (failingRemoval 3) (.text "no leader") (.logUnpin 3) ∧
      (threePeers.unpin oneBlock .stored Time.zero { state := afterAttempt 3 } ⟨"root"⟩).1.2 = some .notFound :=
  ⟨sharded_oneShard, ⟨failsAt_failingRemoval (by decide), rfl, rfl⟩, failsAt_failingRemoval (by decide), rfl⟩

end IpfsCluster.Soundness
