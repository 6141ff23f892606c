import IpfsCluster.Proofs.Adder.Served
import IpfsCluster.Soundness.MetaPins
import IpfsCluster.Soundness.Sharding

/-! # Content that was added in shards can be unpinned

What a session leaves in the pinset is sharded content. Unpinning it removes all of it, and nothing
else, as long as the shards are the links of the root of the clusterDAG.
-/

namespace IpfsCluster.Soundness

open Model Model.Api Model.Adder Golang Golang.Indexed Golang.Fallible Proofs.Api Proofs.Adder Proofs.Cluster List

section

variable {World : Type} {rpc : Rpc World} {wrapObject : DagObj → Except Error Cid} {c : Cluster}
  {pinset : World → Consensus}

def shardCids (dgs : DAGService) : List Cid := dgs.flushed.map (·.2.cid)

theorem sharded_of_session (served : ServedBy rpc c pinset) {opts : PinOptions}
    (noUpdate : opts.pinUpdate.defined = false) (origins : ∀ origin ∈ opts.origins, origin ≠ "") {retries : ℕ}
    {nodes : List Node} {dataRoot result : Cid} {w : World} {added final : DAGService × World}
    (adds : addMany rpc wrapObject retries nodes (.new opts, w) = some (.ok () added))
    (finalizes : finalize rpc wrapObject dataRoot added = .ok result final) (distinct : (shardCids final.1).Nodup)
    {root : CborNode} {leafNodes : List CborNode} (made : makeDAG wrapObject final.1.shards = .ok (root :: leafNodes)) :
    Sharded (pinset final.2).state dataRoot root.cid (shardCids final.1) root.obj := by
  have started : ShardsPinned (DAGService.new opts).addParams pinset (.new opts, w) :=
    ⟨rfl, fun _ none => (nomatch none), fun _ none => (nomatch none)⟩
  have unset : (DAGService.new opts).addParams.pinUpdate.defined = false := noUpdate
  have pinned := addMany_pinned served unset started adds
  obtain ⟨root', leafNodes', made', metaPin, dagPin, shards⟩ := finalize_pinned served unset pinned origins finalizes
  obtain ⟨rfl, rfl⟩ := cons.inj (Except.ok.inj (made'.symm.trans made))
  refine ⟨metaPin, dagPin, ?_, distinct, wrapObject, final.1.shards, leafNodes', ?_, made⟩
  · intro s isShard
    obtain ⟨entry, member, rfl⟩ := mem_map.mp isShard
    exact shards entry member
  · exact (accounted_of_session adds finalizes).1.keys

end

/-- After a session, unpinning the content removes the meta pin, the clusterDAG pin and the shard pins,
and nothing else, exactly when there are at most `maxLinks` shards. -/
theorem unpin_session_exact_iff (World : Type) (rpc : Rpc World) (wrapObject : DagObj → Except Error Cid) (c : Cluster)
    (pinset : World → Consensus) (served : ServedBy rpc c pinset) (opts : PinOptions)
    (noUpdate : opts.pinUpdate.defined = false) (origins : ∀ origin ∈ opts.origins, origin ≠ "") (retries : ℕ)
    (nodes : List Node) (dataRoot result : Cid) (w : World) (added final : DAGService × World)
    (adds : addMany rpc wrapObject retries nodes (.new opts, w) = some (.ok () added))
    (finalizes : finalize rpc wrapObject dataRoot added = .ok result final) (distinct : (shardCids final.1).Nodup)
    (root : CborNode) (leafNodes : List CborNode) (made : makeDAG wrapObject final.1.shards = .ok (root :: leafNodes))
    (peer : Cluster) (ipfs : BlockSource) (order : MapOrder) (now : Time) (consensus : Consensus)
    (writes : peer.config.followerMode = false) (block : ipfs.blockGet root.cid = .ok (.cbor root.obj))
    (healthy : Healthy consensus) (state : consensus.state = (pinset final.2).state) :
    ((peer.unpin ipfs order now consensus dataRoot).1.2 = none ∧
      ∀ x, (peer.unpin ipfs order now consensus dataRoot).2.state.store.lookup x =
        if x ∈ dataRoot :: root.cid :: shardCids final.1 then none else (pinset final.2).state.store.lookup x) ↔
      final.1.shards.entries.length ≤ maxLinks := by
  have sharded := sharded_of_session served noUpdate origins adds finalizes distinct made
  rw [(accounted_of_session adds finalizes).1.keys.length]
  exact sharded.unpin_exact_iff writes block healthy state

section

def oneByteShards : PinOptions := { replicationFactorMin := -1, replicationFactorMax := -1, shardSize := 2 }

theorem oneByteShards_origins : ∀ origin ∈ oneByteShards.origins, origin ≠ "" := by
  decide

def blockCid (i : ℕ) : Cid := ⟨"b" ++ decimal i⟩

def blockOf (i : ℕ) : Node := ⟨blockCid i, 1, by decide⟩

def wrapLinks (obj : DagObj) : Except Error Cid :=
  match obj.entries with
  | [link] => .ok ⟨"s" ++ link.2.bytes⟩
  | _ => .ok ⟨"dag"⟩

def shardCid (i : ℕ) : Cid := ⟨"s" ++ (blockCid i).bytes⟩

def ownPinset : Rpc DsState where
  now _ := Time.zero
  blockAllocate _ := pure ["a"]
  sendBlock _ _ := pure ()
  finishStream _ := pure ()
  pin object := fun st =>
    match threePeers.pin .stored noon { state := st } object [] with
    | ((_, _, none), next) => .ok () next.state
    | ((_, _, some err), next) => .error err next.state

theorem servedBy_ownPinset : ServedBy ownPinset threePeers fun st => { state := st } where
  blockAllocate := by
    intro object w allocs w' answered
    obtain ⟨-, rfl⟩ := pure_eq_ok.mp answered
    rfl
  sendBlock := by
    intro dests block w w' answered
    obtain ⟨-, rfl⟩ := pure_eq_ok.mp answered
    rfl
  finishStream := by
    intro dests w w' answered
    obtain ⟨-, rfl⟩ := pure_eq_ok.mp answered
    rfl
  pin := by
    intro object w w' answered
    refine ⟨.stored, noon, ?_⟩
    simp only [ownPinset] at answered
    generalize threePeers.pin .stored noon { state := w } object [] = result at answered ⊢
    obtain ⟨⟨_, _, _ | err⟩, next⟩ := result
    · obtain ⟨-, rfl⟩ := EStateM.Result.ok.inj answered
      exact ⟨rfl, rfl⟩
    · cases answered
  reads := fun _ failed => nomatch failed

theorem willing_ownPinset (st : DsState) : Willing ownPinset (· = st) where
  blockAllocate := fun _ w same => ⟨_, w, rfl, same⟩
  sendBlock := fun _ _ w same => ⟨w, rfl, same⟩
  finishStream := fun _ w same => ⟨w, rfl, same⟩

theorem pin_ownPinset {object : Pin} {st : DsState} (isCid : object.cid.defined = true)
    (noUpdate : object.pinUpdate.defined = false)
    (isEverywhere : object.replicationFactorMin = -1 ∧ object.replicationFactorMax = -1)
    (lasting : object.expireAt.isZero = true) (new : st.store.lookup object.cid = none) :
    ∃ st', pin ownPinset object st = .ok () st' ∧
      ∀ x, st'.store.lookup x ≠ none → x = object.cid ∨ st.store.lookup x ≠ none := by
  have absent : st.get object.cid = .error .notFound := by simp only [DsState.get, new]
  have healthy : Healthy { state := st } := fun _ none => (by cases none)
  have succeeds : (threePeers.pin .stored noon { state := st } { object with allocations := [] } []).1.2.2 = none :=
    @pin_everywhere_of_new { object with allocations := [] } threePeers .stored noon { state := st } rfl healthy isCid
      noUpdate isEverywhere lasting absent []
  have pinned : pin ownPinset object st =
      .ok () (threePeers.pin .stored noon { state := st } { object with allocations := [] } []).2.state := by
    rw [pin, if_pos (by omega)]
    simp only [ownPinset]
    generalize threePeers.pin .stored noon { state := st } { object with allocations := [] } [] = result at succeeds ⊢
    obtain ⟨⟨_, _, err⟩, next⟩ := result
    obtain rfl : err = none := succeeds
    rfl
  refine ⟨_, pinned, fun x found => ?_⟩
  obtain ⟨allocs, now, ready, stored, -, accepted, state⟩ := servedBy_ownPinset.accepted noUpdate pinned
  have lookup := lookup_add st stored x
  rw [← state, accepted.cid] at lookup
  rw [lookup] at found
  split at found
  next same => exact Or.inl same
  · exact Or.inr found

variable {i k : ℕ}

theorem shardCid_inj {j : ℕ} (same : shardCid i = shardCid j) : i = j :=
  decimal_inj.mp ((String.append_right_inj "b").mp ((String.append_right_inj "s").mp (Cid.mk.inj same)))

theorem shardCid_ne {text : String} (other : text.toList.head? ≠ some 's') : shardCid i ≠ ⟨text⟩ := by
  intro same
  have start := congrArg (·.bytes.toList.head?) same
  simp only [shardCid, String.toList_append] at start
  exact other start.symm

theorem defined_shardCid (i : ℕ) : (shardCid i).defined = true := by
  have other : shardCid i ≠ ⟨""⟩ := shardCid_ne (by decide)
  simpa [Cid.defined] using fun same : (shardCid i).bytes = "" => other (congrArg Cid.mk same)

/-- Only blocks up to the given one were added. -/
def AddedUpTo (k : ℕ) (dgs : DAGService) : Prop := ∀ c ∈ dgs.addedSet, ∃ i ≤ k, c = blockCid i

/-- The blocks up to the given one have each a shard of their own, and the last shard is open. -/
structure OneEach (k : ℕ) (s : DAGService × DsState) : Prop where
  options : s.1.addParams = oneByteShards
  current : ∃ shard, s.1.currentShard = some shard ∧ shard.dagNode = Indexed.push ∅ (blockCid k) ∧
    shard.currentSize = 1 ∧ shard.sizeLimit = 2 ∧ shard.pinOptions = oneByteShards
  flushed : shardCids s.1 = (range k).map shardCid
  stored : ∀ x, s.2.store.lookup x ≠ none → ∃ i < k, x = shardCid i

structure AllFlushed (count : ℕ) (s : DAGService × DsState) : Prop where
  options : s.1.addParams = oneByteShards
  current : s.1.currentShard = none
  flushed : shardCids s.1 = (range count).map shardCid
  stored : ∀ x, s.2.store.lookup x ≠ none → ∃ i < count, x = shardCid i

variable {dgs : DAGService}

theorem OneEach.flush {st : DsState} (one : OneEach k (dgs, st)) :
    ∃ last s', flushCurrentShard ownPinset wrapLinks (dgs, st) = .ok last s' ∧ AllFlushed (k + 1) s' ∧
      s'.1.addedSet = dgs.addedSet := by
  obtain ⟨shard, current, dagNode, -, -, pinOptions⟩ := one.current
  have made : makeDAG wrapLinks shard.dagNode = .ok [{ cid := shardCid k, obj := shard.dagNode }] := by
    rw [dagNode]
    rfl
  have new : st.store.lookup (shardCid k) = none := by
    by_contra found
    obtain ⟨i, before, same⟩ := one.stored _ found
    have := shardCid_inj same
    omega
  have pins (now : Time) (w : DsState) (same : w = st) :
      ∃ w', pin ownPinset (shard.shardPin [{ cid := shardCid k, obj := shard.dagNode }] (shardCid k)
          dgs.shards.entries.length dgs.previousShard now) w = .ok () w' ∧
        ∀ x, w'.store.lookup x ≠ none → ∃ i < k + 1, x = shardCid i := by
    subst same
    have noUpdate : shard.pinOptions.pinUpdate.defined = false := by rw [pinOptions]; rfl
    have isEverywhere : shard.pinOptions.replicationFactorMin = -1 ∧ shard.pinOptions.replicationFactorMax = -1 := by
      rw [pinOptions]
      exact ⟨rfl, rfl⟩
    have lasting : shard.pinOptions.expireAt.isZero = true := by rw [pinOptions]; rfl
    obtain ⟨w', pinned, grown⟩ := @pin_ownPinset (shard.shardPin [{ cid := shardCid k, obj := shard.dagNode }]
      (shardCid k) dgs.shards.entries.length dgs.previousShard now) w (defined_shardCid k) noUpdate isEverywhere lasting new
    refine ⟨w', pinned, fun x found => ?_⟩
    rcases grown x found with same | before
    · exact ⟨k, by omega, same⟩
    · obtain ⟨i, below, same⟩ := one.stored x before
      exact ⟨i, by omega, same⟩
  obtain ⟨now, w', flushes, stored⟩ := (willing_ownPinset st).flush made pins rfl
  refine ⟨_, _, flushCurrentShard_of_flush current flushes, ⟨one.options, rfl, ?_, stored⟩, rfl⟩
  have flushed := one.flushed
  simp only [shardCids, afterFlush, map_append, map_singleton, range_succ] at flushed ⊢
  rw [flushed]
  rfl

theorem AllFlushed.ingest {st : DsState} (all : AllFlushed k (dgs, st)) :
    ∃ s', tryIngest ownPinset wrapLinks (blockOf k) (dgs, st) = .ok true s' ∧ OneEach k s' ∧
      s'.1.addedSet = dgs.addedSet := by
  have creates : newShard ownPinset dgs.addParams st =
      .ok { allocations := ["a"], pinOptions := oneByteShards, sizeLimit := 2 } st := by
    rw [all.options]
    rfl
  have fits : (0 : BitVec 64) + BitVec.ofNat 64 1 < 2 := by decide
  refine ⟨_, tryIngest_of_new all.current creates fits rfl, ⟨all.options, ?_, all.flushed, all.stored⟩, rfl⟩
  exact ⟨_, rfl, rfl, rfl, rfl, rfl⟩

theorem OneEach.add {st : DsState} (one : OneEach k (dgs, st)) (added : AddedUpTo k dgs) :
    ∃ s', add ownPinset wrapLinks 1 (blockOf (k + 1)) (dgs, st) = some (.ok () s') ∧ OneEach (k + 1) s' ∧
      AddedUpTo (k + 1) s'.1 := by
  have new : (blockOf (k + 1)).cid ∉ dgs.addedSet := by
    intro before
    obtain ⟨i, notAfter, same⟩ := added _ before
    have := decimal_inj.mp ((String.append_right_inj "b").mp (Cid.mk.inj same))
    omega
  have oneAdded : OneEach k ({ dgs with addedSet := blockCid (k + 1) :: dgs.addedSet }, st) := { one with }
  obtain ⟨shard, current, -, size, limit, -⟩ := one.current
  obtain ⟨last, ⟨flushed, st'⟩, flushes, all, addedFlushed⟩ := oneAdded.flush
  obtain ⟨s', stores, oneNext, addedNext⟩ := all.ingest
  have full : tryIngest ownPinset wrapLinks (blockOf (k + 1))
      ({ dgs with addedSet := blockCid (k + 1) :: dgs.addedSet }, st) = .ok false (flushed, st') := by
    refine tryIngest_of_full current ?_ ?_ flushes
    · rw [size, limit]
      change ¬ (1 : BitVec 64) + BitVec.ofNat 64 1 < 2
      decide
    · rw [size]
      decide
  refine ⟨s', ?_, oneNext, ?_⟩
  · rw [Model.Adder.add, if_neg new]
    change ingestBlock ownPinset wrapLinks 1 (blockOf (k + 1))
      ({ dgs with addedSet := blockCid (k + 1) :: dgs.addedSet }, st) = _
    rw [ingestBlock, full]
    dsimp only
    rw [ingestBlock, stores]
  · intro c member
    rw [addedNext, addedFlushed] at member
    rcases mem_cons.mp member with rfl | before
    · exact ⟨k + 1, Nat.le_refl _, rfl⟩
    · obtain ⟨i, notAfter, same⟩ := added c before
      exact ⟨i, by omega, same⟩

theorem OneEach.addMany (count : ℕ) {s : DAGService × DsState} (one : OneEach k s) (added : AddedUpTo k s.1) :
    ∃ s', addMany ownPinset wrapLinks 1 ((range' (k + 1) count).map blockOf) s = some (.ok () s') ∧
      OneEach (k + count) s' := by
  induction count generalizing k s with
  | zero => exact ⟨s, rfl, one⟩
  | succ count ih =>
    obtain ⟨next, first, oneNext, addedNext⟩ := one.add added
    obtain ⟨last, later, oneLast⟩ := ih oneNext addedNext
    refine ⟨last, ?_, by rwa [show k + (count + 1) = k + 1 + count by omega]⟩
    rw [range'_succ, map_cons, Model.Adder.addMany, first]
    exact later

theorem addMany_oneEach (count : ℕ) :
    ∃ added, addMany ownPinset wrapLinks 1 ((range (count + 1)).map blockOf) (.new oneByteShards, {}) =
      some (.ok () added) ∧ OneEach count added := by
  have all : AllFlushed 0 ({ DAGService.new oneByteShards with addedSet := [blockCid 0] }, {}) :=
    ⟨rfl, rfl, rfl, fun x found => (found rfl).elim⟩
  obtain ⟨s, stores, one, added⟩ := all.ingest
  have first : add ownPinset wrapLinks 1 (blockOf 0) (.new oneByteShards, {}) = some (.ok () s) := by
    rw [add, if_neg (show (blockOf 0).cid ∉ (DAGService.new oneByteShards).addedSet from not_mem_nil)]
    change ingestBlock ownPinset wrapLinks 1 (blockOf 0)
      ({ DAGService.new oneByteShards with addedSet := [blockCid 0] }, {}) = _
    rw [ingestBlock, stores]
  have addedFirst : AddedUpTo 0 s.1 := by
    intro c member
    rw [added] at member
    exact ⟨0, Nat.le_refl _, mem_singleton.mp member⟩
  obtain ⟨last, later, oneLast⟩ := one.addMany count addedFirst
  refine ⟨last, ?_, by rwa [Nat.zero_add] at oneLast⟩
  rw [range_eq_range', range'_succ, map_cons, addMany, first]
  exact later

theorem wrapLinks_of_length {obj : DagObj} (several : 2 ≤ obj.entries.length) : wrapLinks obj = .ok ⟨"dag"⟩ := by
  unfold wrapLinks
  split
  next single =>
    rw [single, length_singleton] at several
    omega
  · rfl

theorem dag_of_layout {dagObj : DagObj} {links : List Cid} {root : CborNode} {leafNodes : List CborNode}
    (layout : Layout wrapLinks dagObj links (root :: leafNodes)) (lists : Lists dagObj links)
    (several : 2 ≤ links.length) : root.cid = ⟨"dag"⟩ := by
  have length : 2 ≤ root.obj.entries.length := by
    cases layout with
    | simple _ _ _ ofObj => rwa [ofObj, lists.length]
    | indirect _ _ many _ leaves =>
      rw [leaves.lists.length, length_map, leaves.length]
      unfold maxLinks at many ⊢
      omega
  cases layout with
  | simple _ _ ofCid | indirect _ _ _ ofCid => exact Except.ok.inj (ofCid.symm.trans (wrapLinks_of_length length))

theorem session_oneEach (count : ℕ) (several : 1 ≤ count) : ∃ added final root leafNodes,
      addMany ownPinset wrapLinks 1 ((range (count + 1)).map blockOf) (.new oneByteShards, {}) =
        some (.ok () added) ∧ finalize ownPinset wrapLinks ⟨"root"⟩ added = .ok ⟨"root"⟩ final ∧
      makeDAG wrapLinks final.1.shards = .ok (root :: leafNodes) ∧
      shardCids final.1 = (range (count + 1)).map shardCid := by
  obtain ⟨⟨dgs, st⟩, adds, one⟩ := addMany_oneEach count
  obtain ⟨last, ⟨flushed, st'⟩, flushes, all, -⟩ := one.flush
  have lists := (flushCurrentShard_accounted (accounted_of_adds adds) flushes).1.keys
  have isShards : flushed.flushed.map (·.2.cid) = (range (count + 1)).map shardCid := all.flushed
  have total (obj : DagObj) : ∃ c, wrapLinks obj = .ok c := by
    unfold wrapLinks
    split <;> exact ⟨_, rfl⟩
  obtain ⟨nodes, made⟩ := makeDAG_of_total total lists
  have layout := makeDAG_layout lists made
  obtain ⟨root, leafNodes, rfl⟩ : ∃ root leafNodes, nodes = root :: leafNodes := by
    cases layout with
    | simple root => exact ⟨root, [], rfl⟩
    | indirect root leafNodes => exact ⟨root, leafNodes, rfl⟩
  have isDag : root.cid = ⟨"dag"⟩ := by
    refine dag_of_layout layout lists ?_
    rw [isShards, length_map, length_range]
    omega
  obtain ⟨streamed, sends, rfl⟩ := (willing_ownPinset st').streamNodes [""] (root :: leafNodes) rfl
  have newDag : streamed.store.lookup root.cid = none := by
    rw [isDag]
    by_contra found
    obtain ⟨i, -, same⟩ := all.stored _ found
    exact shardCid_ne (by decide) same.symm
  have options : flushed.addParams = oneByteShards := all.options
  obtain ⟨pinned, pinsDag, grown⟩ := @pin_ownPinset (clusterDAGPin oneByteShards root.cid ⟨"root"⟩ Time.zero) streamed
    (by rw [clusterDAGPin, isDag]; decide) rfl ⟨rfl, rfl⟩ rfl newDag
  have newMeta : pinned.store.lookup ⟨"root"⟩ = none := by
    by_contra found
    rcases grown _ found with same | before
    · exact absurd (same.trans isDag) (by decide)
    · obtain ⟨i, -, same⟩ := all.stored _ before
      exact shardCid_ne (by decide) same.symm
  obtain ⟨st', pinsMeta, -⟩ := @pin_ownPinset (metaPin oneByteShards root.cid ⟨"root"⟩ Time.zero) pinned
    (show Cid.defined ⟨"root"⟩ = true by decide) rfl ⟨rfl, rfl⟩ rfl newMeta
  rw [← options] at pinsDag pinsMeta
  exact ⟨(dgs, st), (flushed, st'), root, leafNodes, adds, finalize_of_pins flushes made sends pinsDag pinsMeta, made,
    all.flushed⟩

theorem nodup_shardCids {count : ℕ} (isShards : shardCids dgs = (range count).map shardCid) :
    (shardCids dgs).Nodup := by
  rw [isShards]
  exact nodup_range.map fun i j same => shardCid_inj same

def unpinRoot (root : CborNode) (st : DsState) : (Pin × Option Error) × Consensus :=
  threePeers.unpin { blockGet := fun _ => .ok (.cbor root.obj) } .stored Time.zero { state := st } ⟨"root"⟩

theorem unpin_session_exact_iff_twoShards :
    ∃ (added final : DAGService × DsState) (root : CborNode) (leafNodes : List CborNode),
      addMany ownPinset wrapLinks 1 ((range 2).map blockOf) (.new oneByteShards, {}) = some (.ok () added) ∧
      finalize ownPinset wrapLinks ⟨"root"⟩ added = .ok ⟨"root"⟩ final ∧
      makeDAG wrapLinks final.1.shards = .ok (root :: leafNodes) ∧ (unpinRoot root final.2).1.2 = none ∧
      ∀ x, (unpinRoot root final.2).2.state.store.lookup x =
        if x ∈ ⟨"root"⟩ :: root.cid :: shardCids final.1 then none else final.2.store.lookup x := by
  obtain ⟨added, final, root, leafNodes, adds, finalizes, made, isShards⟩ := session_oneEach 1 (Nat.le_refl 1)
  have healthy : Healthy { state := final.2 } := fun _ none => (by cases none)
  have few : final.1.shards.entries.length ≤ maxLinks := by
    rw [(accounted_of_session adds finalizes).1.keys.length, ← shardCids, isShards]
    decide
  exact ⟨added, final, root, leafNodes, adds, finalizes, made,
    (unpin_session_exact_iff DsState ownPinset wrapLinks threePeers _ servedBy_ownPinset oneByteShards rfl
      oneByteShards_origins 1 _ ⟨"root"⟩ _ _ added final adds finalizes (nodup_shardCids isShards) root leafNodes
      made threePeers _ .stored Time.zero { state := final.2 } rfl rfl healthy rfl).mpr few⟩

theorem unpinRoot_leaves_shard : ∃ (added final : DAGService × DsState) (root : CborNode) (leafNodes : List CborNode),
      addMany ownPinset wrapLinks 1 ((range (maxLinks + 1)).map blockOf) (.new oneByteShards, {}) =
        some (.ok () added) ∧ finalize ownPinset wrapLinks ⟨"root"⟩ added = .ok ⟨"root"⟩ final ∧
      makeDAG wrapLinks final.1.shards = .ok (root :: leafNodes) ∧ (unpinRoot root final.2).1.2 = none ∧
      ∃ s ∈ shardCids final.1, ((unpinRoot root final.2).2.state.store.lookup s).isSome = true := by
  obtain ⟨added, final, root, leafNodes, adds, finalizes, made, isShards⟩ := session_oneEach maxLinks (by decide)
  have healthy : Healthy { state := final.2 } := fun _ none => (by cases none)
  have sharded := sharded_of_session servedBy_ownPinset rfl oneByteShards_origins adds finalizes
    (nodup_shardCids isShards) made
  have many : maxLinks < (shardCids final.1).length := by
    rw [isShards, length_map, length_range]
    omega
  exact ⟨added, final, root, leafNodes, adds, finalizes, made,
    (sharded.unpin_removes_links rfl rfl healthy rfl).1, sharded.unpin_leaves rfl rfl healthy rfl many⟩

end

end IpfsCluster.Soundness
