import IpfsCluster.Proofs.Adder.Sharding

/-! # Blocks are put into shards

A session that succeeds has put every distinct block into exactly one shard, in order. The shards are
numbered and chained, and as long as the sizes do not overflow they are below the limit. The pin of a
shard covers its blocks as long as they are the links of its root.
-/

namespace IpfsCluster.Soundness

open Model Model.Api Model.Adder Golang Golang.Indexed Proofs.Adder List

section

def sizeIn (nodes : List Node) (c : Cid) : ℕ := ((nodes.find? fun n => n.cid = c).map (·.size)).getD 0

/-- The CIDs of the blocks, each at its first occurrence. -/
def distinctCids (nodes : List Node) : List Cid := (nodes.map (·.cid)).eraseDups

/-- The blocks are in shards: in order, in shards that are not empty, and the shards are stored under
their number and reference the shard before. -/
structure InShards (nodes : List Node) (dgs : DAGService) : Prop where
  links : dgs.flushed.flatMap (·.1.links) = distinctCids nodes
  nonempty : ∀ entry ∈ dgs.flushed, entry.1.links ≠ []
  count : dgs.shards.entries.length = dgs.flushed.length
  keys : ∀ (k : ℕ) (entry : Shard × Pin), dgs.flushed[k]? = some entry →
    dgs.shards.lookup (decimal k) = some entry.2.cid
  references : ∀ (k : ℕ) (entry : Shard × Pin), dgs.flushed[k]? = some entry →
    entry.2.reference = (Cid.undef :: dgs.flushed.map (·.2.cid))[k]?

/-- Every shard is below the limit, and the total size is the one of the distinct blocks. -/
structure Sized (nodes : List Node) (limit : BitVec 64) (dgs : DAGService) : Prop where
  below : ∀ entry ∈ dgs.flushed, bytesOf (sizeIn nodes) entry.1.links < limit.toNat
  total : dgs.totalSize.toNat = bytesOf (sizeIn nodes) (distinctCids nodes)

theorem sizeIn_of_first {before after : List Node} {n : Node} (new : n.cid ∉ before.map (·.cid)) :
    sizeIn (before ++ n :: after) n.cid = n.size := by
  have absent : before.find? (fun m => m.cid = n.cid) = none := by
    rw [find?_eq_none]
    intro m member same
    exact new (mem_map.mpr ⟨m, member, of_decide_eq_true same⟩)
  simp [sizeIn, find?_append, absent]

variable {World : Type} {rpc : Rpc World} {wrapObject : DagObj → Except Error Cid}
  {added : DAGService × World} {nodes : List Node}

theorem accounted_of_adds {opts : PinOptions} {retries : ℕ} {w : World}
    (adds : addMany rpc wrapObject retries nodes (.new opts, w) = some (.ok () added)) :
    Accounted (sizeIn nodes) opts.shardSize (distinctCids nodes) added.1 := by
  have started : Accounted (sizeIn nodes) opts.shardSize (([] : List Node).map (·.cid)).eraseDups (.new opts) :=
    accounted_new opts
  exact addMany_accounted started (fun c => by simp [DAGService.new])
    (fun before n after same new => by rw [same]; exact sizeIn_of_first new) adds

theorem accounted_of_session {opts : PinOptions} {retries : ℕ} {dataRoot result : Cid} {w : World}
    {final : DAGService × World} (adds : addMany rpc wrapObject retries nodes (.new opts, w) = some (.ok () added))
    (finalizes : finalize rpc wrapObject dataRoot added = .ok result final) :
    Accounted (sizeIn nodes) opts.shardSize (distinctCids nodes) final.1 ∧ final.1.currentShard = none := by
  obtain ⟨last, flushed, root, leafNodes, streamed, pinned, flushes, -, -, -, -, same⟩ := finalize_eq_ok finalizes
  rw [same]
  refine ⟨(flushCurrentShard_accounted (accounted_of_adds adds) flushes).1, ?_⟩
  obtain ⟨shard, result, w', -, -, rfl⟩ := flushCurrentShard_eq_ok flushes
  rfl

theorem sized_of_accounted {limit : BitVec 64} {dgs : DAGService}
    (accounted : Accounted (sizeIn nodes) limit (distinctCids nodes) dgs) (ended : dgs.currentShard = none)
    (small : bytesOf (sizeIn nodes) (distinctCids nodes) < 2 ^ 64) : Sized nodes limit dgs := by
  have links := accounted.links
  rw [currentLinks, ended, Option.elim_none, append_nil] at links
  constructor
  · intro entry member
    obtain ⟨built, nonempty⟩ := accounted.flushed entry member
    obtain ⟨before, after, split⟩ := append_of_mem member
    have below := built.below nonempty
    rw [← links, split, flatMap_append, flatMap_cons, bytesOf_append, bytesOf_append] at small
    rw [built.size, BitVec.lt_def, BitVec.toNat_ofNat, Nat.mod_eq_of_lt (by omega)] at below
    exact below
  · rw [accounted.total, links, BitVec.toNat_ofNat, Nat.mod_eq_of_lt small]

/-- Of a session that succeeds, the distinct blocks are in shards. When their sizes can be summed up in 64
bits, every shard is below the limit and the total is exact. A block is retried at most once. -/
theorem inShards_of_session (World : Type) (rpc : Rpc World) (wrapObject : DagObj → Except Error Cid)
    (opts : PinOptions) (retries : ℕ) (nodes : List Node) (dataRoot result : Cid) (w : World)
    (added final : DAGService × World)
    (adds : addMany rpc wrapObject retries nodes (.new opts, w) = some (.ok () added))
    (finalizes : finalize rpc wrapObject dataRoot added = .ok result final) : InShards nodes final.1 ∧
      (bytesOf (sizeIn nodes) (distinctCids nodes) < 2 ^ 64 → Sized nodes opts.shardSize final.1) ∧
      ∀ (more : ℕ) (n : Node) (s : DAGService × World),
        ingestBlock rpc wrapObject (more + 1) n s = ingestBlock rpc wrapObject 1 n s ∧
          ingestBlock rpc wrapObject 1 n s ≠ none := by
  obtain ⟨accounted, ended⟩ := accounted_of_session adds finalizes
  refine ⟨?_, sized_of_accounted accounted ended, ingestBlock_retries⟩
  have links := accounted.links
  rw [currentLinks, ended, Option.elim_none, append_nil] at links
  refine ⟨links, fun entry member => (accounted.flushed entry member).2, ?_, ?_, accounted.references⟩
  · rw [accounted.keys.length, length_map]
  · intro k entry found
    rw [accounted.keys.lookup, getElem?_map, found, Option.map_some]

def quiet : Rpc Unit where
  now _ := Time.zero
  blockAllocate _ := pure ["a"]
  sendBlock _ _ := pure ()
  finishStream _ := pure ()
  pin _ := pure ()

def endOfSession (nodes : List Node) (limit : BitVec 64) : Option DAGService :=
  match addMany quiet (fun _ => .ok ⟨"node"⟩) 1 nodes (.new { shardSize := limit }, ()) with
  | some (.ok () added) =>
    match finalize quiet (fun _ => .ok ⟨"node"⟩) ⟨"root"⟩ added with
    | .ok _ final => some final.1
    | .error .. => none
  | _ => none

def fourBlocks : List Node :=
  [⟨⟨"x"⟩, 3, by decide⟩, ⟨⟨"y"⟩, 4, by decide⟩, ⟨⟨"x"⟩, 3, by decide⟩, ⟨⟨"root"⟩, 5, by decide⟩]

def hugeBlocks : List Node :=
  [⟨⟨"x"⟩, 2 ^ 63 - 1, by decide⟩, ⟨⟨"y"⟩, 2 ^ 63 - 1, by decide⟩, ⟨⟨"root"⟩, 2, by decide⟩]

theorem session_of_endOfSession {limit : BitVec 64} {dgs : DAGService} (ended : endOfSession nodes limit = some dgs) :
    ∃ added result final, addMany quiet (fun _ => .ok ⟨"node"⟩) 1 nodes (.new { shardSize := limit }, ()) =
        some (.ok () added) ∧ finalize quiet (fun _ => .ok ⟨"node"⟩) ⟨"root"⟩ added = .ok result final ∧
      final.1 = dgs := by
  unfold endOfSession at ended
  split at ended
  next added adds =>
    split at ended
    next result final finalizes => exact ⟨added, result, final, adds, finalizes, Option.some.inj ended⟩
    · cases ended
  · cases ended

theorem inShards_of_session_twoShards :
    ∃ dgs, endOfSession fourBlocks 8 = some dgs ∧ InShards fourBlocks dgs ∧ Sized fourBlocks 8 dgs := by
  obtain ⟨dgs, ended⟩ := Option.isSome_iff_exists.mp (by decide +kernel : (endOfSession fourBlocks 8).isSome = true)
  obtain ⟨added, result, final, adds, finalizes, rfl⟩ := session_of_endOfSession ended
  obtain ⟨inShards, sized, -⟩ := inShards_of_session Unit quiet _ _ 1 fourBlocks _ _ () added final adds finalizes
  exact ⟨final.1, ended, inShards, sized (by decide +kernel)⟩

theorem overflowing_shard : ∃ dgs, endOfSession hugeBlocks (BitVec.ofNat 64 (2 ^ 64 - 1)) = some dgs ∧
      (∃ entry ∈ dgs.flushed, 2 ^ 64 - 1 < bytesOf (sizeIn hugeBlocks) entry.1.links) ∧
      dgs.totalSize.toNat ≠ bytesOf (sizeIn hugeBlocks) (distinctCids hugeBlocks) := by
  obtain ⟨dgs, ended⟩ := Option.isSome_iff_exists.mp
    (by decide +kernel : (endOfSession hugeBlocks (BitVec.ofNat 64 (2 ^ 64 - 1))).isSome = true)
  have overflows : ∀ dgs ∈ endOfSession hugeBlocks (BitVec.ofNat 64 (2 ^ 64 - 1)),
      (∃ entry ∈ dgs.flushed, 2 ^ 64 - 1 < bytesOf (sizeIn hugeBlocks) entry.1.links) ∧
        dgs.totalSize.toNat ≠ bytesOf (sizeIn hugeBlocks) (distinctCids hugeBlocks) := by
    decide +kernel
  exact ⟨dgs, ended, overflows dgs ended⟩

end

section

/-- A block is reached from a node of a DAG in at most so many steps along links. -/
def Within (nodes : List CborNode) : ℕ → CborNode → Cid → Prop
  | 0, node, c => c = node.cid
  | depth + 1, node, c => c = node.cid ∨ ∃ link ∈ node.obj.entries.map (·.2),
      c = link ∨ ∃ next ∈ nodes, next.cid = link ∧ Within nodes depth next c

theorem within_one_iff {nodes : List CborNode} {root : CborNode} {c : Cid} :
    Within nodes 1 root c ↔ c ∈ root.cid :: root.obj.entries.map (·.2) := by
  simp only [Within, mem_cons]
  refine or_congr_right ⟨?_, fun linked => ⟨c, linked, Or.inl rfl⟩⟩
  rintro ⟨link, linked, rfl | ⟨next, -, rfl, rfl⟩⟩ <;> exact linked

def shardOf (allocs : List PeerID) (opts : PinOptions) (added : List (Cid × BitVec 64)) : Shard :=
  added.foldl (fun sh link => sh.addLink link.1 link.2)
    { allocations := allocs, pinOptions := opts, sizeLimit := opts.shardSize }

theorem lists_foldl_addLink {shard : Shard} {cids : List Cid} (lists : Lists shard.dagNode cids)
    (added : List (Cid × BitVec 64)) :
    Lists (added.foldl (fun sh link => sh.addLink link.1 link.2) shard).dagNode (cids ++ added.map (·.1)) := by
  induction added generalizing shard cids with
  | nil => simpa using lists
  | cons link rest ih =>
    rw [foldl_cons, map_cons, append_cons]
    exact ih (lists.push link.1)

theorem lists_shardOf (allocs : List PeerID) (opts : PinOptions) (added : List (Cid × BitVec 64)) :
    Lists (shardOf allocs opts added).dagNode (added.map (·.1)) := by
  have start : Lists (Shard.dagNode { allocations := allocs, pinOptions := opts, sizeLimit := opts.shardSize }) [] :=
    lists_empty
  exact lists_foldl_addLink start added

variable {wrapObject : DagObj → Except Error Cid}

theorem within_one_of_layout_iff {dagObj : DagObj} {links : List Cid} {root : CborNode} {leafNodes : List CborNode}
    (layout : Layout wrapObject dagObj links (root :: leafNodes)) (lists : Lists dagObj links) (nodup : links.Nodup) :
    (∀ c ∈ links, Within (root :: leafNodes) 1 root c) ↔ links.length ≤ maxLinks := by
  simp only [within_one_iff]
  constructor
  · intro covered
    cases layout with
    | simple _ few => exact few
    | indirect _ _ many _ leaves =>
      have bound := (subperm_of_subset nodup covered).length_le
      rw [length_cons, length_map, leaves.lists.length, length_map, leaves.length] at bound
      unfold maxLinks at many bound
      omega
  · intro few c member
    exact mem_cons_of_mem _ ((layout.rootLinks_perm lists few).mem_iff.mpr member)

theorem maxDepth_shardPin {sh : Shard} {links : List Cid} {nodes : List CborNode}
    (layout : Layout wrapObject sh.dagNode links nodes) (lists : Lists sh.dagNode links) (rootCid : Cid) (shardN : ℕ)
    (prev : Cid) (now : Time) : (sh.shardPin nodes rootCid shardN prev now).maxDepth = 1 := by
  refine if_neg ?_
  rw [lists.length]
  cases layout with
  | simple _ => simp
  | indirect _ leafNodes many _ leaves =>
    rw [length_cons, leaves.length]
    unfold maxLinks at many ⊢
    omega

/-- The pin that a flush submits for a shard covers its blocks exactly when there are at most `maxLinks`. -/
theorem flush_covers_iff (World : Type) (rpc : Rpc World) (wrapObject : DagObj → Except Error Cid)
    (allocs : List PeerID) (opts : PinOptions) (added : List (Cid × BitVec 64)) (shardN : ℕ) (prev rootCid : Cid)
    (submitted : Pin) (w w' : World) (nodup : (added.map (·.1)).Nodup)
    (flushes : (shardOf allocs opts added).flush rpc wrapObject shardN prev w = .ok (rootCid, submitted) w') :
    ∃ root leafNodes, makeDAG wrapObject (shardOf allocs opts added).dagNode = .ok (root :: leafNodes) ∧
      submitted.cid = root.cid ∧ ((∀ c ∈ added.map (·.1), Within (root :: leafNodes) submitted.maxDepth.toNat root c) ↔
        added.length ≤ maxLinks) := by
  obtain ⟨root, leafNodes, streamed, made, -, result, -⟩ := flush_eq_ok flushes
  cases result
  have lists := lists_shardOf allocs opts added
  have layout := makeDAG_layout lists made
  refine ⟨root, leafNodes, made, rfl, ?_⟩
  rw [maxDepth_shardPin layout lists, ← length_map (·.1)]
  exact within_one_of_layout_iff layout lists nodup

theorem flush_covers_iff_twoLinks :
    ∃ root leafNodes, makeDAG (fun _ => .ok ⟨"node"⟩) (shardOf ["a"] {} [(⟨"x"⟩, 3), (⟨"y"⟩, 4)]).dagNode =
        .ok (root :: leafNodes) ∧ ∀ c ∈ [(⟨"x"⟩ : Cid), ⟨"y"⟩], Within (root :: leafNodes) 1 root c := by
  obtain ⟨root, leafNodes, made, -, covered⟩ := flush_covers_iff Unit quiet (fun _ => .ok ⟨"node"⟩) ["a"] {}
    [(⟨"x"⟩, 3), (⟨"y"⟩, 4)] 0 Cid.undef _ _ () () (by decide) rfl
  exact ⟨root, leafNodes, made, covered.mpr (by decide)⟩

def manyLinks : List (Cid × BitVec 64) := (List.range (maxLinks + 1)).map fun i => (⟨decimal i⟩, 1)

theorem flush_misses_block : ∃ root leafNodes submitted, manyLinks.length = maxLinks + 1 ∧
      (shardOf ["a"] {} manyLinks).flush quiet (fun _ => .ok ⟨"node"⟩) 0 Cid.undef () = .ok (root.cid, submitted) () ∧
      makeDAG (fun _ => .ok ⟨"node"⟩) (shardOf ["a"] {} manyLinks).dagNode = .ok (root :: leafNodes) ∧
      submitted.maxDepth = 1 ∧ ∃ c ∈ manyLinks.map (·.1), ¬ Within (root :: leafNodes) 1 root c := by
  have length : manyLinks.length = maxLinks + 1 := by rw [manyLinks, length_map, length_range]
  have nodup : (manyLinks.map (·.1)).Nodup := by
    rw [manyLinks, map_map]
    refine nodup_range.map fun i j same => ?_
    exact decimal_inj.mp (Cid.mk.inj same)
  have lists := lists_shardOf ["a"] {} manyLinks
  obtain ⟨nodes, made⟩ := @makeDAG_of_total (fun _ => .ok ⟨"node"⟩) _ _ (fun _ => ⟨_, rfl⟩) lists
  have layout := makeDAG_layout lists made
  obtain ⟨root, leafNodes, rfl⟩ : ∃ root leafNodes, nodes = root :: leafNodes := by
    cases layout with
    | simple root => exact ⟨root, [], rfl⟩
    | indirect root leafNodes => exact ⟨root, leafNodes, rfl⟩
  have willing : Willing quiet fun _ => True :=
    ⟨fun _ _ _ => ⟨_, _, rfl, trivial⟩, fun _ _ _ _ => ⟨_, rfl, trivial⟩, fun _ _ _ => ⟨_, rfl, trivial⟩⟩
  obtain ⟨now, _, flushes, -⟩ := @Willing.flush _ _ _ _ willing () _ _ _ 0 Cid.undef (fun _ => True) made
    (fun _ _ _ => ⟨(), rfl, trivial⟩) trivial
  refine ⟨root, leafNodes, _, length, flushes, made, maxDepth_shardPin layout lists .., ?_⟩
  by_contra covered
  push Not at covered
  have few := (within_one_of_layout_iff layout lists nodup).mp covered
  rw [length_map, length] at few
  omega

end

/-- A map of links whose keys are the numbers below some number is made into nodes, the root first: the root has
the links itself if they fit, and otherwise its links are those of the leaves under their positions. Following
them in the order of their numbers gives the links in theirs. -/
theorem makeDAG_follows (wrapObject : DagObj → Except Error Cid) (total : ∀ obj, ∃ c, wrapObject obj = .ok c) (n : ℕ)
    (dagObj : DagObj) (keys : ∀ key, key ∈ dagObj ↔ ∃ i < n, key = decimal i) :
    ∃ root leafNodes, makeDAG wrapObject dagObj = .ok (root :: leafNodes) ∧ wrapObject root.obj = .ok root.cid ∧
      (n ≤ maxLinks → leafNodes = [] ∧ lookups root.obj = (List.range n).map fun i => dagObj.lookup (decimal i)) ∧
      (maxLinks < n →
        leafNodes.length = n / maxLinks + 1 ∧ lookups root.obj = leafNodes.map (fun leaf => some leaf.cid) ∧
          leafNodes.flatMap (fun leaf => lookups leaf.obj) =
            (List.range n).map fun i => dagObj.lookup (decimal i)) := by
  obtain ⟨links, lists, rfl⟩ := exists_lists keys
  have inputs : ((List.range links.length).map fun i => dagObj.lookup (decimal i)) = links.map some := by
    rw [← lists.lookups_eq, lookups, lists.length]
  rw [inputs]
  obtain ⟨nodes, made⟩ := makeDAG_of_total total lists
  cases makeDAG_layout lists made with
  | simple root few ofCid ofObj =>
    refine ⟨root, [], made, ofCid, fun _ => ⟨rfl, ?_⟩, fun many => absurd few (not_le.mpr many)⟩
    rw [ofObj, lists.lookups_eq]
  | indirect root leafNodes many ofCid leaves =>
    refine ⟨root, leafNodes, made, ofCid, fun few => absurd few (not_le.mpr many), fun _ => ⟨leaves.length, ?_, ?_⟩⟩
    · rw [leaves.lists.lookups_eq, map_map]
      rfl
    · exact leaves.flatMap_lookups

theorem makeDAG_follows_manyLinks :
    ∃ root leafNodes, makeDAG (fun _ => .ok ⟨"node"⟩) (shardOf ["a"] {} manyLinks).dagNode =
      .ok (root :: leafNodes) ∧ leafNodes.length = 2 := by
  have lists := lists_shardOf ["a"] {} manyLinks
  have length : (manyLinks.map (·.1)).length = maxLinks + 1 := by
    rw [manyLinks, length_map, length_map, length_range]
  obtain ⟨root, leafNodes, made, -, -, leaves⟩ := makeDAG_follows (fun _ => .ok ⟨"node"⟩) (fun _ => ⟨_, rfl⟩)
    (maxLinks + 1) _ (length ▸ lists.mem_iff)
  exact ⟨root, leafNodes, made, (leaves (Nat.lt_succ_self maxLinks)).1⟩

end IpfsCluster.Soundness
