import IpfsCluster.Proofs.Adder.Dag

/-! # What an adding session keeps

The inversions say what a step of a session that succeeds has done. From them follows what is kept between two blocks:
the links of all shards are the blocks so far, in order, sizes are accounted for, and shards are chained.
-/

namespace IpfsCluster.Proofs.Adder

open Golang Golang.Fallible Golang.Indexed List Model Model.Adder Model.Api Option

variable {stored : Bool} {last : Cid} {result : Cid × Pin} {n : Node} {shard : Shard} {retries : ℕ}

section

variable {World : Type} {rpc : Rpc World} {wrapObject : DagObj → Except Error Cid} {w w' : World}
  {dgs : DAGService} {s' : DAGService × World}

theorem flush_eq_ok {sh : Shard} {shardN : ℕ} {prev : Cid}
    (done : sh.flush rpc wrapObject shardN prev w = .ok result w') :
    ∃ root leafNodes streamed, makeDAG wrapObject sh.dagNode = .ok (root :: leafNodes) ∧
      streamNodes rpc sh.allocations (root :: leafNodes) w = .ok () streamed ∧
      result = (root.cid, sh.shardPin (root :: leafNodes) root.cid shardN prev (rpc.now streamed)) ∧
      pin rpc result.2 streamed = .ok () w' := by
  obtain ⟨nodes, _, computed, ⟨⟩, streamed, sent, done⟩ := by simpa only [Shard.flush, bind_eq_ok] using done
  obtain ⟨made, rfl⟩ := ofResult_eq_ok.mp computed
  cases nodes with
  | nil => exact (throw_ne_ok done).elim
  | cons root leafNodes =>
    obtain ⟨now, _, read, ⟨⟩, pinned, submitted, done⟩ := by simpa only [bind_eq_ok] using done
    obtain ⟨rfl, rfl⟩ := EStateM.Result.ok.inj read
    obtain ⟨rfl, rfl⟩ := pure_eq_ok.mp done
    exact ⟨root, leafNodes, streamed, made, sent, rfl, submitted⟩

def afterFlush (dgs : DAGService) (shard : Shard) (result : Cid × Pin) : DAGService :=
  { dgs with
    totalSize := dgs.totalSize + shard.currentSize
    shards := dgs.shards.insert (decimal dgs.shards.entries.length) result.1
    previousShard := result.1
    currentShard := none
    flushed := dgs.flushed ++ [(shard, result.2)] }

theorem flushCurrentShard_eq_ok (done : flushCurrentShard rpc wrapObject (dgs, w) = .ok last s') :
    ∃ shard result w', dgs.currentShard = some shard ∧
      shard.flush rpc wrapObject dgs.shards.entries.length dgs.previousShard w = .ok result w' ∧
      s' = (afterFlush dgs shard result, w') := by
  obtain ⟨_, _, read, done⟩ := bind_eq_ok.mp done
  obtain ⟨rfl, rfl⟩ := own_eq_ok.mp read
  dsimp only at done
  cases current : dgs.currentShard with
  | none =>
    rw [current] at done
    exact (throw_ne_ok done).elim
  | some shard =>
    rw [current] at done
    obtain ⟨result, _, called, ⟨⟩, _, changed, done⟩ := by simpa only [bind_eq_ok] using done
    obtain ⟨w', flushed, rfl⟩ := call_eq_ok.mp called
    obtain rfl := change_eq_ok.mp changed
    obtain ⟨-, rfl⟩ := pure_eq_ok.mp done
    exact ⟨shard, result, w', rfl, flushed, rfl⟩

theorem newShard_eq_ok {opts : PinOptions} (done : newShard rpc opts w = .ok shard w') :
    ∃ allocs, blockAllocate rpc opts w = .ok allocs w' ∧
      shard = { allocations := allocs, pinOptions := opts, sizeLimit := opts.shardSize } := by
  obtain ⟨allocs, _, allocated, done⟩ := bind_eq_ok.mp done
  split at done
  · exact (throw_ne_ok done).elim
  · obtain ⟨rfl, rfl⟩ := pure_eq_ok.mp done
    exact ⟨allocs, allocated, rfl⟩

theorem ensureShard_eq_ok (done : ensureShard rpc (dgs, w) = .ok shard s') :
    dgs.currentShard = some shard ∧ s' = (dgs, w) ∨
      dgs.currentShard = none ∧ ∃ w', newShard rpc dgs.addParams w = .ok shard w' ∧
        s' = ({ dgs with currentShard := some shard }, w') := by
  obtain ⟨_, _, read, done⟩ := bind_eq_ok.mp done
  obtain ⟨rfl, rfl⟩ := own_eq_ok.mp read
  dsimp only at done
  cases current : dgs.currentShard with
  | some found =>
    rw [current] at done
    obtain ⟨rfl, rfl⟩ := pure_eq_ok.mp done
    exact .inl ⟨rfl, rfl⟩
  | none =>
    rw [current] at done
    obtain ⟨made, _, called, ⟨⟩, _, changed, done⟩ := by simpa only [bind_eq_ok] using done
    obtain ⟨w', created, rfl⟩ := call_eq_ok.mp called
    obtain rfl := change_eq_ok.mp changed
    obtain ⟨rfl, rfl⟩ := pure_eq_ok.mp done
    exact .inr ⟨rfl, w', created, rfl⟩

variable {s : DAGService × World}

theorem tryIngest_eq_ok (done : tryIngest rpc wrapObject n s = .ok stored s') :
    ∃ shard ready, ensureShard rpc s = .ok shard ready ∧
      ((stored = true ∧ shard.currentSize + BitVec.ofNat 64 n.size < shard.sizeLimit ∧
        ∃ w', rpc.sendBlock shard.allocations n.cid ready.2 = .ok () w' ∧
          s' = ({ ready.1 with currentShard := some (shard.addLink n.cid (BitVec.ofNat 64 n.size)) }, w')) ∨
      stored = false ∧ shard.currentSize ≠ 0 ∧ ∃ last, flushCurrentShard rpc wrapObject ready = .ok last s') := by
  obtain ⟨shard, ready, ensured, done⟩ := bind_eq_ok.mp done
  refine ⟨shard, ready, ensured, ?_⟩
  split at done
  next fits =>
    obtain ⟨⟨⟩, _, changed, ⟨⟩, _, called, done⟩ := by simpa only [bind_eq_ok] using done
    obtain rfl := change_eq_ok.mp changed
    obtain ⟨w', sent, rfl⟩ := call_eq_ok.mp called
    obtain ⟨rfl, rfl⟩ := pure_eq_ok.mp done
    exact .inl ⟨rfl, fits, w', sent, rfl⟩
  · split at done
    · exact (throw_ne_ok done).elim
    next nonempty =>
      obtain ⟨last, _, flushed, done⟩ := bind_eq_ok.mp done
      obtain ⟨rfl, rfl⟩ := pure_eq_ok.mp done
      exact .inr ⟨rfl, nonempty, last, flushed⟩

theorem ingestBlock_eq_ok (done : ingestBlock rpc wrapObject retries n s = some (.ok () s')) :
    tryIngest rpc wrapObject n s = .ok true s' ∨ ∃ fewer next, retries = fewer + 1 ∧
      tryIngest rpc wrapObject n s = .ok false next ∧ ingestBlock rpc wrapObject fewer n next = some (.ok () s') := by
  rw [ingestBlock.eq_def] at done
  cases ingested : tryIngest rpc wrapObject n s with
  | error err next => simp [ingested] at done
  | ok stored next =>
    rw [ingested] at done
    cases stored with
    | true =>
      obtain rfl : next = s' := by simpa using done
      exact .inl rfl
    | false =>
      cases retries with
      | zero => cases done
      | succ fewer => exact .inr ⟨fewer, next, rfl, rfl, done⟩

theorem stored_of_ingestBlock (inv : DAGService × World → Prop)
    (keeps : ∀ s next, inv s → tryIngest rpc wrapObject n s = .ok false next → inv next) (holds : inv s)
    (done : ingestBlock rpc wrapObject retries n s = some (.ok () s')) :
    ∃ last, inv last ∧ tryIngest rpc wrapObject n last = .ok true s' := by
  induction retries generalizing s with
  | zero =>
    rcases ingestBlock_eq_ok done with stored | ⟨_, _, more, -⟩
    · exact ⟨s, holds, stored⟩
    · omega
  | succ retries ih =>
    rcases ingestBlock_eq_ok done with stored | ⟨fewer, next, same, flushed, later⟩
    · exact ⟨s, holds, stored⟩
    · obtain rfl : retries = fewer := by omega
      exact ih (keeps s next holds flushed) later

theorem add_eq_ok (done : add rpc wrapObject retries n (dgs, w) = some (.ok () s')) :
    n.cid ∈ dgs.addedSet ∧ s' = (dgs, w) ∨ n.cid ∉ dgs.addedSet ∧ ingestBlock rpc wrapObject retries n
        ({ dgs with addedSet := n.cid :: dgs.addedSet }, w) = some (.ok () s') := by
  rw [add] at done
  split at done
  next before =>
    obtain rfl : (dgs, w) = s' := by simpa using done
    exact .inl ⟨before, rfl⟩
  next new => exact .inr ⟨new, done⟩

theorem addMany_cons_eq_ok {rest : List Node} (done : addMany rpc wrapObject retries (n :: rest) s = some (.ok () s')) :
    ∃ next, add rpc wrapObject retries n s = some (.ok () next) ∧
      addMany rpc wrapObject retries rest next = some (.ok () s') := by
  rw [addMany] at done
  split at done
  next next added => exact ⟨next, added, done⟩
  next failed => exact (failed s' done).elim

theorem finalize_eq_ok {dataRoot result : Cid} (done : finalize rpc wrapObject dataRoot (dgs, w) = .ok result s') :
    ∃ last flushed root leafNodes streamed pinned, flushCurrentShard rpc wrapObject (dgs, w) = .ok last flushed ∧
      makeDAG wrapObject flushed.1.shards = .ok (root :: leafNodes) ∧
      streamNodes rpc [""] (root :: leafNodes) flushed.2 = .ok () streamed ∧
      pin rpc (clusterDAGPin flushed.1.addParams root.cid dataRoot (rpc.now streamed)) streamed = .ok () pinned ∧
      pin rpc (metaPin flushed.1.addParams root.cid dataRoot (rpc.now pinned)) pinned = .ok () s'.2 ∧
      s'.1 = flushed.1 := by
  obtain ⟨last, flushed, flushes, _, _, read, nodes, _, computed, ⟨⟩, _, called, done⟩ := by
    simpa only [finalize, bind_eq_ok] using done
  obtain ⟨rfl, rfl⟩ := own_eq_ok.mp read
  obtain ⟨made, rfl⟩ := ofResult_eq_ok.mp computed
  obtain ⟨streamed, sent, rfl⟩ := call_eq_ok.mp called
  cases nodes with
  | nil => exact (throw_ne_ok done).elim
  | cons root leafNodes =>
    obtain ⟨_, _, readNow, ⟨⟩, _, calledDag, _, _, readLater, ⟨⟩, _, calledMeta, done⟩ := by
      simpa only [bind_eq_ok] using done
    obtain ⟨_, clock, rfl⟩ := call_eq_ok.mp readNow
    obtain ⟨rfl, rfl⟩ := EStateM.Result.ok.inj clock
    obtain ⟨pinned, pinnedDag, rfl⟩ := call_eq_ok.mp calledDag
    obtain ⟨_, clockLater, rfl⟩ := call_eq_ok.mp readLater
    obtain ⟨rfl, rfl⟩ := EStateM.Result.ok.inj clockLater
    obtain ⟨last', pinnedMeta, rfl⟩ := call_eq_ok.mp calledMeta
    obtain ⟨-, rfl⟩ := pure_eq_ok.mp done
    exact ⟨last, flushed, root, leafNodes, streamed, pinned, flushes, made, sent, pinnedDag, pinnedMeta, rfl⟩

/-- The calls other than pinning succeed and keep a property of the world. -/
structure Willing (rpc : Rpc World) (P : World → Prop) : Prop where
  blockAllocate : ∀ pin w, P w → ∃ allocs w', rpc.blockAllocate pin w = .ok allocs w' ∧ P w'
  sendBlock : ∀ dests c w, P w → ∃ w', rpc.sendBlock dests c w = .ok () w' ∧ P w'
  finishStream : ∀ dests w, P w → ∃ w', rpc.finishStream dests w = .ok () w' ∧ P w'

variable {rpc : Rpc World} {wrapObject : DagObj → Except Error Cid} {P : World → Prop} (willing : Willing rpc P)
  {w : World}

include willing

theorem Willing.streamNodes (dests : List PeerID) (nodes : List CborNode) (here : P w) :
    ∃ w', streamNodes rpc dests nodes w = .ok () w' ∧ P w' := by
  obtain ⟨mid, sent, keptSent⟩ := ok_of_forM nodes (fun n w here => willing.sendBlock dests n.cid w here) here
  obtain ⟨last, finished, keptLast⟩ := willing.finishStream dests mid keptSent
  exact ⟨last, bind_eq_ok.mpr ⟨(), mid, sent, finished⟩, keptLast⟩

variable {leafNodes : List CborNode}

theorem Willing.flush {sh : Shard} {root : CborNode} {shardN : ℕ} {prev : Cid} {Q : World → Prop}
    (made : makeDAG wrapObject sh.dagNode = .ok (root :: leafNodes)) (pins : ∀ now w, P w →
      ∃ w', pin rpc (sh.shardPin (root :: leafNodes) root.cid shardN prev now) w = .ok () w' ∧ Q w') (here : P w) :
    ∃ now w', sh.flush rpc wrapObject shardN prev w =
      .ok (root.cid, sh.shardPin (root :: leafNodes) root.cid shardN prev now) w' ∧ Q w' := by
  obtain ⟨streamed, sent, kept⟩ := willing.streamNodes sh.allocations (root :: leafNodes) here
  obtain ⟨last, pinned, done⟩ := pins (rpc.now streamed) streamed kept
  refine ⟨rpc.now streamed, last, ?_, done⟩
  refine bind_eq_ok.mpr ⟨_, w, ofResult_eq_ok.mpr ⟨made, rfl⟩, bind_eq_ok.mpr ⟨(), streamed, sent, ?_⟩⟩
  exact bind_eq_ok.mpr ⟨_, streamed, rfl, bind_eq_ok.mpr ⟨(), last, pinned, rfl⟩⟩

omit willing

variable {dgs : DAGService} {shard : Shard} {w' : World}

theorem flushCurrentShard_of_flush (current : dgs.currentShard = some shard)
    (flushes : shard.flush rpc wrapObject dgs.shards.entries.length dgs.previousShard w = .ok result w') :
    flushCurrentShard rpc wrapObject (dgs, w) = .ok shard.lastLink (afterFlush dgs shard result, w') := by
  refine bind_eq_ok.mpr ⟨dgs, (dgs, w), rfl, ?_⟩
  rw [current]
  exact bind_eq_ok.mpr ⟨result, (dgs, w'), call_eq_ok.mpr ⟨w', flushes, rfl⟩, rfl⟩

theorem tryIngest_of_full {s' : DAGService × World} (current : dgs.currentShard = some shard)
    (full : ¬ shard.currentSize + BitVec.ofNat 64 n.size < shard.sizeLimit) (nonempty : shard.currentSize ≠ 0)
    (flushes : flushCurrentShard rpc wrapObject (dgs, w) = .ok last s') :
    tryIngest rpc wrapObject n (dgs, w) = .ok false s' := by
  have ensured : ensureShard rpc (dgs, w) = .ok shard (dgs, w) := by
    refine bind_eq_ok.mpr ⟨dgs, (dgs, w), rfl, ?_⟩
    rw [current]
    rfl
  refine bind_eq_ok.mpr ⟨shard, (dgs, w), ensured, ?_⟩
  rw [if_neg full, if_neg nonempty]
  exact bind_eq_ok.mpr ⟨last, s', flushes, rfl⟩

theorem tryIngest_of_new {last : World} (fresh : dgs.currentShard = none)
    (creates : newShard rpc dgs.addParams w = .ok shard w')
    (fits : shard.currentSize + BitVec.ofNat 64 n.size < shard.sizeLimit)
    (sends : rpc.sendBlock shard.allocations n.cid w' = .ok () last) : tryIngest rpc wrapObject n (dgs, w) =
      .ok true ({ dgs with currentShard := some (shard.addLink n.cid (BitVec.ofNat 64 n.size)) }, last) := by
  have ensured : ensureShard rpc (dgs, w) = .ok shard ({ dgs with currentShard := some shard }, w') := by
    refine bind_eq_ok.mpr ⟨dgs, (dgs, w), rfl, ?_⟩
    rw [fresh]
    exact bind_eq_ok.mpr ⟨shard, (dgs, w'), call_eq_ok.mpr ⟨w', creates, rfl⟩, rfl⟩
  refine bind_eq_ok.mpr ⟨shard, _, ensured, ?_⟩
  rw [if_pos fits]
  exact bind_eq_ok.mpr ⟨(), _, rfl, bind_eq_ok.mpr ⟨(), _, call_eq_ok.mpr ⟨last, sends, rfl⟩, rfl⟩⟩

theorem finalize_of_pins {s flushed : DAGService × World} {dataRoot : Cid} {root : CborNode} {streamed pinned : World}
    (flushes : flushCurrentShard rpc wrapObject s = .ok last flushed)
    (made : makeDAG wrapObject flushed.1.shards = .ok (root :: leafNodes))
    (sends : streamNodes rpc [""] (root :: leafNodes) flushed.2 = .ok () streamed)
    (pinsDag : pin rpc (clusterDAGPin flushed.1.addParams root.cid dataRoot (rpc.now streamed)) streamed =
      .ok () pinned)
    (pinsMeta : pin rpc (metaPin flushed.1.addParams root.cid dataRoot (rpc.now pinned)) pinned = .ok () w') :
    finalize rpc wrapObject dataRoot s = .ok dataRoot (flushed.1, w') := by
  refine bind_eq_ok.mpr ⟨last, flushed, flushes, bind_eq_ok.mpr ⟨flushed.1, flushed, rfl, ?_⟩⟩
  refine bind_eq_ok.mpr ⟨_, flushed, ofResult_eq_ok.mpr ⟨made, rfl⟩, ?_⟩
  refine bind_eq_ok.mpr ⟨(), _, call_eq_ok.mpr ⟨streamed, sends, rfl⟩, bind_eq_ok.mpr ⟨_, _, rfl, ?_⟩⟩
  refine bind_eq_ok.mpr ⟨(), _, call_eq_ok.mpr ⟨pinned, pinsDag, rfl⟩, bind_eq_ok.mpr ⟨_, _, rfl, ?_⟩⟩
  exact bind_eq_ok.mpr ⟨(), _, call_eq_ok.mpr ⟨w', pinsMeta, rfl⟩, rfl⟩

end

section

variable {World : Type} {rpc : Rpc World} {wrapObject : DagObj → Except Error Cid}

theorem tryIngest_of_none {dgs : DAGService} {w : World} {s' : DAGService × World} (fresh : dgs.currentShard = none)
    (done : tryIngest rpc wrapObject n (dgs, w) = .ok stored s') : stored = true := by
  obtain ⟨shard, ready, ensured, ⟨isStored, -⟩ | ⟨-, nonempty, -⟩⟩ := tryIngest_eq_ok done
  · exact isStored
  · rcases ensureShard_eq_ok ensured with ⟨current, -⟩ | ⟨-, w', created, -⟩
    · rw [fresh] at current
      cases current
    · obtain ⟨allocs, -, rfl⟩ := newShard_eq_ok created
      exact (nonempty rfl).elim

theorem currentShard_of_flushed {s s' : DAGService × World} (done : tryIngest rpc wrapObject n s = .ok false s') :
    s'.1.currentShard = none := by
  obtain ⟨shard, ready, -, ⟨isStored, -⟩ | ⟨-, -, last, flushed⟩⟩ := tryIngest_eq_ok done
  · cases isStored
  · obtain ⟨_, _, _, -, -, rfl⟩ := flushCurrentShard_eq_ok flushed
    rfl

theorem ingestBlock_retries (retries : ℕ) (n : Node) (s : DAGService × World) :
    ingestBlock rpc wrapObject (retries + 1) n s = ingestBlock rpc wrapObject 1 n s ∧
      ingestBlock rpc wrapObject 1 n s ≠ none := by
  rw [ingestBlock, ingestBlock]
  cases first : tryIngest rpc wrapObject n s with
  | error err next => exact ⟨rfl, some_ne_none _⟩
  | ok stored next =>
    cases stored with
    | true => exact ⟨rfl, some_ne_none _⟩
    | false =>
      have fresh := currentShard_of_flushed first
      dsimp only
      rw [ingestBlock, ingestBlock]
      cases second : tryIngest rpc wrapObject n next with
      | error err last => exact ⟨rfl, some_ne_none _⟩
      | ok stored last =>
        obtain rfl := tryIngest_of_none fresh second
        exact ⟨rfl, some_ne_none _⟩

end

section

def bytesOf (sizeOf : Cid → ℕ) (cids : List Cid) : ℕ := (cids.map sizeOf).sum

theorem bytesOf_append (sizeOf : Cid → ℕ) (cids later : List Cid) :
    bytesOf sizeOf (cids ++ later) = bytesOf sizeOf cids + bytesOf sizeOf later := by
  rw [bytesOf, map_append, sum_append]
  rfl

variable {sizeOf : Cid → ℕ} {limit : BitVec 64}

/-- A shard holds its links in order and counts their bytes, which are below the limit. -/
structure Built (sizeOf : Cid → ℕ) (limit : BitVec 64) (shard : Shard) : Prop where
  lists : Lists shard.dagNode shard.links
  size : shard.currentSize = BitVec.ofNat 64 (bytesOf sizeOf shard.links)
  sizeLimit : shard.sizeLimit = limit
  below : shard.links ≠ [] → shard.currentSize < limit

theorem built_new (allocs : List PeerID) (opts : PinOptions) :
    Built sizeOf opts.shardSize { allocations := allocs, pinOptions := opts, sizeLimit := opts.shardSize } where
  lists := lists_empty
  size := rfl
  sizeLimit := rfl
  below := fun nonempty => (nonempty rfl).elim

theorem links_addLink (lists : Lists shard.dagNode shard.links) (c : Cid) (size : BitVec 64) :
    (shard.addLink c size).links = shard.links ++ [c] :=
  (lists.push c).toList_eq

theorem Built.addLink (built : Built sizeOf limit shard) (n : Node) (isSize : sizeOf n.cid = n.size)
    (fits : shard.currentSize + BitVec.ofNat 64 n.size < shard.sizeLimit) :
    Built sizeOf limit (shard.addLink n.cid (BitVec.ofNat 64 n.size)) := by
  have links := links_addLink built.lists n.cid (BitVec.ofNat 64 n.size)
  refine ⟨?_, ?_, built.sizeLimit, fun _ => built.sizeLimit ▸ fits⟩
  · rw [links]
    exact built.lists.push n.cid
  · rw [links, bytesOf_append, BitVec.ofNat_add, ← built.size]
    change shard.currentSize + BitVec.ofNat 64 n.size = shard.currentSize + BitVec.ofNat 64 (sizeOf n.cid + 0)
    rw [isSize, Nat.add_zero]

def currentLinks (dgs : DAGService) : List Cid := dgs.currentShard.elim [] Shard.links

/-- What holds of a session between two blocks, after the given ones were put into shards. -/
structure Accounted (sizeOf : Cid → ℕ) (limit : BitVec 64) (cids : List Cid) (dgs : DAGService) : Prop where
  current : ∀ shard, dgs.currentShard = some shard → Built sizeOf limit shard ∧ shard.links ≠ []
  flushed : ∀ entry ∈ dgs.flushed, Built sizeOf limit entry.1 ∧ entry.1.links ≠ []
  links : dgs.flushed.flatMap (·.1.links) ++ currentLinks dgs = cids
  keys : Lists dgs.shards (dgs.flushed.map (·.2.cid))
  references : ∀ (k : ℕ) (entry : Shard × Pin), dgs.flushed[k]? = some entry →
    entry.2.reference = (Cid.undef :: dgs.flushed.map (·.2.cid))[k]?
  previous : (Cid.undef :: dgs.flushed.map (·.2.cid))[dgs.flushed.length]? = some dgs.previousShard
  total : dgs.totalSize = BitVec.ofNat 64 (bytesOf sizeOf (dgs.flushed.flatMap (·.1.links)))
  limit : dgs.addParams.shardSize = limit

theorem accounted_new (opts : PinOptions) : Accounted sizeOf opts.shardSize [] (.new opts) where
  current := fun _ none => nomatch none
  flushed := fun _ none => nomatch none
  links := rfl
  keys := lists_empty
  references := fun _ _ none => nomatch none
  previous := rfl
  total := rfl
  limit := rfl

variable {World : Type} {rpc : Rpc World} {wrapObject : DagObj → Except Error Cid} {w w' : World}
  {dgs : DAGService} {cids : List Cid}

section

variable (accounted : Accounted sizeOf limit cids dgs)

include accounted

theorem Accounted.flush (current : dgs.currentShard = some shard)
    (done : shard.flush rpc wrapObject dgs.shards.entries.length dgs.previousShard w = .ok result w') :
    Accounted sizeOf limit cids (afterFlush dgs shard result) := by
  obtain ⟨root, leafNodes, streamed, -, -, rfl, -⟩ := flush_eq_ok done
  obtain ⟨built, nonempty⟩ := accounted.current shard current
  have links := accounted.links
  rw [currentLinks, current] at links
  refine ⟨fun _ none => (nomatch none), ?_, ?_, ?_, ?_, ?_, ?_, accounted.limit⟩
  · intro entry member
    rcases mem_append.mp member with before | new
    · exact accounted.flushed entry before
    · obtain rfl := mem_singleton.mp new
      exact ⟨built, nonempty⟩
  · simpa only [afterFlush, currentLinks, flatMap_append, flatMap_singleton, elim_none,
      elim_some, append_nil] using links
  · rw [afterFlush, map_append]
    exact accounted.keys.push root.cid
  · intro k entry found
    simp only [afterFlush, map_append, map_singleton, ← cons_append] at found ⊢
    rcases Nat.lt_or_ge k dgs.flushed.length with before | last
    · rw [getElem?_append_left before] at found
      rw [getElem?_append_left (by simp only [length_cons, length_map]; omega)]
      exact accounted.references k entry found
    · rw [getElem?_append_right last] at found
      obtain ⟨bound, rfl⟩ := List.getElem?_eq_some_iff.mp found
      rw [length_singleton] at bound
      obtain rfl : k = dgs.flushed.length := by omega
      rw [getElem?_append_left (by simp only [length_cons, length_map]; omega), accounted.previous]
      simp only [Nat.sub_self, getElem_cons_zero]
      rfl
  · simp [afterFlush]
    rfl
  · simp [afterFlush, bytesOf_append, BitVec.ofNat_add, ← accounted.total, ← built.size]

variable {s' : DAGService × World}

theorem flushCurrentShard_accounted (done : flushCurrentShard rpc wrapObject (dgs, w) = .ok last s') :
    Accounted sizeOf limit cids s'.1 ∧ s'.1.addedSet = dgs.addedSet := by
  obtain ⟨shard, result, w', current, flushed, rfl⟩ := flushCurrentShard_eq_ok done
  exact ⟨accounted.flush current flushed, rfl⟩

theorem Accounted.addLink (built : Built sizeOf limit shard) (sameLinks : shard.links = currentLinks dgs) (n : Node)
    (isSize : sizeOf n.cid = n.size) (fits : shard.currentSize + BitVec.ofNat 64 n.size < shard.sizeLimit) :
    Accounted sizeOf limit (cids ++ [n.cid])
      { dgs with currentShard := some (shard.addLink n.cid (BitVec.ofNat 64 n.size)) } := by
  have links := links_addLink built.lists n.cid (BitVec.ofNat 64 n.size)
  refine { accounted with current := ?_, links := ?_ }
  · intro _ same
    cases same
    exact ⟨built.addLink n isSize fits, by simp only [links, ne_eq, append_eq_nil_iff, cons_ne_nil, and_false,
      not_false_eq_true]⟩
  · rw [currentLinks, elim_some, links, sameLinks, ← append_assoc, accounted.links]

theorem tryIngest_accounted (isSize : sizeOf n.cid = n.size) (done : tryIngest rpc wrapObject n (dgs, w) = .ok stored s') :
    Accounted sizeOf limit (if stored then cids ++ [n.cid] else cids) s'.1 ∧ s'.1.addedSet = dgs.addedSet := by
  obtain ⟨shard, ready, ensured, stores | ⟨rfl, nonempty, last, flushed⟩⟩ := tryIngest_eq_ok done
  · obtain ⟨rfl, fits, w', -, rfl⟩ := stores
    rcases ensureShard_eq_ok ensured with ⟨current, rfl⟩ | ⟨current, w', created, rfl⟩
    · have sameLinks : shard.links = currentLinks dgs := by rw [currentLinks, current, elim_some]
      exact ⟨accounted.addLink (accounted.current shard current).1 sameLinks n isSize fits, rfl⟩
    · obtain ⟨allocs, -, rfl⟩ := newShard_eq_ok created
      have built := @built_new sizeOf allocs dgs.addParams
      refine ⟨accounted.addLink (accounted.limit ▸ built) ?_ n isSize fits, rfl⟩
      rw [currentLinks, current]
      rfl
  · rcases ensureShard_eq_ok ensured with ⟨current, rfl⟩ | ⟨-, w', created, -⟩
    · exact flushCurrentShard_accounted accounted flushed
    · obtain ⟨allocs, -, rfl⟩ := newShard_eq_ok created
      exact (nonempty rfl).elim

end

theorem ingestBlock_accounted (retries : ℕ) (accounted : Accounted sizeOf limit cids dgs)
    (isSize : sizeOf n.cid = n.size) (done : ingestBlock rpc wrapObject retries n (dgs, w) = some (.ok () s')) :
    Accounted sizeOf limit (cids ++ [n.cid]) s'.1 ∧ s'.1.addedSet = dgs.addedSet := by
  obtain ⟨⟨last, w'⟩, ⟨accountedLast, addedLast⟩, stored⟩ := stored_of_ingestBlock
    (fun s => Accounted sizeOf limit cids s.1 ∧ s.1.addedSet = dgs.addedSet)
    (fun s next kept flushed =>
      have further := tryIngest_accounted kept.1 isSize flushed
      ⟨further.1, further.2.trans kept.2⟩) ⟨accounted, rfl⟩ done
  obtain ⟨accounted', added⟩ := tryIngest_accounted accountedLast isSize stored
  exact ⟨accounted', added.trans addedLast⟩

private theorem eraseDups_append_singleton (items : List Cid) (item : Cid) :
    (items ++ [item]).eraseDups = if item ∈ items then items.eraseDups else items.eraseDups ++ [item] := by
  rw [eraseDups_append, List.removeAll]
  split
  next before => simp [before]
  next new =>
    simp only [elem_eq_mem, new, decide_false, Bool.not_false, filter_cons_of_pos, filter_nil]
    rfl

theorem addMany_accounted {seen nodes : List Node} {s : DAGService × World}
    (accounted : Accounted sizeOf limit (seen.map (·.cid)).eraseDups s.1)
    (added : ∀ c, c ∈ s.1.addedSet ↔ c ∈ seen.map (·.cid))
    (sizes : ∀ before n after, nodes = before ++ n :: after → n.cid ∉ (seen ++ before).map (·.cid) →
      sizeOf n.cid = n.size) (done : addMany rpc wrapObject retries nodes s = some (.ok () s')) :
    Accounted sizeOf limit ((seen ++ nodes).map (·.cid)).eraseDups s'.1 := by
  induction nodes generalizing seen s with
  | nil =>
    obtain rfl : s = s' := by simpa [addMany] using done
    rwa [append_nil]
  | cons n rest ih =>
    obtain ⟨next, first, later⟩ := addMany_cons_eq_ok done
    have split : seen ++ n :: rest = (seen ++ [n]) ++ rest := (append_cons ..)
    have distinct := eraseDups_append_singleton (seen.map (·.cid)) n.cid
    rw [← map_singleton, ← map_append] at distinct
    have sizesRest (before : List Node) (m : Node) (after : List Node) (isRest : rest = before ++ m :: after)
        (new : m.cid ∉ (seen ++ [n] ++ before).map (·.cid)) : sizeOf m.cid = m.size := by
      refine sizes (n :: before) m after (by rw [isRest, cons_append]) ?_
      rwa [append_cons]
    rw [split]
    rcases add_eq_ok first with ⟨before, rfl⟩ | ⟨new, ingested⟩
    · rw [added] at before
      rw [if_pos before] at distinct
      refine ih (distinct ▸ accounted) (fun c => ?_) sizesRest later
      rw [added, map_append, mem_append, map_singleton, mem_singleton]
      exact ⟨.inl, fun member => member.elim id fun same => same ▸ before⟩
    · rw [added] at new
      rw [if_neg new] at distinct
      have isSize : sizeOf n.cid = n.size := sizes [] n rest rfl (by rwa [append_nil])
      have accountedAdded : Accounted sizeOf limit (seen.map (·.cid)).eraseDups
          { s.1 with addedSet := n.cid :: s.1.addedSet } := { accounted with }
      obtain ⟨accountedNext, addedNext⟩ := ingestBlock_accounted retries accountedAdded isSize ingested
      refine ih (distinct ▸ accountedNext) (fun c => ?_) sizesRest later
      rw [addedNext, mem_cons, added, map_append, mem_append, map_singleton, mem_singleton, or_comm]

end

end IpfsCluster.Proofs.Adder
