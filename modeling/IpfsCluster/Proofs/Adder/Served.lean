import IpfsCluster.Proofs.Adder.Sharding
import IpfsCluster.Proofs.Cluster.Operations

/-! # Sessions that are served by a cluster

The pins of an adding session are made by a peer of the cluster on the shared pinset, and the other calls leave the
pinset alone. So at the end all shards, the clusterDAG and the content are pinned with their own types.
-/

namespace IpfsCluster.Proofs.Adder

open Model Model.Api Model.Adder Golang Golang.Indexed Golang.Fallible Proofs.Api Proofs.Cluster PinType

/-- The calls of the adder are served by a peer. Reading the state never answers that a pin is not found. -/
structure ServedBy {World : Type} (rpc : Rpc World) (c : Cluster) (pinset : World → Consensus) : Prop where
  blockAllocate : ∀ {object w allocs w'}, rpc.blockAllocate object w = .ok allocs w' →
    (pinset w').state = (pinset w).state
  sendBlock : ∀ {dests block w w'}, rpc.sendBlock dests block w = .ok () w' → (pinset w').state = (pinset w).state
  finishStream : ∀ {dests w w'}, rpc.finishStream dests w = .ok () w' → (pinset w').state = (pinset w).state
  pin : ∀ {object w w'}, rpc.pin object w = .ok () w' →
    ∃ order now, (c.pin order now (pinset w) object []).1.2.2 = none ∧
      (pinset w').state = (c.pin order now (pinset w) object []).2.state
  reads : ∀ w, (pinset w).call.1 ≠ some .notFound

section

variable {World : Type} {rpc : Rpc World} {wrapObject : DagObj → Except Error Cid} {c : Cluster}
  {pinset : World → Consensus} (served : ServedBy rpc c pinset) {w w' : World}

include served

theorem ServedBy.streamNodes {dests : List PeerID} {nodes : List CborNode}
    (done : streamNodes rpc dests nodes w = .ok () w') : (pinset w').state = (pinset w).state := by
  obtain ⟨_, mid, sent, finished⟩ := bind_eq_ok.mp done
  have step (n : CborNode) (before after : World) (kept : (pinset before).state = (pinset w).state)
      (sent : rpc.sendBlock dests n.cid before = .ok () after) : (pinset after).state = (pinset w).state :=
    (served.sendBlock sent).trans kept
  have same := keeps_of_forM nodes step rfl sent
  exact (served.finishStream finished).trans same

theorem ServedBy.accepted {object : Pin} (noUpdate : object.pinUpdate.defined = false)
    (done : Model.Adder.pin rpc object w = .ok () w') :
    ∃ allocs now ready stored, (allocs = [] ∨ allocs = object.allocations) ∧
      Accepted c now (pinset w) { object with allocations := allocs } ready stored ∧
      (pinset w').state = (pinset w).state.add stored := by
  have submitted : ∃ allocs, (allocs = [] ∨ allocs = object.allocations) ∧
      rpc.pin { object with allocations := allocs } w = .ok () w' := by
    unfold Model.Adder.pin at done
    split at done
    · exact ⟨[], .inl rfl, done⟩
    · exact ⟨object.allocations, .inr rfl, done⟩
  obtain ⟨allocs, which, pinned⟩ := submitted
  obtain ⟨order, now, succeeded, state⟩ := served.pin pinned
  rcases pin_outcome c order now (pinset w) { object with allocations := allocs } [] with ⟨failed, -⟩ | ⟨-, effect⟩
  · exact (failed succeeded).elim
  · rw [if_neg (by simp [noUpdate])] at effect
    obtain ⟨ready, stored, accepted, added⟩ := effect
    exact ⟨allocs, now, ready, stored, which, accepted, state.trans added⟩

def Retains (before after : DsState) : Prop := ∀ x type, StoredAs before x type → StoredAs after x type

theorem ServedBy.retains {object : Pin} (noUpdate : object.pinUpdate.defined = false) (known : KnownType object.type)
    (done : Model.Adder.pin rpc object w = .ok () w') :
    StoredAs (pinset w').state object.cid object.type ∧ Retains (pinset w).state (pinset w').state := by
  obtain ⟨allocs, now, ready, stored, -, accepted, state⟩ := served.accepted noUpdate done
  rw [state]
  exact ⟨accepted.storedAs known, fun x type before => accepted.keeps known (served.reads w) before⟩

theorem ServedBy.flush {sh : Shard} {shardN : ℕ} {prev : Cid} {result : Cid × Pin}
    (noUpdate : sh.pinOptions.pinUpdate.defined = false)
    (done : sh.flush rpc wrapObject shardN prev w = .ok result w') :
    StoredAs (pinset w').state result.2.cid shardType ∧ Retains (pinset w).state (pinset w').state := by
  obtain ⟨root, leafNodes, streamed, -, sent, rfl, pinned⟩ := flush_eq_ok done
  obtain ⟨stored, retains⟩ := served.retains noUpdate (.inr (.inr (.inr rfl))) pinned
  rw [served.streamNodes sent] at retains
  exact ⟨stored, retains⟩

/-- Between two blocks, the shards that were flushed are pinned as such. -/
structure ShardsPinned (params : PinOptions) (pinset : World → Consensus) (s : DAGService × World) : Prop where
  options : s.1.addParams = params
  current : ∀ shard, s.1.currentShard = some shard → shard.pinOptions = params
  shards : ∀ entry ∈ s.1.flushed, StoredAs (pinset s.2).state entry.2.cid shardType

section

variable {params : PinOptions} (noUpdate : params.pinUpdate.defined = false) {s s' : DAGService × World}
  (pinned : ShardsPinned params pinset s)

include pinned

theorem ensureShard_pinned {shard : Shard} (done : ensureShard rpc s = .ok shard s') :
    ShardsPinned params pinset s' ∧ shard.pinOptions = params := by
  rcases ensureShard_eq_ok done with ⟨current, rfl⟩ | ⟨-, w', created, rfl⟩
  · exact ⟨pinned, pinned.current shard current⟩
  · obtain ⟨allocs, allocated, rfl⟩ := newShard_eq_ok created
    obtain ⟨_, _, clock, answered⟩ := bind_eq_ok.mp allocated
    obtain ⟨rfl, rfl⟩ := EStateM.Result.ok.inj clock
    refine ⟨⟨pinned.options, ?_, ?_⟩, pinned.options⟩
    · rintro shard same
      cases same
      exact pinned.options
    · rw [served.blockAllocate answered]
      exact pinned.shards

include noUpdate

theorem flushCurrentShard_pinned {last : Cid} (done : flushCurrentShard rpc wrapObject s = .ok last s') :
    ShardsPinned params pinset s' := by
  obtain ⟨shard, result, w', current, flushed, rfl⟩ := flushCurrentShard_eq_ok done
  obtain ⟨stored, retains⟩ := served.flush (pinned.current shard current ▸ noUpdate) flushed
  refine ⟨pinned.options, fun _ none => (nomatch none), fun entry member => ?_⟩
  rcases List.mem_append.mp member with before | new
  · exact retains _ _ (pinned.shards entry before)
  · obtain rfl := List.mem_singleton.mp new
    exact stored

theorem tryIngest_pinned {n : Node} {stored : Bool} (done : tryIngest rpc wrapObject n s = .ok stored s') :
    ShardsPinned params pinset s' := by
  obtain ⟨shard, ready, ensured, ⟨-, -, w', sent, rfl⟩ | ⟨-, -, last, flushed⟩⟩ := tryIngest_eq_ok done
  · obtain ⟨pinnedReady, options⟩ := ensureShard_pinned served pinned ensured
    refine ⟨pinnedReady.options, ?_, ?_⟩
    · rintro shard same
      cases same
      exact options
    · rw [served.sendBlock sent]
      exact pinnedReady.shards
  · obtain ⟨pinnedReady, -⟩ := ensureShard_pinned served pinned ensured
    exact flushCurrentShard_pinned served noUpdate pinnedReady flushed

theorem ingestBlock_pinned {retries : ℕ} {n : Node} (done : ingestBlock rpc wrapObject retries n s = some (.ok () s')) :
    ShardsPinned params pinset s' := by
  obtain ⟨last, pinnedLast, stored⟩ := stored_of_ingestBlock (ShardsPinned params pinset)
    (fun _ _ kept flushed => tryIngest_pinned served noUpdate kept flushed) pinned done
  exact tryIngest_pinned served noUpdate pinnedLast stored

theorem addMany_pinned {retries : ℕ} {nodes : List Node}
    (done : addMany rpc wrapObject retries nodes s = some (.ok () s')) : ShardsPinned params pinset s' := by
  induction nodes generalizing s with
  | nil =>
    obtain rfl : s = s' := by simpa [addMany] using done
    exact pinned
  | cons n rest ih =>
    obtain ⟨next, first, later⟩ := addMany_cons_eq_ok done
    refine ih ?_ later
    rcases add_eq_ok first with ⟨-, rfl⟩ | ⟨-, ingested⟩
    · exact pinned
    · have pinnedAdded : ShardsPinned params pinset ({ s.1 with addedSet := n.cid :: s.1.addedSet }, s.2) :=
        { pinned with }
      exact ingestBlock_pinned served noUpdate pinnedAdded ingested

theorem finalize_pinned {dataRoot result : Cid} (origins : ∀ origin ∈ params.origins, origin ≠ "")
    (done : finalize rpc wrapObject dataRoot s = .ok result s') :
    ∃ root leafNodes, makeDAG wrapObject s'.1.shards = .ok (root :: leafNodes) ∧
      (∃ pin, (pinset s'.2).state.get dataRoot = .ok pin ∧ pin.type = metaType ∧ pin.reference = some root.cid) ∧
      (∃ pin, (pinset s'.2).state.get root.cid = .ok pin ∧ pin.type = clusterDAGType) ∧
      ∀ entry ∈ s'.1.flushed, StoredAs (pinset s'.2).state entry.2.cid shardType := by
  obtain ⟨last, flushed, root, leafNodes, streamed, dagDone, flushes, made, sent, pinsDag, pinsMeta, same⟩ :=
    finalize_eq_ok done
  have ended := flushCurrentShard_pinned served noUpdate pinned flushes
  rw [ended.options] at pinsDag pinsMeta
  have dagKnown : KnownType clusterDAGType := .inr (.inr (.inl rfl))
  have metaKnown : KnownType metaType := .inr (.inl rfl)
  obtain ⟨storedDag, retainsDag⟩ := served.retains noUpdate dagKnown pinsDag
  obtain ⟨storedMeta, retainsMeta⟩ := served.retains noUpdate metaKnown pinsMeta
  obtain ⟨allocs, now, ready, dagPin, which, acceptedDag, addedDag⟩ := served.accepted noUpdate pinsDag
  obtain ⟨allocs', now', ready', contentPin, which', acceptedMeta, addedMeta⟩ := served.accepted noUpdate pinsMeta
  obtain rfl : allocs = [] := which.elim id id
  obtain rfl : allocs' = [] := which'.elim id id
  have isReference {x : Cid} (isCid : x.defined = true) : some x ≠ some Cid.undef := by
    rintro undefined
    rw [Option.some.inj undefined] at isCid
    cases isCid
  refine ⟨root, leafNodes, same ▸ made, ?_, ?_, ?_⟩
  · rw [addedMeta]
    exact acceptedMeta.read metaKnown (isReference acceptedDag.isCid) (acceptedMeta.noAllocations rfl (.inl rfl)) origins
  · have other : root.cid ≠ contentPin.cid := by
      rw [acceptedMeta.cid]
      exact (retainsMeta _ _ storedDag).ne storedMeta (show clusterDAGType ≠ metaType by decide)
    obtain ⟨pin, read, isDag, -⟩ := acceptedDag.read dagKnown (isReference acceptedMeta.isCid)
      (acceptedDag.noAllocations rfl (.inr ⟨rfl, rfl⟩)) origins
    rw [addedMeta, get_add_of_ne _ other, addedDag]
    exact ⟨pin, read, isDag⟩
  · rw [same]
    intro entry member
    refine retainsMeta _ _ (retainsDag _ _ ?_)
    rw [served.streamNodes sent]
    exact ended.shards entry member

end

end

end IpfsCluster.Proofs.Adder
