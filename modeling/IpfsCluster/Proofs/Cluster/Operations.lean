import IpfsCluster.Proofs.Cluster.Pin

/-! # The operations on a pinset

Whatever happens, `Unpin` only removes pins. Another operation stores the updated copy of a data pin, or an object that
a pin request submits; what it stores is read back with its type, depth and reference, as long as these have a stored
form.
-/

namespace IpfsCluster.Proofs.Cluster

open Model Model.Api Model.Adder Golang Api Machine List Cluster PinType Consensus

def removeAll (cids : List Cid) (st : DsState) : DsState := cids.foldl DsState.rm st

theorem lookup_rm (st : DsState) (h c : Cid) :
    (st.rm h).store.lookup c = if c = h then none else st.store.lookup c := by
  split
  next same =>
    subst same
    exact AList.lookup_erase _ _
  next other => exact AList.lookup_erase_ne other

theorem lookup_removeAll (cids : List Cid) (st : DsState) (c : Cid) :
    (removeAll cids st).store.lookup c = if c ∈ cids then none else st.store.lookup c := by
  induction cids generalizing st with
  | nil => rfl
  | cons first rest ih =>
    rw [removeAll, foldl_cons, ← removeAll, ih, lookup_rm]
    by_cases later : c ∈ rest
    · rw [if_pos later, if_pos (mem_cons_of_mem _ later)]
    · simp [later]

theorem get_of_lookup_eq {st st' : DsState} {c : Cid} (same : st'.store.lookup c = st.store.lookup c) :
    st'.get c = st.get c := by
  simp only [DsState.get, same]

theorem cid_of_get {st : DsState} {h : Cid} {pin : Pin} (read : st.get h = .ok pin) : pin.cid = h := by
  obtain ⟨data, -, -, rfl⟩ := get_eq_ok_iff.mp read
  rfl

section

variable {c : Cluster} {ipfs : BlockSource} {order : MapOrder} {now : Time} {consensus : Consensus}

theorem logUnpinAll_outcome (cids : List Cid) (consensus : Consensus) : ∃ removed, removed <+: cids ∧
      (logUnpinAll now cids consensus).2.state = removeAll removed consensus.state ∧
      ((logUnpinAll now cids consensus).1 = none → removed = cids) := by
  induction cids generalizing consensus with
  | nil => exact ⟨[], prefix_rfl, rfl, fun _ => rfl⟩
  | cons ci rest ih =>
    have logged := logUnpin_outcome consensus (pinCid ci now)
    cases submitted : consensus.logUnpin (pinCid ci now) with
    | mk err next =>
      rw [submitted] at logged
      simp only [logUnpinAll, submitted]
      rcases logged with ⟨failed, unchanged⟩ | ⟨done, effect⟩
      · cases err with
        | none => exact (failed rfl).elim
        | some err => exact ⟨[], nil_prefix, unchanged, fun succeeded => (Option.some_ne_none _ succeeded).elim⟩
      · obtain rfl := done
        obtain ⟨removed, initial, state, all⟩ := ih next
        refine ⟨ci :: removed, prefix_cons_inj ci |>.mpr initial, ?_, fun succeeded => by rw [all succeeded]⟩
        rw [state, effect]
        rfl

theorem getState_state (consensus : Consensus) : consensus.getState.2.state = consensus.state := by
  have same := call_state consensus
  unfold getState
  generalize consensus.call = called at same ⊢
  obtain ⟨_ | err, next⟩ := called <;> exact same

theorem cidsFromMetaPin_state (ipfs : BlockSource) (order : MapOrder) (consensus : Consensus) (h : Cid) :
    (cidsFromMetaPin ipfs order consensus h).2.state = consensus.state := by
  have same := getState_state consensus
  unfold cidsFromMetaPin
  generalize consensus.getState = got at same ⊢
  obtain ⟨_ | cState, next⟩ := got
  · exact same
  · have again (reference : Cid) := (pinGet_state next reference).trans same
    dsimp only
    split
    · exact same
    · split
      · exact same
      · split
        · exact same
        next reference _ =>
          have here := again reference
          generalize pinGet next reference = found at here ⊢
          obtain ⟨_ | dagPin, after⟩ := found
          · exact here
          · dsimp only
            split
            · exact here
            · split <;> exact here

theorem unpinClusterDag_state (ipfs : BlockSource) (order : MapOrder) (now : Time) (consensus : Consensus)
    (metaPin : Pin) : ∃ removed, (unpinClusterDag ipfs order now consensus metaPin).2.state =
      removeAll removed consensus.state := by
  have same := cidsFromMetaPin_state ipfs order consensus metaPin.cid
  unfold unpinClusterDag
  generalize cidsFromMetaPin ipfs order consensus metaPin.cid = found at same ⊢
  obtain ⟨err | cids, next⟩ := found
  · exact ⟨[], same⟩
  · obtain ⟨removed, -, state, -⟩ := @logUnpinAll_outcome now cids next
    exact ⟨removed, state.trans (congrArg (removeAll removed) same)⟩

theorem logUnpin_state (consensus : Consensus) (pin : Pin) :
    ∃ removed, (consensus.logUnpin pin).2.state = removeAll removed consensus.state := by
  rcases logUnpin_outcome consensus pin with ⟨-, unchanged⟩ | ⟨-, effect⟩
  · exact ⟨[], unchanged⟩
  · exact ⟨[pin.cid], effect⟩

theorem unpin_state (c : Cluster) (ipfs : BlockSource) (order : MapOrder) (now : Time) (consensus : Consensus)
    (h : Cid) : ∃ removed, (c.unpin ipfs order now consensus h).2.state = removeAll removed consensus.state := by
  have same := pinGet_state consensus h
  unfold unpin
  split
  · exact ⟨[], rfl⟩
  generalize pinGet consensus h = found at same ⊢
  obtain ⟨err | pin, next⟩ := found
  · exact ⟨[], same⟩
  · rw [← same]
    dsimp only
    split_ifs
    · exact logUnpin_state next pin
    · exact ⟨[], rfl⟩
    · obtain ⟨removed, state⟩ := unpinClusterDag_state ipfs order now next pin
      generalize unpinClusterDag ipfs order now next pin = unpinned at state ⊢
      obtain ⟨_ | err, after⟩ := unpinned
      · obtain ⟨last, stateLast⟩ := logUnpin_state after pin
        refine ⟨removed ++ last, stateLast.trans ?_⟩
        rw [removeAll, removeAll, foldl_append]
        exact congrArg (last.foldl DsState.rm) state
      · exact ⟨removed, state⟩
    · exact ⟨[], rfl⟩
    · exact ⟨[], rfl⟩

theorem unpin_data {h : Cid} {pin : Pin} (stored : consensus.state.get h = .ok pin) (data : pin.type = dataType)
    (done : (c.unpin ipfs order now consensus h).1.2 = none) :
    (c.unpin ipfs order now consensus h).2.state = consensus.state.rm h := by
  have same := pinGet_state consensus h
  have read (found : Pin) := @pinGet_eq_ok h found consensus
  unfold unpin at done ⊢
  split at done
  · exact (Option.some_ne_none _ done).elim
  next writes =>
    rw [if_neg writes]
    generalize pinGet consensus h = answer at same read done ⊢
    obtain ⟨err | found, next⟩ := answer
    · exact (Option.some_ne_none _ done).elim
    · obtain rfl : found = pin := Except.ok.inj ((read found rfl).symm.trans stored)
      simp only [data, ↓reduceIte] at done ⊢
      rcases logUnpin_outcome next found with ⟨failed, -⟩ | ⟨-, effect⟩
      · exact (failed done).elim
      · rw [effect, same, cid_of_get stored]

theorem unpin_removes {h : Cid} (done : (c.unpin ipfs order now consensus h).1.2 = none) :
    (c.unpin ipfs order now consensus h).2.state.store.lookup h = none := by
  have read (found : Pin) := @pinGet_eq_ok h found consensus
  have gone (before : Consensus) {pin : Pin} (isPin : pin.cid = h) (logged : (before.logUnpin pin).1 = none) :
      (before.logUnpin pin).2.state.store.lookup h = none := by
    rcases logUnpin_outcome before pin with ⟨failed, -⟩ | ⟨-, effect⟩
    · exact (failed logged).elim
    · rw [effect, lookup_rm, if_pos isPin.symm]
  unfold unpin at done ⊢
  split at done
  · exact (Option.some_ne_none _ done).elim
  next writes =>
    rw [if_neg writes]
    generalize pinGet consensus h = answer at read done ⊢
    obtain ⟨err | pin, next⟩ := answer
    · exact (Option.some_ne_none _ done).elim
    · have isPin := cid_of_get (read pin rfl)
      dsimp only at done ⊢
      split_ifs at done ⊢
      · exact gone next isPin done
      · generalize unpinClusterDag ipfs order now next pin = unpinned at done ⊢
        obtain ⟨_ | err, after⟩ := unpinned
        · exact gone after isPin done
        · exact (Option.some_ne_none _ done).elim

/-- The calls by which a removal reads the state succeed. -/
def ReadsState (consensus ready : Consensus) : Prop :=
  ∃ first second, consensus.call = (none, first) ∧ first.call = (none, second) ∧ second.call = (none, ready)

theorem ReadsState.state {ready : Consensus} (reads : ReadsState consensus ready) : ready.state = consensus.state := by
  obtain ⟨first, second, one, two, three⟩ := reads
  have states := call_state consensus
  have states' := call_state first
  have states'' := call_state second
  rw [one] at states
  rw [two] at states'
  rw [three] at states''
  exact states''.trans (states'.trans states)

theorem Healthy.readsState (healthy : Healthy consensus) : ∃ ready, ReadsState consensus ready ∧ Healthy ready := by
  obtain ⟨first, one, -, healthyFirst⟩ := healthy.call
  obtain ⟨second, two, -, healthySecond⟩ := healthyFirst.call
  obtain ⟨third, three, -, healthyThird⟩ := healthySecond.call
  exact ⟨third, ⟨first, second, one, two, three⟩, healthyThird⟩

theorem logUnpinAll_of_failing (cids : List Cid) (st : DsState) (i : ℕ) (err : Error) (rest : List (Option Error)) :
    logUnpinAll now cids { state := st, outcomes := List.replicate i none ++ some err :: rest } =
      (if i < cids.length then some err else none,
        { state := removeAll (cids.take i) st
          outcomes := if i < cids.length then rest
            else List.replicate (i - cids.length) none ++ some err :: rest }) := by
  induction cids generalizing i st with
  | nil =>
    simp only [logUnpinAll, length_nil, Nat.not_lt_zero, ↓reduceIte, take_nil, Nat.sub_zero]
    rfl
  | cons ci later ih =>
    cases i with
    | zero => rfl
    | succ i =>
      have logged : ({ state := st, outcomes := List.replicate (i + 1) none ++ some err :: rest } : Consensus).logUnpin
          (pinCid ci now) = (none, { state := st.rm ci, outcomes := List.replicate i none ++ some err :: rest }) := rfl
      simp only [logUnpinAll, logged, ih, length_cons, Nat.add_lt_add_iff_right, take_succ_cons, Nat.add_sub_add_right]
      rfl

theorem Healthy.logUnpinAll (cids : List Cid) (healthy : Healthy consensus) :
    ∃ next, logUnpinAll now cids consensus = (none, next) ∧ next.state = removeAll cids consensus.state ∧
      Healthy next := by
  induction cids generalizing consensus with
  | nil => exact ⟨consensus, rfl, rfl, healthy⟩
  | cons ci rest ih =>
    obtain ⟨called, ofCall, same, healthyCalled⟩ := healthy.call
    have healthyRemoved : Healthy { called with state := called.state.rm ci } := healthyCalled
    obtain ⟨next, all, state, healthyNext⟩ := ih healthyRemoved
    refine ⟨next, ?_, ?_, healthyNext⟩
    · rw [logUnpinAll, logUnpin, ofCall]
      exact all
    · rw [state]
      change removeAll rest (called.state.rm ci) = removeAll rest (consensus.state.rm ci)
      rw [same]

section

variable {ready : Consensus} {h dag : Cid} {metaPin dagPin : Pin} {obj : DagObj}

/-- The CIDs that are removed for a meta pin, in the order of removal. -/
def metaCids (order : MapOrder) (obj : DagObj) (dag h : Cid) : List Cid :=
  ((order.visit [] obj.entries).map (·.2)).reverse ++ [dag, h]

theorem mem_metaCids {x : Cid} : x ∈ metaCids order obj dag h ↔ x ∈ obj.entries.map (·.2) ∨ x = dag ∨ x = h := by
  simp [metaCids, mem_reverse, MapOrder.mem_visit, not_mem_nil]

theorem unpin_of_meta {first : Consensus} (writes : c.config.followerMode = false)
    (called : consensus.call = (none, first)) (stored : consensus.state.get h = .ok metaPin)
    (isMeta : metaPin.type = metaType) : c.unpin ipfs order now consensus h =
      match unpinClusterDag ipfs order now first metaPin with
      | (some err, next) => ((metaPin, some err), next)
      | (none, next) => ((metaPin, (next.logUnpin metaPin).1), (next.logUnpin metaPin).2) := by
  have same : first.state = consensus.state := by rw [← call_state consensus, called]
  have notData : ¬ metaType = dataType := by decide
  have notShard : ¬ metaType = shardType := by decide
  rcases dagged : unpinClusterDag ipfs order now first metaPin with ⟨none | err, next⟩
  all_goals
    simp [unpin, writes, pinGet, getState, called, same, stored, isMeta, notData, notShard, dagged]

theorem cidsFromMetaPin_of_meta {next : Consensus} (called : consensus.call = (none, next))
    (stored : consensus.state.get h = .ok metaPin) (isMeta : metaPin.type = metaType)
    (reference : metaPin.reference = some dag) : cidsFromMetaPin ipfs order consensus h = match pinGet next dag with
      | (.error err, next) =>
        (.error (.text ("could not get clusterDAG pin from state. Malformed pin?: " ++ errorText err)), next)
      | (.ok clusterDagPin, next) =>
        match ipfs.blockGet clusterDagPin.cid with
        | .error err =>
          (.error (.text ("error reading clusterDAG block from ipfs: " ++ errorText err)), next)
        | .ok (.other parseError) => (.error (.text ("error parsing clusterDAG block: " ++ parseError)), next)
        | .ok (.cbor obj) => (.ok (metaCids order obj dag h), next) := by
  have same : next.state = consensus.state := by rw [← call_state consensus, called]
  simp only [cidsFromMetaPin, getState, called, same, stored, isMeta, ne_eq, not_true_eq_false, ↓reduceIte, reference]
  obtain ⟨err | found, after⟩ := pinGet next dag
  · rfl
  · dsimp only
    cases ipfs.blockGet found.cid with
    | error err => rfl
    | ok block =>
      cases block with
      | other parseError => rfl
      | cbor obj =>
        simp only [cborDataToNode, CborNode.links, foldl_flip_cons_eq_append, metaCids, map_id']

section

variable (writes : c.config.followerMode = false)

include writes

/-- Up to the block of the clusterDAG, the removal of a meta pin only reads. -/
theorem unpin_meta (reads : ReadsState consensus ready) (stored : consensus.state.get h = .ok metaPin)
    (isMeta : metaPin.type = metaType) (reference : metaPin.reference = some dag)
    (storedDag : consensus.state.get dag = .ok dagPin) :
    c.unpin ipfs order now consensus h = match ipfs.blockGet dag with
      | .error err =>
        ((metaPin, some (.text ("error reading clusterDAG block from ipfs: " ++ errorText err))), ready)
      | .ok (.other parseError) =>
        ((metaPin, some (.text ("error parsing clusterDAG block: " ++ parseError))), ready)
      | .ok (.cbor obj) =>
        match logUnpinAll now (metaCids order obj dag h) ready with
        | (some err, next) => ((metaPin, some err), next)
        | (none, next) => ((metaPin, (next.logUnpin metaPin).1), (next.logUnpin metaPin).2) := by
  obtain ⟨first, second, one, two, three⟩ := reads
  have same : first.state = consensus.state := by rw [← call_state consensus, one]
  have same' : second.state = consensus.state := by rw [← same, ← call_state first, two]
  have same'' : ready.state = consensus.state := by rw [← same', ← call_state second, three]
  rw [unpin_of_meta writes one stored isMeta, unpinClusterDag, cid_of_get stored,
    cidsFromMetaPin_of_meta two (same ▸ stored) isMeta reference]
  simp only [pinGet, getState, three, same'', storedDag, cid_of_get storedDag]
  cases ipfs.blockGet dag with
  | error err => rfl
  | ok block =>
    cases block with
    | other parseError => rfl
    | cbor obj => rfl

theorem unpin_meta_removes (healthy : Healthy consensus) (stored : consensus.state.get h = .ok metaPin)
    (isMeta : metaPin.type = metaType) (reference : metaPin.reference = some dag)
    (storedDag : consensus.state.get dag = .ok dagPin) (block : ipfs.blockGet dag = .ok (.cbor obj)) :
    (c.unpin ipfs order now consensus h).1.2 = none ∧ ∀ x, (c.unpin ipfs order now consensus h).2.state.store.lookup x =
        if x ∈ metaCids order obj dag h then none else consensus.state.store.lookup x := by
  obtain ⟨ready, reads, healthyReady⟩ := healthy.readsState
  obtain ⟨next, removed, state, healthyNext⟩ := @Healthy.logUnpinAll now ready (metaCids order obj dag h) healthyReady
  obtain ⟨last, called, same, -⟩ := healthyNext.call
  rw [unpin_meta writes reads stored isMeta reference storedDag, block]
  simp only [removed, logUnpin, called, true_and]
  intro x
  rw [lookup_rm, same, state, lookup_removeAll, reads.state, cid_of_get stored]
  split
  next isMetaCid => rw [if_pos (mem_metaCids.mpr (.inr (.inr isMetaCid)))]
  · rfl

theorem unpin_meta_of_failing {st : DsState} {i : ℕ} {err : Error} {rest : List (Option Error)}
    (stored : st.get h = .ok metaPin) (isMeta : metaPin.type = metaType) (reference : metaPin.reference = some dag)
    (storedDag : st.get dag = .ok dagPin) (block : ipfs.blockGet dag = .ok (.cbor obj))
    (made : i ≤ (metaCids order obj dag h).length) : let consensus : Consensus :=
      { state := st, outcomes := [none, none, none] ++ List.replicate i none ++ some err :: rest }
    (c.unpin ipfs order now consensus h).2.state = removeAll ((metaCids order obj dag h).take i) st := by
  intro consensus
  have reads : ReadsState consensus { state := st, outcomes := List.replicate i none ++ some err :: rest } :=
    ⟨_, _, rfl, rfl, rfl⟩
  rw [unpin_meta writes reads stored isMeta reference storedDag, block]
  simp only [logUnpinAll_of_failing]
  split_ifs with early
  · rfl
  · obtain rfl : i = (metaCids order obj dag h).length := by omega
    rw [Nat.sub_self]
    rfl

theorem unpin_meta_dangling (healthy : Healthy consensus) (stored : consensus.state.get h = .ok metaPin)
    (isMeta : metaPin.type = metaType) (reference : metaPin.reference = some dag)
    (gone : consensus.state.get dag = .error .notFound) : (c.unpin ipfs order now consensus h).1.2 ≠ none := by
  obtain ⟨first, one, same, healthyFirst⟩ := healthy.call
  obtain ⟨second, two, same', healthySecond⟩ := healthyFirst.call
  obtain ⟨third, found, -, -⟩ := healthySecond.pinGet dag
  rw [same', same, gone] at found
  rw [unpin_of_meta writes one stored isMeta, unpinClusterDag, cid_of_get stored,
    cidsFromMetaPin_of_meta two (same ▸ stored) isMeta reference, found]
  exact Option.some_ne_none _

end

theorem unpin_absent (healthy : Healthy consensus) (gone : consensus.state.get h = .error .notFound) :
    (c.unpin ipfs order now consensus h).1.2 ≠ none := by
  obtain ⟨first, one, same, -⟩ := healthy.call
  cases writes : c.config.followerMode <;>
    simp [unpin, writes, pinGet, getState, one, same, gone]

end

end

def Copies (source target : Cid) : ClusterEvent → Prop
  | .pin _ _ _ object _ => (object.pinUpdate.defined = true ∧ object.pinUpdate ≠ object.cid) ∧
      source = object.pinUpdate ∧ target = object.cid
  | .pinUpdate _ old new _ => source = old ∧ target = new
  | .unpin .. => False

def Submits (peer : Cluster) (object : Pin) : ClusterEvent → Prop
  | .pin peer' _ _ object' _ => ¬ (object'.pinUpdate.defined = true ∧ object'.pinUpdate ≠ object'.cid) ∧
      peer = peer' ∧ object = object'
  | .pinUpdate .. => False
  | .unpin .. => False

inductive Effect (consensus : Consensus) (event : ClusterEvent) : DsState → Prop
  | removed (cids : List Cid) : Effect consensus event (removeAll cids consensus.state)
  | copied {source target} (copies : Copies source target event) {existing : Pin}
      (found : consensus.state.get source = .ok existing) (data : existing.type = dataType) (now : Clock)
      (opts : PinOptions) :
      Effect consensus event (consensus.state.add (updatedPin now source target opts existing))
  | submitted {peer object} (submits : Submits peer object event) {now : Clock}
      {ready stored : Pin} (accepted : Accepted peer now consensus object ready stored) :
      Effect consensus event (consensus.state.add stored)

theorem operations_effect {consensus next : Consensus} {event : ClusterEvent}
    (step : operations.step consensus event = some next) : Effect consensus event next.state := by
  cases event with
  | pin peer order now object blacklist =>
    cases step
    rcases pin_outcome peer order now consensus object blacklist with ⟨-, unchanged⟩ | ⟨-, effect⟩
    · rw [unchanged]
      exact .removed []
    · split at effect
      next diverts =>
        obtain ⟨existing, found, data, updated⟩ := effect
        have copies : Copies object.pinUpdate object.cid (.pin peer order now object blacklist) :=
          ⟨diverts, rfl, rfl⟩
        rw [updated]
        exact .copied copies found data now object.toPinOptions
      next direct =>
        obtain ⟨ready, stored, accepted, added⟩ := effect
        have submits : Submits peer object (.pin peer order now object blacklist) := ⟨direct, rfl, rfl⟩
        rw [added]
        exact .submitted submits accepted
  | pinUpdate now source target opts =>
    cases step
    rcases pinUpdate_outcome now consensus source target opts with
      ⟨-, unchanged⟩ | ⟨-, existing, found, data, updated⟩
    · rw [unchanged]
      exact .removed []
    · have copies : Copies source target (.pinUpdate now source target opts) := ⟨rfl, rfl⟩
      rw [updated]
      exact .copied copies found data now opts
  | unpin peer ipfs order now h =>
    cases step
    obtain ⟨cids, state⟩ := unpin_state peer ipfs order now consensus h
    rw [state]
    exact .removed cids

theorem lookup_add (st : DsState) (pin : Pin) (c : Cid) :
    (st.add pin).store.lookup c = if c = pin.cid then some pin.protoMarshal else st.store.lookup c := by
  split
  next same =>
    subst same
    exact AList.lookup_insert _
  next other => exact AList.lookup_insert_ne other

section

theorem twoChecks_eq_none_iff {p q : Prop} [Decidable p] [Decidable q] {inner outer : Error} :
    (if p then if q then some inner else none else some outer) = none ↔ p ∧ ¬ q := by
  by_cases outside : p
  · by_cases inside : q <;> simp [outside, inside]
  · simp [outside]

theorem checkPinType_eq_none_iff (pin : Pin) : checkPinType pin = none ↔ pin.type = dataType ∧ pin.reference = none ∨
      pin.type = shardType ∧ pin.maxDepth = 1 ∨ pin.type = clusterDAGType ∧ pin.maxDepth = 0 ∧ pin.reference ≠ none ∨
      pin.type = metaType ∧ pin.allocations = [] ∧ pin.reference ≠ none := by
  simp only [checkPinType, Option.isSome_iff_ne_none, Option.isNone_iff_eq_none, length_eq_zero_iff, ne_eq, ite_not]
  by_cases data : pin.type = dataType
  · simp +decide [data]
  by_cases shard : pin.type = shardType
  · simp +decide [shard]
  by_cases dag : pin.type = clusterDAGType
  · simp +decide [dag, twoChecks_eq_none_iff]
  by_cases isMeta : pin.type = metaType
  · simp +decide [isMeta, twoChecks_eq_none_iff]
  · simp [data, shard, dag, isMeta]

variable {pin object ready : Pin}

theorem knownType_of_checked (checked : checkPinType pin = none) : KnownType pin.type := by
  rcases (checkPinType_eq_none_iff pin).mp checked with ⟨type, -⟩ | ⟨type, -⟩ | ⟨type, -⟩ | ⟨type, -⟩
  · exact .inl type
  · exact .inr (.inr (.inr type))
  · exact .inr (.inr (.inl type))
  · exact .inr (.inl type)

theorem type_decoded {type : PinType} (known : KnownType type) : 1#64 <<< convertPinType type = type := by
  rcases known with rfl | rfl | rfl | rfl <;> decide

theorem reference_decoded {reference : Option Cid} (stored : reference ≠ some Cid.undef) :
    castCid ((reference.map (·.bytes)).getD "") = reference := by
  cases reference with
  | none => rfl
  | some ref =>
    refine castCid_bytes ?_
    simp only [Cid.defined, bne_iff_ne, ne_eq]
    intro blank
    exact stored (congrArg (some ∘ Cid.mk) blank)

theorem checkPinType_decoded (checked : checkPinType pin = none) (reference : pin.reference ≠ some Cid.undef)
    (c : Cid) : checkPinType (decoded c pin.protoMarshal) = none := by
  have type := type_decoded (knownType_of_checked checked)
  have kept := reference_decoded reference
  rw [checkPinType_eq_none_iff] at checked ⊢
  simp only [decoded, Pin.protoMarshal, type, kept]
  rcases checked with isData | ⟨isShard, depth⟩ | ⟨isDag, depth, refers⟩ | isMeta
  · exact .inl isData
  · exact .inr (.inl ⟨isShard, by rw [depth]; rfl⟩)
  · exact .inr (.inr (.inl ⟨isDag, by rw [depth]; rfl, refers⟩))
  · exact .inr (.inr (.inr isMeta))

theorem setupReplicationFactor_keeps {c : Cluster} {err : Option Error}
    (passed : c.setupReplicationFactor object = (ready, err)) :
    ready.cid = object.cid ∧ ready.mode = object.mode ∧ ready.maxDepth = object.maxDepth ∧
      ready.type = object.type ∧ ready.reference = object.reference ∧ ready.origins = object.origins ∧
      (ready.allocations = [] ∨ ready.allocations = object.allocations) := by
  unfold setupReplicationFactor at passed
  extract_lets rplMin rplMax sized pin at passed
  obtain ⟨rfl, -⟩ := Prod.mk.inj passed
  by_cases everywhere : sized.isPinEverywhere = true
  · rw [show pin = { sized with allocations := [] } from if_pos everywhere]
    exact ⟨rfl, rfl, rfl, rfl, rfl, rfl, .inl rfl⟩
  · rw [show pin = sized from if_neg everywhere]
    exact ⟨rfl, rfl, rfl, rfl, rfl, rfl, .inr rfl⟩

theorem checkPinType_ready {c : Cluster} {err : Option Error} (passed : c.setupReplicationFactor object = (ready, err))
    (checked : checkPinType object = none) : checkPinType ready = none := by
  obtain ⟨-, -, sameDepth, sameType, sameReference, -, allocations⟩ := setupReplicationFactor_keeps passed
  rw [checkPinType_eq_none_iff] at checked ⊢
  rw [sameType, sameReference, sameDepth]
  rcases checked with isData | isShard | isDag | ⟨isMeta, empty, refers⟩
  · exact .inl isData
  · exact .inr (.inl isShard)
  · exact .inr (.inr (.inl isDag))
  · exact .inr (.inr (.inr ⟨isMeta, allocations.elim id (·.trans empty), refers⟩))

theorem mode_decoded {depth : PinDepth} (stored : BitVec.ofInt 32 depth ≠ 0) :
    PinDepth.toPinMode (BitVec.ofInt 32 depth).toInt = PinMode.recursive := by
  have nonzero : (BitVec.ofInt 32 depth).toInt ≠ 0 := fun zero => stored (BitVec.eq_of_toInt_eq zero)
  exact if_neg nonzero

def StoredAs (st : DsState) (c : Cid) (type : PinType) : Prop :=
  ∃ data, st.store.lookup c = some data ∧ (decoded c data).type = type

theorem StoredAs.of_get {st : DsState} {c : Cid} (read : st.get c = .ok pin) : StoredAs st c pin.type := by
  obtain ⟨data, found, -, rfl⟩ := get_eq_ok_iff.mp read
  exact ⟨data, found, rfl⟩

theorem StoredAs.ne {st : DsState} {x y : Cid} {type type' : PinType} (first : StoredAs st x type)
    (second : StoredAs st y type') (other : type ≠ type') : x ≠ y := by
  rintro rfl
  obtain ⟨data, found, rfl⟩ := first
  obtain ⟨data', found', rfl⟩ := second
  obtain rfl := Option.mem_unique found found'
  exact other rfl

section

variable {c : Cluster} {now : Clock} {consensus : Consensus} {object ready stored : Pin}
  (accepted : Accepted c now consensus object ready stored)

include accepted

theorem Accepted.cid : stored.cid = object.cid := by
  obtain ⟨allocs, -, rfl⟩ := accepted.stored
  exact (setupReplicationFactor_keeps accepted.factors).1

theorem Accepted.storedAs (known : KnownType object.type) :
    StoredAs (consensus.state.add stored) object.cid object.type := by
  refine ⟨stored.protoMarshal, by rw [lookup_add, if_pos accepted.cid.symm], ?_⟩
  obtain ⟨allocs, -, rfl⟩ := accepted.stored
  change 1#64 <<< convertPinType ready.type = _
  rw [(setupReplicationFactor_keeps accepted.factors).2.2.2.1, type_decoded known]

theorem Accepted.existing (seen : consensus.call.1 ≠ some .notFound) {data : Pb.Pin}
    (before : consensus.state.store.lookup object.cid = some data) : (decoded object.cid data).type = ready.type ∧
      ((decoded object.cid data).mode = PinMode.recursive → ready.mode = PinMode.recursive) ∧
      checkPinType ready = none := by
  rcases accepted.replaces with (absent | unread) | ⟨existing, read, restricts⟩
  · exact (get_ne_notFound before absent).elim
  · exact (seen unread).elim
  · obtain ⟨found, here, -, rfl⟩ := get_eq_ok_iff.mp read
    obtain rfl := Option.mem_unique here before
    exact restricts

theorem Accepted.keeps (known : KnownType object.type) (seen : consensus.call.1 ≠ some .notFound) {x : Cid}
    {type : PinType} (before : StoredAs consensus.state x type) : StoredAs (consensus.state.add stored) x type := by
  obtain ⟨data, found, rfl⟩ := before
  rcases eq_or_ne x object.cid with rfl | other
  · rw [(accepted.existing seen found).1, (setupReplicationFactor_keeps accepted.factors).2.2.2.1]
    exact accepted.storedAs known
  · exact ⟨data, by rw [lookup_add, accepted.cid, if_neg other, found], rfl⟩

theorem Accepted.noAllocations (empty : object.allocations = [])
    (unallocated : object.type = metaType ∨ object.replicationFactorMin = -1 ∧ object.replicationFactorMax = -1) :
    stored.allocations = [] := by
  obtain ⟨allocs, kept, rfl⟩ := accepted.stored
  obtain ⟨-, -, -, sameType, -, -, allocations⟩ := setupReplicationFactor_keeps accepted.factors
  have emptyReady : ready.allocations = [] := allocations.elim id (·.trans empty)
  rcases unallocated with isMeta | ⟨everyMin, everyMax⟩
  · exact (kept.ofMeta (sameType.trans isMeta)).trans emptyReady
  · have factors := accepted.factors
    unfold setupReplicationFactor at factors
    obtain ⟨rfl, -⟩ := Prod.mk.inj factors
    refine kept.everywhere ?_ ?_ emptyReady <;> dsimp only <;> split_ifs <;> simp_all

theorem Accepted.read (known : KnownType object.type) (reference : object.reference ≠ some Cid.undef)
    (empty : stored.allocations = []) (origins : ∀ origin ∈ object.origins, origin ≠ "") :
    ∃ pin, (consensus.state.add stored).get object.cid = .ok pin ∧ pin.type = object.type ∧
      pin.reference = object.reference := by
  obtain ⟨-, -, -, sameType, sameReference, sameOrigins, -⟩ := setupReplicationFactor_keeps accepted.factors
  rw [← accepted.cid]
  obtain ⟨allocs, -, rfl⟩ := accepted.stored
  have readable : Readable (Pin.protoMarshal { ready with timestamp := now 1, allocations := allocs }) := by
    refine ⟨fun alloc member => ?_, fun origin member => ?_⟩
    · obtain rfl : allocs = [] := empty
      cases member
    · exact origins origin (sameOrigins ▸ member)
  refine ⟨_, get_add_self consensus.state readable, ?_, ?_⟩
  · change 1#64 <<< convertPinType ready.type = _
    rw [sameType, type_decoded known]
  · change castCid ((ready.reference.map (·.bytes)).getD "") = _
    rw [sameReference, reference_decoded reference]

end

end

end IpfsCluster.Proofs.Cluster
