import IpfsCluster.Proofs.Cluster.Pin
import IpfsCluster.Soundness.Allocation

/-! # Repinning away from a failed peer

When a peer fails, the pins allocated to it are repinned with that peer on the blacklist. If a pin was made by an
update, the call ends in `PinUpdate`, which copies the pin it was updated from and knows neither the allocator nor the
blacklist. A repin is good exactly if this does not happen and the stored pin passes the checks of `pin` unchanged, or
if the copied pin happens to serve.
-/

namespace IpfsCluster.Soundness

open Model Model.Api Golang Machine Proofs.Api Proofs.Cluster Except Cluster PinType

/-- The pinset holds a pin for the same CID with enough valid allocations, none of them the failed
peer, and with the same options. -/
def Repinned (c : Cluster) (p : PeerID) (pin : Pin) (st : DsState) : Prop :=
  ∃ repinned, st.get pin.cid = .ok repinned ∧
    pin.replicationFactorMin ≤ (validCurrent c repinned.allocations [p]).length ∧
    p ∉ repinned.allocations ∧ SameOptions pin.toPinOptions repinned.toPinOptions

/-- `pin` hands the object over to `PinUpdate`. -/
def Diverts (pin : Pin) : Prop := pin.pinUpdate.defined = true ∧ pin.pinUpdate ≠ pin.cid

/-- The maximum that `pin` allocates with: the default where none is stored. -/
def maximumOf (c : Cluster) (pin : Pin) : ℤ :=
  if pin.replicationFactorMax = 0 then c.config.replicationFactorMax else pin.replicationFactorMax

/-- `pin` takes the stored object: it references nothing, its minimum is not above the maximum, and the maximum
is stored as before, in 32 bits. -/
structure Retaken (c : Cluster) (pin : Pin) : Prop where
  reference : pin.reference = none
  ordered : pin.replicationFactorMin ≤ maximumOf c pin
  kept : (BitVec.ofInt 32 (maximumOf c pin)).toInt = pin.replicationFactorMax

/-- The pin in the `PinUpdate` field serves as a replacement: it has enough valid allocations, none of
them the failed peer, and what is copied from it agrees with the options of the pin. -/
structure Serves (c : Cluster) (now : Clock) (p : PeerID) (pin source : Pin) : Prop where
  type : source.type = dataType
  valid : pin.replicationFactorMin ≤ (validCurrent c source.allocations [p]).length
  evacuated : p ∉ source.allocations
  rplMin : source.replicationFactorMin = pin.replicationFactorMin
  rplMax : source.replicationFactorMax = pin.replicationFactorMax
  mode : source.mode = pin.mode
  shardSize : source.shardSize = pin.shardSize
  origins : source.origins = pin.origins
  metadata : pin.metadata.entries.Perm source.metadata.entries
  name : pin.name = "" → source.name = ""
  expireAt : (!pin.expireAt.isZero && pin.expireAt.after (now 1)) = false → source.expireAt = pin.expireAt

section

variable {c : Cluster} {order : MapOrder} {now : Clock} {consensus : Consensus} {p : PeerID} {pin : Pin}

theorem serves_iff {source : Pin} (canonical : Canonical pin) (canonicalSource : Canonical source) :
    Serves c now p pin source ↔ source.type = dataType ∧
        pin.replicationFactorMin ≤ (validCurrent c source.allocations [p]).length ∧ p ∉ source.allocations ∧
        SameOptions pin.toPinOptions (updatedPin now pin.pinUpdate pin.cid pin.toPinOptions source).toPinOptions := by
  have noUsers := canonical.userAllocations.trans canonicalSource.userAllocations.symm
  constructor
  · intro serves
    refine ⟨serves.type, serves.valid, serves.evacuated, serves.metadata, ?_⟩
    have name : (if pin.name ≠ "" then pin.name else source.name) = pin.name := by
      split
      · rfl
      next blank =>
        have blank := not_not.mp blank
        rw [serves.name blank, blank]
    have expireAt : (if !pin.expireAt.isZero && pin.expireAt.after (now 1) then pin.expireAt
        else source.expireAt) = pin.expireAt := by
      split
      · rfl
      next past => exact serves.expireAt (Bool.eq_false_iff.mpr past)
    simp only [updatedPin, serves.rplMin, serves.rplMax, serves.mode, serves.shardSize, serves.origins, name,
      expireAt, noUsers]
  · rintro ⟨type, valid, evacuated, metadata, rest⟩
    simp only [updatedPin, PinOptions.mk.injEq] at rest
    obtain ⟨rplMin, rplMax, name, mode, shardSize, -, expireAt, -, -, origins⟩ := rest
    refine ⟨type, valid, evacuated, rplMin.symm, rplMax.symm, mode.symm, shardSize.symm, origins.symm, metadata, ?_, ?_⟩
    · intro blank
      rw [if_neg (not_not.mpr blank)] at name
      exact name.symm.trans blank
    · intro past
      rw [if_neg (Bool.eq_false_iff.mp past)] at expireAt
      exact expireAt.symm

theorem not_repinned_of_unchanged (stored : consensus.state.get pin.cid = .ok pin) (allocated : p ∈ pin.allocations)
    {st : DsState} (unchanged : st = consensus.state) : ¬ Repinned c p pin st := by
  rintro ⟨repinned, read, -, evacuated, -⟩
  rw [unchanged, stored] at read
  obtain rfl := ok.inj read
  exact evacuated allocated

theorem repinned_add_iff (pin : Pin) {replacement : Pin} (canonical : Canonical replacement)
    (sameCid : replacement.cid = pin.cid) (st : DsState) : Repinned c p pin (st.add replacement) ↔
      pin.replicationFactorMin ≤ (validCurrent c replacement.allocations [p]).length ∧
        p ∉ replacement.allocations ∧ SameOptions pin.toPinOptions replacement.toPinOptions := by
  obtain ⟨stored, read, allocations, same⟩ := get_add_canonical st canonical
  rw [sameCid] at read
  constructor
  · rintro ⟨repinned, readAgain, valid, evacuated, options⟩
    obtain rfl := ok.inj (read.symm.trans readAgain)
    rw [allocations] at valid evacuated
    exact ⟨valid, evacuated, options.trans same.symm⟩
  · rintro ⟨valid, evacuated, options⟩
    rw [← allocations] at valid evacuated
    exact ⟨stored, read, valid, evacuated, options.trans same⟩

theorem setupReplicationFactor_stored (positive : 0 < pin.replicationFactorMin) :
    c.setupReplicationFactor { pin with allocations := [] } =
      ({ pin with allocations := [], replicationFactorMax := maximumOf c pin },
        isReplicationFactorValid pin.replicationFactorMin (maximumOf c pin)) := by
  simp only [setupReplicationFactor, positive.ne', ↓reduceIte, maximumOf, ite_self]

theorem setupPin_stored (positive : 0 < pin.replicationFactorMin) (canonical : Canonical pin)
    (data : pin.type = dataType) (isCid : pin.cid.defined = true) (unexpired : pin.expiredAt (now 0) = false)
    (reference : pin.reference = none) (ordered : pin.replicationFactorMin ≤ maximumOf c pin) :
    c.setupPin now { pin with allocations := [] } pin =
      ({ pin with allocations := [], replicationFactorMax := maximumOf c pin }, none) := by
  have factors : c.setupReplicationFactor { pin with allocations := [] } =
      ({ pin with allocations := [], replicationFactorMax := maximumOf c pin }, none) := by
    rw [setupReplicationFactor_stored positive,
      (isReplicationFactorValid_eq_none_iff _ _).mpr (.inr ⟨positive, ordered⟩)]
  have current : (!pin.expireAt.isZero && pin.expireAt.before (now 0)) = false := by
    have notEpoch : pin.expireAt ≠ Time.unixZero := by
      intro epoch
      have kept := canonical.expireAt
      rw [epoch] at kept
      exact absurd kept (by decide)
    simp only [Pin.expiredAt, notEpoch, decide_false, Bool.or_false] at unexpired
    cases zero : pin.expireAt.isZero with
    | true => rfl
    | false => simpa [zero] using unexpired
  have checked : checkPinType { pin with allocations := [], replicationFactorMax := maximumOf c pin } = none := by
    simp only [checkPinType, data, reference, Option.isSome_none, Bool.false_eq_true, ↓reduceIte]
  exact setupPin_eq_ready factors current isCid rfl rfl checked

/-- A maximum is stored as it reads in 32 bits. -/
theorem add_wrapped (st : DsState) (pin : Pin) :
    st.add { pin with replicationFactorMax := (BitVec.ofInt 32 pin.replicationFactorMax).toInt } = st.add pin := by
  have same : Pin.protoMarshal
      { pin with replicationFactorMax := (BitVec.ofInt 32 pin.replicationFactorMax).toInt } = pin.protoMarshal := by
    simp only [Pin.protoMarshal, BitVec.ofInt_toInt]
  rw [DsState.add, DsState.add, same]

theorem repinFromPeer_direct (distinct : c.allocateBy.Nodup)
    (identified : ∀ name, ∀ m ∈ c.monitor.latestMetrics name, m.peer ≠ "") (writes : c.config.followerMode = false)
    (healthy : Healthy consensus) (isCid : pin.cid.defined = true) (stored : consensus.state.get pin.cid = .ok pin)
    (data : pin.type = dataType) (unexpired : pin.expiredAt (now 0) = false)
    (few : (validCurrent c pin.allocations [p]).length < pin.replicationFactorMin)
    (enough : pin.replicationFactorMin ≤ (validPeers c [p]).length) (direct : ¬ Diverts pin)
    (reference : pin.reference = none) (ordered : pin.replicationFactorMin ≤ maximumOf c pin) :
    Repinned c p pin (c.repinFromPeer order now consensus p pin).state ↔
      (BitVec.ofInt 32 (maximumOf c pin)).toInt = pin.replicationFactorMax := by
  have canonical := canonical_of_get stored
  have positive : 0 < pin.replicationFactorMin := by omega
  have holders : currentAllocs pin = pin.allocations := if_pos isCid
  obtain ⟨allocs, answer, nodup, valid, reached⟩ := allocate_restores c pin [p] [] order distinct identified
    positive ordered (by rwa [holders]) enough
  obtain ⟨next, found, same, healthyNext⟩ := healthy.pinGet pin.cid
  have result : (c.repinFromPeer order now consensus p pin).state = consensus.state.add
      { pin with allocations := allocs, timestamp := now 1, replicationFactorMax := maximumOf c pin } := by
    have notMeta : pin.type ≠ metaType := by
      rw [data]
      decide
    have straight : ¬ (pin.pinUpdate.defined = true ∧ pin.pinUpdate ≠ pin.cid) := direct
    simp only [Cluster.repinFromPeer, Cluster.pin, writes, isCid, straight, found, stored, Bool.false_eq_true,
      Bool.not_true, ↓reduceIte, Except.toOption, Option.getD_some,
      setupPin_stored positive canonical data isCid unexpired reference ordered, submitPin, notMeta,
      List.length_nil, canonical.userAllocations, answer, healthyNext.logPin, same]
  have proper : ∀ alloc ∈ allocs, alloc ≠ "" := by
    rintro alloc member rfl
    exact empty_notMem_validPeers [p] identified (valid "" member)
  have canonicalNew : Canonical { pin with
      allocations := allocs, timestamp := now 1
      replicationFactorMax := (BitVec.ofInt 32 (maximumOf c pin)).toInt } :=
    { canonical with allocations := proper, rplMax := congrArg BitVec.toInt BitVec.ofInt_toInt }
  rw [result, ← add_wrapped, repinned_add_iff pin canonicalNew rfl]
  constructor
  · rintro ⟨-, -, same⟩
    exact (congrArg PinOptions.replicationFactorMax same.2).symm
  · intro kept
    refine ⟨?_, ?_, ?_⟩
    · rw [validCurrent_eq_self nodup valid]
      exact reached
    · intro member
      exact ((mem_validPeers p).mp (valid p member)).2.notBlacklisted (List.mem_singleton_self p)
    · dsimp only
      rw [kept]
      exact ⟨.refl _, rfl⟩

/-- An object that `pin` does not take leaves the pinset as it is. -/
theorem repinFromPeer_refused (stored : consensus.state.get pin.cid = .ok pin) (healthy : Healthy consensus)
    (data : pin.type = dataType) (positive : 0 < pin.replicationFactorMin) (direct : ¬ Diverts pin)
    (refused : ¬ (pin.reference = none ∧ pin.replicationFactorMin ≤ maximumOf c pin)) :
    (c.repinFromPeer order now consensus p pin).state = consensus.state := by
  refine (pin_outcome c order now consensus { pin with allocations := [] } [p]).elim And.right fun ⟨_, effect⟩ => ?_
  have straight : ¬ (pin.pinUpdate.defined = true ∧ pin.pinUpdate ≠ pin.cid) := direct
  dsimp only at effect
  rw [if_neg straight] at effect
  obtain ⟨ready, added, accepted, -⟩ := effect
  have factors := accepted.factors
  rw [setupReplicationFactor_stored positive] at factors
  obtain ⟨rfl, valid⟩ := Prod.mk.inj factors
  have ordered := ((isReplicationFactorValid_eq_none_iff _ _).mp valid).resolve_left (by omega)
  rcases accepted.replaces with (absent | down) | ⟨-, -, -, -, checked⟩
  · cases stored.symm.trans absent
  · obtain ⟨next, called, -⟩ := healthy.call
    rw [called] at down
    cases down
  · refine (refused ⟨?_, ordered.2⟩).elim
    rw [checkPinType, if_pos data, ite_eq_right_iff] at checked
    exact Option.not_isSome_iff_eq_none.mp fun isSome => Option.some_ne_none _ (checked isSome)

theorem repinFromPeer_diverted (writes : c.config.followerMode = false) (healthy : Healthy consensus)
    (isCid : pin.cid.defined = true) (stored : consensus.state.get pin.cid = .ok pin) (allocated : p ∈ pin.allocations)
    (diverts : Diverts pin) : Repinned c p pin (c.repinFromPeer order now consensus p pin).state ↔
      ∃ source, consensus.state.get pin.pinUpdate = .ok source ∧ Serves c now p pin source := by
  have canonical := canonical_of_get stored
  obtain ⟨next, found, same, healthyNext⟩ := healthy.pinGet pin.pinUpdate
  have detour : (c.repinFromPeer order now consensus p pin) =
      (pinUpdate now consensus pin.pinUpdate pin.cid pin.toPinOptions).2 := by
    have taken : pin.pinUpdate.defined = true ∧ pin.pinUpdate ≠ pin.cid := diverts
    simp only [Cluster.repinFromPeer, Cluster.pin, writes, isCid, Bool.false_eq_true, Bool.not_true, ↓reduceIte]
    rw [if_pos taken]
  rw [detour]
  cases answer : consensus.state.get pin.pinUpdate with
  | error err =>
    rw [answer] at found
    have unchanged : (Cluster.pinUpdate now consensus pin.pinUpdate pin.cid pin.toPinOptions).2.state =
        consensus.state := by
      simpa only [pinUpdate, found] using same
    refine iff_of_false (not_repinned_of_unchanged stored allocated unchanged) ?_
    rintro ⟨source, read, -⟩
    cases read
  | ok source =>
    rw [answer] at found
    simp only [ok.injEq, exists_eq_left', serves_iff canonical (canonical_of_get answer)]
    by_cases isData : source.type = dataType
    · have canonicalSource := canonical_of_get answer
      have added : (pinUpdate now consensus pin.pinUpdate pin.cid pin.toPinOptions).2.state =
          consensus.state.add (updatedPin now pin.pinUpdate pin.cid pin.toPinOptions source) := by
        rw [pinUpdate_eq found isData, healthyNext.logPin, same]
      have canonicalCopy : Canonical (updatedPin now pin.pinUpdate pin.cid pin.toPinOptions source) := by
        refine { canonicalSource with expireAt := ?_ }
        simp only [updatedPin]
        split
        · exact canonical.expireAt
        · exact canonicalSource.expireAt
      rw [added, repinned_add_iff pin canonicalCopy rfl]
      simp only [isData, true_and]
      rfl
    · have unchanged : (pinUpdate now consensus pin.pinUpdate pin.cid pin.toPinOptions).2.state = consensus.state := by
        simpa only [pinUpdate, found, ne_eq, isData, not_false_eq_true, ↓reduceIte] using same
      exact iff_of_false (not_repinned_of_unchanged stored allocated unchanged) (fun serves => isData serves.1)

/-- For every stored data pin that is unexpired and has too few valid allocations, the repin is good exactly when it
does not end in `PinUpdate` and `pin` takes the stored object, or it does and the pin copied there serves. -/
theorem repinFromPeer_repinned_iff (c : Cluster) (order : MapOrder) (now : Clock) (consensus : Consensus) (p : PeerID)
    (pin : Pin) (distinct : c.allocateBy.Nodup) (identified : ∀ name, ∀ m ∈ c.monitor.latestMetrics name, m.peer ≠ "")
    (writes : c.config.followerMode = false) (healthy : Healthy consensus) (isCid : pin.cid.defined = true)
    (stored : consensus.state.get pin.cid = .ok pin) (data : pin.type = dataType)
    (unexpired : pin.expiredAt (now 0) = false) (allocated : p ∈ pin.allocations)
    (few : (validCurrent c pin.allocations [p]).length < pin.replicationFactorMin)
    (enough : pin.replicationFactorMin ≤ (validPeers c [p]).length) :
    Repinned c p pin (c.repinFromPeer order now consensus p pin).state ↔
      if pin.pinUpdate.defined = true ∧ pin.pinUpdate ≠ pin.cid then
        ∃ source, consensus.state.get pin.pinUpdate = .ok source ∧ Serves c now p pin source else Retaken c pin := by
  by_cases diverts : pin.pinUpdate.defined = true ∧ pin.pinUpdate ≠ pin.cid
  · rw [repinFromPeer_diverted writes healthy isCid stored allocated diverts, if_pos diverts]
  · rw [if_neg diverts]
    by_cases taken : pin.reference = none ∧ pin.replicationFactorMin ≤ maximumOf c pin
    · rw [repinFromPeer_direct distinct identified writes healthy isCid stored data unexpired few enough diverts taken.1
        taken.2]
      exact ⟨fun kept => ⟨taken.1, taken.2, kept⟩, Retaken.kept⟩
    · refine iff_of_false (not_repinned_of_unchanged stored allocated ?_) fun retaken =>
        taken ⟨retaken.reference, retaken.ordered⟩
      exact repinFromPeer_refused stored healthy data (by omega) diverts taken

end

def noon : Clock := fun _ => Time.ofUnix 1000

def threePeers : Cluster := pingCluster ["a", "b", "c"] (by decide)

def oneReplica (h : Cid) : PinsetEvent :=
  .pin threePeers .stored noon (pinWithOpts h { replicationFactorMin := 1, replicationFactorMax := 1 } Time.zero) []

def left (events : List PinsetEvent) : Consensus := (pinset.run {} events).getD {}

def replicated (h update : Cid) : Pin :=
  { pinWithOpts h { replicationFactorMin := 1, replicationFactorMax := 1, pinUpdate := update } (noon 0) with
    allocations := ["c"] }

theorem repinFromPeer_keeps_failed_peer :
    ∃ consensus, pinset.run {} [oneReplica ⟨"old"⟩, .pinUpdate noon ⟨"old"⟩ ⟨"new"⟩ {}] = some consensus ∧
      consensus.state.get ⟨"new"⟩ = .ok (replicated ⟨"new"⟩ ⟨"old"⟩) ∧
      (validCurrent threePeers ["c"] ["c"]).length = 0 ∧ (validPeers threePeers ["c"]).length = 2 ∧
      ¬ Repinned threePeers "c" (replicated ⟨"new"⟩ ⟨"old"⟩)
        (threePeers.repinFromPeer .stored noon consensus "c" (replicated ⟨"new"⟩ ⟨"old"⟩)).state := by
  refine ⟨left [oneReplica ⟨"old"⟩, .pinUpdate noon ⟨"old"⟩ ⟨"new"⟩ {}], rfl, rfl, by decide, by decide, ?_⟩
  rintro ⟨repinned, read, -, evacuated, -⟩
  have kept : (threePeers.repinFromPeer .stored noon (left [oneReplica ⟨"old"⟩, .pinUpdate noon ⟨"old"⟩ ⟨"new"⟩ {}])
      "c" (replicated ⟨"new"⟩ ⟨"old"⟩)).state.get ⟨"new"⟩ = .ok (replicated ⟨"new"⟩ ⟨"old"⟩) := rfl
  obtain rfl := ok.inj (kept.symm.trans read)
  exact evacuated (by decide)

theorem repinFromPeer_repinned_iff_unupdated : Repinned threePeers "c" (replicated ⟨"cid"⟩ Cid.undef)
      (threePeers.repinFromPeer .stored noon (left [oneReplica ⟨"cid"⟩]) "c" (replicated ⟨"cid"⟩ Cid.undef)).state :=
  (repinFromPeer_repinned_iff threePeers .stored noon (left [oneReplica ⟨"cid"⟩]) "c" (replicated ⟨"cid"⟩ Cid.undef)
    (by decide) (uniformView_identified (by decide) (by decide)) rfl (fun _ none => (List.not_mem_nil none).elim)
    (by decide) rfl rfl (by decide) (by decide) (by decide) (by decide)).mpr ⟨rfl, by decide, by decide⟩

end IpfsCluster.Soundness
