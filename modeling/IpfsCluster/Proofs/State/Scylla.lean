import IpfsCluster.Model.State.Scylla
import IpfsCluster.Proofs.Api.Pins

/-! # What a row keeps of a pin

An accepted pin is the row of its CID, and the following read returns what the columns keep. Each field of
a pin is followed through its column by itself.
-/

namespace IpfsCluster.Proofs.State

open Model Model.Api Model.Scyllastate Golang List ScyllaState

section

variable {codecs : TextCodecs} {s seen written : ScyllaState} {faults : Faults} {now : Time} {pin : Pin}

theorem finishAdd_spec (s : ScyllaState) (faults : Faults) (pin : Pin) (now : Time) (isUpdate : Bool) :
    (s.finishAdd faults pin now isUpdate).tables.pinsByCid = s.tables.pinsByCid ∧
      (s.finishAdd faults pin now isUpdate).closed = s.closed := by
  have placed (s : ScyllaState) : (s.initializePlacement faults.placement pin.cid now).tables.pinsByCid =
      s.tables.pinsByCid ∧ (s.initializePlacement faults.placement pin.cid now).closed = s.closed := by
    unfold initializePlacement
    split <;> exact ⟨rfl, rfl⟩
  have queued (s : ScyllaState) (millis : Int64) : (s.addToTTLQueue faults.ttl pin.cid millis "").tables.pinsByCid =
      s.tables.pinsByCid ∧ (s.addToTTLQueue faults.ttl pin.cid millis "").closed = s.closed := by
    unfold addToTTLQueue
    split <;> exact ⟨rfl, rfl⟩
  unfold finishAdd
  cases pin.expireAt.isZero <;> cases isUpdate
  · exact ⟨(queued _ _).1.trans (placed s).1, (queued _ _).2.trans (placed s).2⟩
  · exact ⟨(queued _ _).1.trans (placed s).1, (queued _ _).2.trans (placed s).2⟩
  · exact placed s
  · exact placed s

theorem writeRow_spec {existing : Except Error Pin}
    (done : s.writeRow codecs faults.write pin now existing = .ok written) :
    ∃ createdAt, written = s.putRow pin.cid { toRow codecs pin now now with createdAt := createdAt } := by
  unfold writeRow at done
  split at done
  · cases done
  · unfold updateRow at done
    split at done
    · cases done
    next row _ =>
      split at done
      · cases done
        exact ⟨row.createdAt, rfl⟩
      · cases done
  · cases done
  · unfold insertRow at done
    split at done
    · cases done
    · cases done
      exact ⟨toTimestamp now, rfl⟩

theorem get_of_row {cid : Cid} {row : PinRow} (isOpen : ¬s.closed = true)
    (found : s.tables.pinsByCid.lookup (cidToPartitionedKey cid) = some row) :
    s.get codecs none cid = .ok (fromRow codecs cid row) := by
  simp [ScyllaState.get, isOpen, found]

theorem get_add (accepted : (s.add codecs seen faults now pin).1 = none) :
    ∃ createdAt, (s.add codecs seen faults now pin).2.get codecs none pin.cid =
      .ok (fromRow codecs pin.cid { toRow codecs pin now now with createdAt := createdAt }) := by
  unfold add at accepted ⊢
  split at accepted
  · cases accepted
  next isOpen =>
    rw [if_neg isOpen]
    dsimp only at accepted ⊢
    cases done : s.writeRow codecs faults.write pin now (seen.get codecs faults.select pin.cid) with
    | error err =>
      rw [done] at accepted
      cases accepted
    | ok written =>
      obtain ⟨createdAt, rfl⟩ := writeRow_spec done
      refine ⟨createdAt, ?_⟩
      obtain ⟨rows, closed⟩ := finishAdd_spec
        (s.putRow pin.cid { toRow codecs pin now now with createdAt := createdAt }) faults pin now
        (seen.get codecs faults.select pin.cid).isOk
      refine get_of_row ?_ ?_
      · rw [closed]
        exact isOpen
      · rw [rows]
        exact AList.lookup_insert _

end

/-- The texts of peers are not empty, and those of CIDs and addresses can be read; no CID is the text of no CID. -/
structure TextLaws (codecs : TextCodecs) : Prop where
  peer : ∀ p : PeerID, p ≠ "" → codecs.peerString p ≠ ""
  cid : ∀ c : Cid, c.defined = true → codecs.decodeCid (codecs.cidString c) = .ok c
  undef : ∀ c : Cid, c.defined = false → ∃ err, codecs.decodeCid (codecs.cidString c) = .error err
  multiaddr : ∀ o, codecs.newMultiaddr (codecs.multiaddrString o) = .ok o

section

variable {codecs : TextCodecs} {pin : Pin}

theorem type_kept_iff (t : PinType) : t = (t.setWidth 8).setWidth 64 ↔ t.toNat < 256 := by
  rw [← BitVec.toNat_inj, BitVec.toNat_setWidth, BitVec.toNat_setWidth]
  have bound := t.isLt
  omega

theorem rf_kept_iff (n : ℤ) : n = (BitVec.ofInt 8 n).toNat ↔ 0 ≤ n ∧ n < 256 := by
  rw [BitVec.toNat_ofInt]
  omega

theorem ofUnixMilli_unixMilli_iff (t : Time) :
    t = ofUnixMilli (unixMilli t) ↔ ∃ millis : ℤ, -2 ^ 63 ≤ millis ∧ millis < 2 ^ 63 ∧ t.nanos = millis * 10 ^ 6 := by
  constructor
  · intro same
    refine ⟨(unixMilli t).toInt, (unixMilli t).le_toInt, (unixMilli t).toInt_lt, ?_⟩
    exact congrArg Time.nanos same
  · rintro ⟨millis, lower, upper, whole⟩
    obtain ⟨nanos⟩ := t
    dsimp only at whole
    subst whole
    have read : (Int64.ofInt millis).toInt = millis := Int64.toInt_ofInt_of_le lower upper
    rw [ofUnixMilli, unixMilli, Int.mul_ediv_cancel _ (by decide), read]

theorem expireAt_kept_iff (t : Time) : t = (match (if !t.isZero then some (unixMilli t) else none : Option Int64) with
      | none => Time.zero
      | some ttl => ofUnixMilli ttl) ↔
    t.isZero = true ∨ ∃ millis : ℤ, -2 ^ 63 ≤ millis ∧ millis < 2 ^ 63 ∧ t.nanos = millis * 10 ^ 6 := by
  cases zero : t.isZero with
  | true => exact iff_of_true (of_decide_eq_true zero) (Or.inl rfl)
  | false => exact (ofUnixMilli_unixMilli_iff t).trans (by simp)

theorem name_kept : ((rowMetadata codecs pin).lookup "name").getD "" = pin.name := by
  unfold rowMetadata
  have named : ((if pin.name ≠ "" then (∅ : Metadata).insert "name" pin.name else ∅).lookup
      "name").getD "" = pin.name := by
    split
    · rw [AList.lookup_insert]; rfl
    next isEmpty => exact (not_not.mp isEmpty).symm
  cases pin.reference with
  | none => exact named
  | some reference =>
    dsimp only
    rw [AList.lookup_insert_ne (by decide)]
    exact named

variable (laws : TextLaws codecs)

include laws

theorem reference_kept_iff :
    pin.reference = ((rowMetadata codecs pin).lookup "reference").bind (fun ref => (codecs.decodeCid ref).toOption) ↔
      ∀ c, pin.reference = some c → c.defined = true := by
  unfold rowMetadata
  cases isReference : pin.reference with
  | none =>
    refine iff_of_true ?_ nofun
    dsimp only
    split
    · rw [AList.lookup_insert_ne (by decide)]; rfl
    · rfl
  | some c =>
    dsimp only
    rw [AList.lookup_insert, Option.bind_some]
    cases defined : c.defined with
    | true =>
      refine iff_of_true ?_ fun c' same => ?_
      · rw [laws.cid c defined]
        rfl
      · rwa [← Option.some_inj.mp same]
    | false =>
      refine iff_of_false ?_ fun allDefined => ?_
      · obtain ⟨err, failed⟩ := laws.undef c defined
        rw [failed]
        nofun
      · exact absurd (defined.symm.trans (allDefined c rfl)) (by decide)

theorem allocations_kept_iff (peers : List PeerID) :
    sortedPeers codecs peers = sortedPeers codecs [] ↔ peers = [] ∨ peers = [""] := by
  have sorted := perm_insertionSort (· ≤ ·) (peersToStrings codecs peers)
  have text_eq (p : PeerID) : (if p ≠ "" then codecs.peerString p else "") = "" ↔ p = "" := by
    split
    next present => exact iff_of_false (laws.peer p present) present
    next absent => exact iff_of_true rfl (not_not.mp absent)
  change join ',' ((peersToStrings codecs peers).insertionSort (· ≤ ·)) = "" ↔ _
  rw [join_eq_empty_iff]
  refine or_congr ?_ ?_
  · rw [← length_eq_zero_iff, sorted.length_eq, peersToStrings, length_map, length_eq_zero_iff]
  · constructor
    · intro only
      rw [only] at sorted
      have texts : peersToStrings codecs peers = [""] := perm_singleton.mp sorted.symm
      obtain ⟨p, rfl⟩ : ∃ p, peers = [p] := by
        apply length_eq_one_iff.mp
        have count := congrArg List.length texts
        rwa [peersToStrings, length_map] at count
      rw [(text_eq p).mp (List.cons.inj texts).1]
    · rintro rfl
      rfl

variable (origins : List Multiaddr)

include origins

theorem mem_origins (o : Multiaddr) : o ∈ (((origins.map codecs.multiaddrString).toFinset.sort (· ≤ ·)).filterMap
      fun tag => (codecs.newMultiaddr tag).toOption) ↔ o ∈ origins := by
  rw [mem_filterMap]
  constructor
  · rintro ⟨tag, member, read⟩
    obtain ⟨origin, listed, rfl⟩ := mem_map.mp (mem_toFinset.mp ((Finset.mem_sort _).mp member))
    rw [laws.multiaddr] at read
    rwa [← Option.some_inj.mp read]
  · intro listed
    refine ⟨codecs.multiaddrString o, (Finset.mem_sort _).mpr (mem_toFinset.mpr (mem_map_of_mem listed)), ?_⟩
    rw [laws.multiaddr]
    rfl

theorem length_origins : (((origins.map codecs.multiaddrString).toFinset.sort (· ≤ ·)).filterMap
      fun tag => (codecs.newMultiaddr tag).toOption).length = origins.dedup.length := by
  have injective : Function.Injective codecs.multiaddrString := by
    intro o o' same
    have read := laws.multiaddr o
    rw [same, laws.multiaddr o'] at read
    exact (Except.ok.inj read).symm
  have all_read : ∀ tag ∈ (origins.map codecs.multiaddrString).toFinset.sort (· ≤ ·),
      (codecs.newMultiaddr tag).toOption.isSome = true := by
    intro tag member
    obtain ⟨origin, listed, rfl⟩ := mem_map.mp (mem_toFinset.mp ((Finset.mem_sort _).mp member))
    rw [laws.multiaddr]
    rfl
  rw [filterMap_length_eq_length.mpr all_read, Finset.length_sort, card_toFinset,
    dedup_map_of_injective injective, length_map]

theorem origins_kept_iff : (origins.length = (((origins.map codecs.multiaddrString).toFinset.sort (· ≤ ·)).filterMap
        fun tag => (codecs.newMultiaddr tag).toOption).length ∧
      (origins.all fun o1 => (((origins.map codecs.multiaddrString).toFinset.sort (· ≤ ·)).filterMap
        fun tag => (codecs.newMultiaddr tag).toOption).any fun o2 => o1 = o2) = true) ↔ origins.Nodup := by
  have found : (origins.all fun o1 => (((origins.map codecs.multiaddrString).toFinset.sort (· ≤ ·)).filterMap
      fun tag => (codecs.newMultiaddr tag).toOption).any fun o2 => o1 = o2) = true := by
    refine all_eq_true.mpr fun o listed => any_eq_true.mpr ⟨o, ?_, decide_eq_true rfl⟩
    exact (mem_origins laws origins o).mpr listed
  rw [length_origins laws, and_iff_left found]
  constructor
  · intro same
    rw [← dedup_eq_self]
    exact (dedup_sublist origins).eq_of_length same.symm
  · intro nodup
    rw [dedup_eq_self.mpr nodup]

end

/-- A pin whose fields fit into the columns of its row; what no column is for has to be absent. -/
structure FitsRow (pin : Pin) : Prop where
  type : pin.type.toNat < 256
  maxDepth : pin.maxDepth = -1
  mode : pin.mode = PinMode.recursive
  reference : ∀ c, pin.reference = some c → c.defined = true
  allocations : pin.allocations = [] ∨ pin.allocations = [""]
  replicationFactor : 0 ≤ pin.replicationFactorMin ∧ pin.replicationFactorMin < 256
  sameFactors : pin.replicationFactorMax = pin.replicationFactorMin
  shardSize : pin.shardSize = 0
  userAllocations : pin.userAllocations = []
  expireAt : pin.expireAt.isZero = true ∨
    ∃ millis : ℤ, -2 ^ 63 ≤ millis ∧ millis < 2 ^ 63 ∧ pin.expireAt.nanos = millis * 10 ^ 6
  metadata : ∀ k v, pin.metadata.lookup k = some v → k ≠ "" → v = ""
  origins : pin.origins.Nodup

theorem equals_fromRow_iff {codecs : TextCodecs} (laws : TextLaws codecs) (pin : Pin) (createdAt now : Time) :
    pin.equals codecs (fromRow codecs pin.cid { toRow codecs pin now now with createdAt := createdAt }) = true ↔
      FitsRow pin := by
  simp only [Pin.equals, PinOptions.equals, fromRow, toRow, Bool.and_eq_true, decide_eq_true_iff, name_kept, true_and]
  rw [type_kept_iff, reference_kept_iff laws, allocations_kept_iff laws, Proofs.Api.includesMetadata_iff, rf_kept_iff]
  constructor
  · rintro ⟨⟨⟨⟨type, maxDepth⟩, reference⟩, allocations⟩,
      ⟨⟨⟨⟨⟨⟨⟨⟨mode, maxFactor⟩, factor⟩, shardSize⟩, nobody⟩, -⟩, expireAt⟩, metadata⟩, count⟩, found⟩
    have minFactor := (rf_kept_iff _).mpr factor
    exact ⟨type, maxDepth, mode, reference, allocations, factor, maxFactor.trans minFactor.symm, shardSize,
      length_eq_zero_iff.mp nobody, (expireAt_kept_iff _).mp expireAt, metadata, (origins_kept_iff laws _).mp ⟨count, found⟩⟩
  · intro fits
    obtain ⟨count, found⟩ := (origins_kept_iff laws _).mpr fits.origins
    have minFactor := (rf_kept_iff _).mpr fits.replicationFactor
    refine ⟨⟨⟨⟨fits.type, fits.maxDepth⟩, fits.reference⟩, fits.allocations⟩,
      ⟨⟨⟨⟨⟨⟨⟨⟨fits.mode, fits.sameFactors.trans minFactor⟩, fits.replicationFactor⟩, fits.shardSize⟩, ?_⟩, ?_⟩,
        (expireAt_kept_iff _).mpr fits.expireAt⟩, fits.metadata⟩, count⟩, found⟩
    · rw [fits.userAllocations]
    · rw [fits.userAllocations]

end IpfsCluster.Proofs.State
