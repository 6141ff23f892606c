import IpfsCluster.Proofs.Cluster.Pin
import IpfsCluster.Soundness.Requests

/-! # Stored forms and equality of pins

A pin whose numbers fit the widths of the message, whose type is a single bit and whose mode is the one of its depth is
read back as it was written, up to the fractions of seconds. `Equals` is reflexive, but neither symmetric nor
transitive.
-/

namespace IpfsCluster.Soundness

open Model Model.Api Golang Proofs.Api Proofs.Cluster Time

def truncated (t : Time) : Time := ofUnix t.unix

/-- The zero time stands for Unix second 0 as well. -/
def identified (t : Time) : Time := if t = unixZero then zero else t

/-- The same instant up to the second. -/
def SameSecond (t t' : Time) : Prop := identified t' = identified (truncated t)

/-- The time counts its seconds in 64 bits. -/
def IsInt64 (seconds : ℤ) : Prop := -2 ^ 63 ≤ seconds ∧ seconds < 2 ^ 63

/-- What is asked of a pin to be stored without loss. No decoder accepts an empty peer ID or an empty
multiaddress. -/
structure Storable (pin : Pin) : Prop where
  rplMin : Fits pin.replicationFactorMin
  rplMax : Fits pin.replicationFactorMax
  maxDepth : Fits pin.maxDepth
  type : ∃ bit < 64, pin.type = 1#64 <<< bit
  mode : pin.mode = PinDepth.toPinMode pin.maxDepth
  reference : ∀ ref, pin.reference = some ref → ref.defined = true
  userAllocations : pin.userAllocations = []
  timestamp : IsInt64 pin.timestamp.unix
  expireAt : IsInt64 pin.expireAt.unix
  allocations : ∀ alloc ∈ pin.allocations, alloc ≠ ""
  origins : ∀ origin ∈ pin.origins, origin ≠ ""

/-- The same pin, with the times up to the second and the metadata as a map. -/
structure SamePin (pin pin' : Pin) : Prop where
  timestamp : SameSecond pin.timestamp pin'.timestamp
  expireAt : SameSecond pin.expireAt pin'.expireAt
  metadata : pin'.metadata.entries.Perm pin.metadata.entries
  rest : { pin' with timestamp := zero, expireAt := zero, metadata := ∅ } =
    { pin with timestamp := zero, expireAt := zero, metadata := ∅ }

theorem sameSecond_ofProto_toProto {t : Time} (range : IsInt64 t.unix) : SameSecond t (ofProto t.toProto) := by
  rw [SameSecond, ofProto_toProto range.1 range.2, truncated]
  split
  next epoch =>
    rw [epoch]
    decide
  · rfl

/-- Every such pin is read back from its message. -/
theorem protoUnmarshal_protoMarshal (pin : Pin) (storable : Storable pin) :
    ∃ pin', Pin.protoUnmarshal pin.protoMarshal = .ok pin' ∧ SamePin pin pin' := by
  refine ⟨_, (protoUnmarshal_eq_ok_iff _ _).mpr ⟨⟨storable.allocations, storable.origins⟩, rfl⟩, ?_⟩
  have type : 1#64 <<< convertPinType pin.type = pin.type := by
    obtain ⟨bit, bound, single⟩ := storable.type
    rw [single, convertPinType_shiftLeft bit bound]
  have reference : castCid ((pin.reference.map (·.bytes)).getD "") = pin.reference := by
    cases present : pin.reference with
    | none => rfl
    | some ref => exact castCid_bytes (storable.reference ref present)
  refine ⟨sameSecond_ofProto_toProto storable.timestamp, sameSecond_ofProto_toProto storable.expireAt,
    sortedMetadata_perm pin.metadata, ?_⟩
  simp only [decoded, Pin.protoMarshal, castCid_bytes_getD, type, reference]
  rw [storable.rplMin, storable.rplMax, storable.maxDepth]
  rw [← storable.mode, storable.userAllocations]

def dagPin : Pin where
  cid := ⟨"dag"⟩
  type := PinType.clusterDAGType
  reference := some ⟨"root"⟩
  timestamp := ⟨1000500000000⟩
  replicationFactorMin := -1
  replicationFactorMax := -1
  mode := PinMode.direct
  metadata := (∅ : Metadata).insert "shard" "0"

theorem protoUnmarshal_protoMarshal_dagPin :
    ∃ pin', Pin.protoUnmarshal dagPin.protoMarshal = .ok pin' ∧ SamePin dagPin pin' := by
  refine protoUnmarshal_protoMarshal dagPin ⟨rfl, rfl, rfl, ⟨3, by decide, rfl⟩, rfl, ?_, rfl, ⟨?_, ?_⟩, ⟨?_, ?_⟩,
    fun _ none => (List.not_mem_nil none).elim, fun _ none => (List.not_mem_nil none).elim⟩
  · rintro ref same
    rw [← Option.some.inj same]
    decide
  · change (-2 ^ 63 : ℤ) ≤ 1000500000000 / 10 ^ 9
    decide
  · change (1000500000000 / 10 ^ 9 : ℤ) < 2 ^ 63
    decide
  · change (-2 ^ 63 : ℤ) ≤ zero.unix
    decide
  · change zero.unix < 2 ^ 63
    decide

section

variable {Bytes : Type} {encoder : Pin.Encoder Bytes} {pin pin' : Pin}

/-- Two pins with the same fields, the metadata being equal as maps, are marshaled to the same bytes or both fail,
in whatever orders maps are visited, if the encoder gives the same for a message without entries in its map. -/
theorem protoMarshalBytes_deterministic
    (deterministic : ∀ (order order' : MapOrder) (message : Pb.Pin), message.options.metadata = ∅ →
      encoder.marshal order message = encoder.marshal order' message)
    (fields : { pin with metadata := ∅ } = { pin' with metadata := ∅ })
    (metadata : ∀ key, pin.metadata.lookup key = pin'.metadata.lookup key) (order order' : MapOrder) :
    pin.protoMarshalBytes encoder order = pin'.protoMarshalBytes encoder order' := by
  have message : pin.protoMarshal = pin'.protoMarshal := by
    rw [protoMarshal_eq pin, protoMarshal_eq pin', fields, sortedMetadata_congr metadata]
  have allocations := congrArg Pin.allocations fields
  dsimp only at allocations
  rw [protoMarshalBytes_eq, protoMarshalBytes_eq, message, allocations]
  congr 1
  funext allocs
  exact deterministic _ _ _ rfl

def entriesEncoder : Pin.Encoder (List (String × String)) where
  marshalID := .ok
  marshal order message :=
    .ok ((order.visit [] message.options.metadata.entries).map (fun entry => (entry.1, entry.2)) ++
      message.options.sortedMetadata)

theorem protoMarshalBytes_deterministic_twoKeys : Pin.protoMarshalBytes entriesEncoder .stored
        { metadata := (AList.insert "a" "1" ∅ : Metadata).insert "b" "2" } =
      Pin.protoMarshalBytes entriesEncoder .stored
        { metadata := (AList.insert "b" "2" ∅ : Metadata).insert "a" "1" } := by
  refine protoMarshalBytes_deterministic (fun order order' message empty => ?_) (by rfl) (fun key => ?_) .stored .stored
  · have none (order : MapOrder) : order.visit [] message.options.metadata.entries = [] := by
      rw [empty]
      exact (order.visit_perm [] _).eq_nil
    simp only [entriesEncoder, none]
  · have other : "a" ≠ "b" := by decide
    exact AList.perm_lookup (AList.insert_insert_of_ne ∅ other)

end

/-- For any three pins, the laws of an equivalence hold exactly if the following does. When the first pin equals
the second, every non-empty value of the second one is under a key that the first one has, the empty key apart,
and every origin of the second one is one of the first. When the second one also equals the third, no key of the
first one that the second one lacks has a value in the third. -/
theorem equals_equivalence_iff (codecs : TextCodecs) (p q r : Pin) :
    (p.equals codecs p = true ∧ (p.equals codecs q = true → q.equals codecs p = true) ∧
        (p.equals codecs q = true → q.equals codecs r = true → p.equals codecs r = true)) ↔ (p.equals codecs q = true →
        (∀ key value, q.metadata.lookup key = some value → key ≠ "" → value ≠ "" → key ∈ p.metadata) ∧
          ∀ o ∈ q.origins, o ∈ p.origins) ∧ (p.equals codecs q = true → q.equals codecs r = true →
        ∀ key ∈ p.metadata, key ≠ "" → key ∉ q.metadata → (r.metadata.lookup key).getD "" = "") := by
  rw [and_iff_right (equals_refl p)]
  refine and_congr ?_ ?_
  · exact forall_congr' fun equal => equals_swap_iff equal
  · exact forall_congr' fun first => forall_congr' fun second => equals_trans_iff first second

def tagged (key value : String) : Pin := { metadata := (∅ : Metadata).insert key value }

theorem equals_not_equivalence :
    Pin.equals plainCodecs {} (tagged "k" "x") = true ∧ (tagged "k" "x").equals plainCodecs {} = false ∧
      Pin.equals plainCodecs { origins := ["a", "a"] } { origins := ["a", "b"] } = true ∧
      Pin.equals plainCodecs { origins := ["a", "b"] } { origins := ["a", "a"] } = false ∧
      (tagged "k" "").equals plainCodecs {} = true ∧
      (tagged "k" "").equals plainCodecs (tagged "k" "x") = false := by
  decide

end IpfsCluster.Soundness
