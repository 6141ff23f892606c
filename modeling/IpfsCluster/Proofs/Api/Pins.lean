import IpfsCluster.Golang.Fallible
import IpfsCluster.Model.Api.Query
import IpfsCluster.Model.State.DsState

/-! # Equivalent pins and the stored form of a pin

Most fields are compared through a value that both pins have to share; the metadata and the origins are compared in one
direction. Reading a message gives a pin in canonical form, which storing and reading back changes only in the order of
its metadata.
-/

namespace IpfsCluster.Proofs.Api

open AList Golang.Fallible List Model Model.Api Except Time PinOptions

section

variable (codecs : TextCodecs)

structure Shared where
  cid : Cid
  type : PinType
  maxDepth : PinDepth
  reference : Option Cid
  allocations : String
  name : String
  mode : PinMode
  replicationFactorMax : ℤ
  replicationFactorMin : ℤ
  shardSize : BitVec 64
  userAllocations : ℕ × String
  expireAt : Time
  origins : ℕ

def shared (pin : Pin) : Shared where
  cid := pin.cid
  type := pin.type
  maxDepth := pin.maxDepth
  reference := pin.reference
  allocations := sortedPeers codecs pin.allocations
  name := pin.name
  mode := pin.mode
  replicationFactorMax := pin.replicationFactorMax
  replicationFactorMin := pin.replicationFactorMin
  shardSize := pin.shardSize
  userAllocations := (pin.userAllocations.length, sortedPeers codecs pin.userAllocations)
  expireAt := pin.expireAt
  origins := pin.origins.length

variable {codecs} {p q r : Pin}

theorem equals_iff : p.equals codecs q = true ↔
      shared codecs p = shared codecs q ∧ includesMetadata p.metadata q.metadata = true ∧
        ∀ o ∈ p.origins, o ∈ q.origins := by
  simp only [Pin.equals, equals, shared, Shared.mk.injEq, Prod.mk.injEq, Bool.and_eq_true,
    decide_eq_true_iff, all_eq_true, any_eq_true, exists_eq_right']
  tauto

section

variable {metadata metadata2 metadata3 : Metadata}

theorem includesMetadata_iff : includesMetadata metadata metadata2 = true ↔
      ∀ key value, metadata.lookup key = some value → key ≠ "" → value = (metadata2.lookup key).getD "" := by
  rw [includesMetadata, all_eq_true]
  constructor
  · intro included key value found named
    have here := included ⟨key, value⟩ (mem_entries_iff.mpr found)
    rw [Bool.or_eq_true, decide_eq_true_iff, decide_eq_true_iff] at here
    exact here.resolve_left named
  · intro included ⟨key, value⟩ member
    rw [Bool.or_eq_true, decide_eq_true_iff, decide_eq_true_iff]
    by_cases named : key = ""
    · exact .inl named
    · exact .inr (included key value (mem_entries_iff.mp member) named)

theorem includesMetadata_swap_iff (included : includesMetadata metadata metadata2 = true) :
    includesMetadata metadata2 metadata = true ↔
      ∀ key value, metadata2.lookup key = some value → key ≠ "" → value ≠ "" → key ∈ metadata := by
  rw [includesMetadata_iff] at included ⊢
  constructor
  · intro back key value found named filled
    rw [← lookup_isSome]
    cases other : metadata.lookup key with
    | some _ => rfl
    | none => exact absurd (back key value found named) (by rw [other]; exact filled)
  · intro present key value found named
    cases other : metadata.lookup key with
    | some value' => rw [Option.getD_some, included key value' other named, found, Option.getD_some]
    | none =>
      by_contra filled
      have member := present key value found named filled
      rw [← lookup_isSome, other] at member
      cases member

theorem includesMetadata_trans_iff (first : includesMetadata metadata metadata2 = true)
    (second : includesMetadata metadata2 metadata3 = true) : includesMetadata metadata metadata3 = true ↔
      ∀ key ∈ metadata, key ≠ "" → key ∉ metadata2 → (metadata3.lookup key).getD "" = "" := by
  rw [includesMetadata_iff] at first second ⊢
  constructor
  · intro through key member named absent
    obtain ⟨value, found⟩ := Option.isSome_iff_exists.mp (lookup_isSome.mpr member)
    rw [← through key value found named, first key value found named, lookup_eq_none.mpr absent, Option.getD_none]
  · intro empty key value found named
    have kept := first key value found named
    cases other : metadata2.lookup key with
    | some value' =>
      rw [other, Option.getD_some] at kept
      rw [kept]
      exact second key value' other named
    | none =>
      rw [other, Option.getD_none] at kept
      rw [kept, empty key (lookup_isSome.mp (Option.isSome_iff_exists.mpr ⟨value, found⟩)) named
        (lookup_eq_none.mp other)]

end

theorem equals_refl (p : Pin) : p.equals codecs p = true :=
  equals_iff.mpr ⟨rfl, includesMetadata_iff.mpr fun key value found _ => by rw [found, Option.getD_some], fun _ member => member⟩

theorem equals_swap_iff (equal : p.equals codecs q = true) : q.equals codecs p = true ↔
      (∀ key value, q.metadata.lookup key = some value → key ≠ "" → value ≠ "" → key ∈ p.metadata) ∧
        ∀ o ∈ q.origins, o ∈ p.origins := by
  obtain ⟨same, included, -⟩ := equals_iff.mp equal
  rw [equals_iff, includesMetadata_swap_iff included]
  exact and_iff_right same.symm

theorem equals_trans_iff (first : p.equals codecs q = true) (second : q.equals codecs r = true) :
    p.equals codecs r = true ↔
      ∀ key ∈ p.metadata, key ≠ "" → key ∉ q.metadata → (r.metadata.lookup key).getD "" = "" := by
  obtain ⟨same, included, within⟩ := equals_iff.mp first
  obtain ⟨same', included', within'⟩ := equals_iff.mp second
  rw [equals_iff, includesMetadata_trans_iff included included']
  constructor
  · exact fun equal => equal.2.1
  · exact fun empty => ⟨same.trans same', empty, fun o member => within' o (within o member)⟩

end

private theorem mapM_eq_ok_iff (decode : String → Except Error String) {err : Error}
    (spec : ∀ bytes, decode bytes = if bytes = "" then .error err else .ok bytes) (items result : List String) :
    items.mapM decode = .ok result ↔ result = items ∧ ∀ item ∈ items, item ≠ "" := by
  induction items generalizing result with
  | nil =>
    constructor
    · intro done
      cases done
      exact ⟨rfl, nofun⟩
    · rintro ⟨rfl, -⟩
      rfl
  | cons item rest ih =>
    rw [mapM_cons, spec, forall_mem_cons]
    by_cases blank : item = ""
    · rw [if_pos blank]
      exact iff_of_false nofun fun proper => proper.2.1 blank
    · simp only [if_neg blank, result_bind_eq_ok, ok.injEq, exists_eq_left', ih]
      constructor
      · rintro ⟨tail, ⟨rfl, proper⟩, done⟩
        exact ⟨(ok.inj done).symm, blank, proper⟩
      · rintro ⟨rfl, -, proper⟩
        exact ⟨rest, ⟨rfl, proper⟩, rfl⟩

private theorem mapM_ne_notFound (decode : String → Except Error String) {message : String}
    (spec : ∀ bytes, decode bytes = if bytes = "" then .error (.text message) else .ok bytes) (items : List String) :
    items.mapM decode ≠ .error .notFound := by
  induction items with
  | nil =>
    intro failed
    cases failed
  | cons item rest ih =>
    rw [mapM_cons, spec]
    split
    · intro failed
      cases failed
    · cases read : rest.mapM decode with
      | error err =>
        rw [read] at ih
        simpa only [bind, Except.bind, read] using ih
      | ok tail => simp [bind, Except.bind, pure, Except.pure]

def decoded (c : Cid) (data : Pb.Pin) : Pin where
  cid := c
  type := 1#64 <<< data.type
  allocations := data.allocations
  maxDepth := data.maxDepth.toInt
  reference := castCid data.reference
  timestamp := ofProto data.timestamp
  replicationFactorMin := data.options.replicationFactorMin.toInt
  replicationFactorMax := data.options.replicationFactorMax.toInt
  name := data.options.name
  shardSize := data.options.shardSize
  expireAt := ofProto data.options.expireAt
  metadata := data.options.sortedMetadata.foldl (fun metadata md => metadata.insert md.1 md.2) data.options.metadata
  pinUpdate := (castCid data.options.pinUpdate).getD Cid.undef
  mode := PinDepth.toPinMode data.maxDepth.toInt
  origins := data.options.origins

structure Readable (data : Pb.Pin) : Prop where
  allocations : ∀ alloc ∈ data.allocations, alloc ≠ ""
  origins : ∀ origin ∈ data.options.origins, origin ≠ ""

theorem protoUnmarshal_eq_ok_iff (data : Pb.Pin) (pin : Pin) : Pin.protoUnmarshal data = .ok pin ↔
      Readable data ∧ pin = decoded ((castCid data.cid).getD Cid.undef) data := by
  have allocations := mapM_eq_ok_iff idFromBytes (fun _ => rfl) data.allocations
  have origins := mapM_eq_ok_iff newMultiaddrBytes (fun _ => rfl) data.options.origins
  simp only [Pin.protoUnmarshal]
  simp only [result_bind_eq_ok, allocations, origins]
  constructor
  · rintro ⟨_, ⟨rfl, properAllocs⟩, _, ⟨rfl, properOrigins⟩, read⟩
    exact ⟨⟨properAllocs, properOrigins⟩, (ok.inj read).symm⟩
  · rintro ⟨readable, rfl⟩
    exact ⟨_, ⟨rfl, readable.allocations⟩, _, ⟨rfl, readable.origins⟩, rfl⟩

theorem deserializePin_eq_ok_iff (c : Cid) (data : Pb.Pin) (pin : Pin) :
    DsState.deserializePin c data = .ok pin ↔ Readable data ∧ pin = decoded c data := by
  unfold DsState.deserializePin
  constructor
  · intro read
    cases unmarshaled : Pin.protoUnmarshal data with
    | error err => simp [unmarshaled, Except.map] at read
    | ok stored =>
      rw [unmarshaled] at read
      obtain ⟨readable, rfl⟩ := (protoUnmarshal_eq_ok_iff data stored).mp unmarshaled
      exact ⟨readable, (ok.inj read).symm⟩
  · rintro ⟨readable, rfl⟩
    rw [(protoUnmarshal_eq_ok_iff data _).mpr ⟨readable, rfl⟩]
    rfl

theorem ofProto_toProto {t : Time} (lower : -2 ^ 63 ≤ t.unix) (upper : t.unix < 2 ^ 63) :
    ofProto t.toProto = if t.unix = 0 then zero else ofUnix t.unix := by
  have kept : (BitVec.ofInt 64 t.unix).toInt = t.unix := by
    rw [BitVec.toInt_ofInt]
    apply Int.bmod_eq_of_le <;> omega
  by_cases zero : t = zero
  · rw [zero]
    decide
  by_cases epoch : t = unixZero
  · rw [epoch]
    decide
  have toSeconds : t.toProto = BitVec.ofInt 64 t.unix := by
    simp [toProto, isZero, zero, epoch]
  have none_iff : BitVec.ofInt 64 t.unix = 0 ↔ t.unix = 0 := by
    constructor
    · intro none
      rw [← kept, none]
      rfl
    · intro none
      rw [none]
      rfl
  simp only [toSeconds, ofProto, none_iff, kept]

theorem ofProto_toProto_ofProto (seconds : BitVec 64) : ofProto (ofProto seconds).toProto = ofProto seconds := by
  by_cases none : seconds = 0
  · subst none
    decide
  have unix : (ofProto seconds).unix = seconds.toInt := by
    rw [ofProto, if_neg none]
    simp only [unix, ofUnix]
    omega
  have nonzero : seconds.toInt ≠ 0 := fun zero => none (BitVec.eq_of_toInt_eq zero)
  have lower := BitVec.le_toInt seconds
  have upper := @BitVec.toInt_lt 64 seconds
  rw [ofProto_toProto (by omega) (by omega), unix, if_neg nonzero, ofProto, if_neg none]

theorem convertPinType_shiftLeft : ∀ k < 64, convertPinType (1#64 <<< k) = k := by
  decide

variable {c : Cid}

theorem castCid_bytes (isDefined : c.defined = true) : castCid c.bytes = some c :=
  if_neg (by simpa [Cid.defined] using isDefined)

theorem castCid_bytes_getD (c : Cid) : (castCid c.bytes).getD Cid.undef = c := by
  unfold castCid
  split
  next blank => exact congrArg Cid.mk blank.symm
  · rfl

theorem lookup_foldl_insert (keys : List String) (value : String → String) (base : Metadata) (key : String) :
    (keys.foldl (fun metadata k => metadata.insert k (value k)) base).lookup key =
      if key ∈ keys then some (value key) else base.lookup key := by
  induction keys generalizing base with
  | nil => rfl
  | cons first rest ih =>
    rw [foldl_cons, ih]
    by_cases later : key ∈ rest
    · rw [if_pos later, if_pos (mem_cons_of_mem _ later)]
    · rw [if_neg later]
      by_cases here : key = first
      · subst here
        rw [if_pos (mem_cons_self ..), lookup_insert]
      · rw [lookup_insert_ne here, if_neg (by simp [here, later])]

theorem sortedMetadata_perm (metadata : Metadata) :
    ((sortedMetadata metadata).foldl (fun metadata md => metadata.insert md.1 md.2)
      (∅ : Metadata)).entries.Perm metadata.entries := by
  have same (key : String) : ((sortedMetadata metadata).foldl (fun metadata md => metadata.insert md.1 md.2)
      (∅ : Metadata)).lookup key = metadata.lookup key := by
    have sorted : key ∈ metadata.keys.insertionSort (· ≤ ·) ↔ key ∈ metadata :=
      (perm_insertionSort _ _).mem_iff
    rw [sortedMetadata, foldl_map, lookup_foldl_insert _ (fun key => (metadata.lookup key).getD "")]
    by_cases present : key ∈ metadata
    · rw [if_pos (sorted.mpr present)]
      obtain ⟨found, stored⟩ := Option.isSome_iff_exists.mp (lookup_isSome.mpr present)
      rw [stored]
      rfl
    · rw [if_neg (fun member => present (sorted.mp member)), lookup_eq_none.mpr present, lookup_empty]
  exact lookup_ext (AList.nodupKeys _) (AList.nodupKeys _) fun key value => Iff.of_eq (congrArg (value ∈ ·) (same key))

private theorem insertionSort_eq_of_perm {keys keys' : List String} (perm : keys.Perm keys') :
    keys.insertionSort (· ≤ ·) = keys'.insertionSort (· ≤ ·) := by
  refine List.Perm.eq_of_pairwise' (pairwise_insertionSort _ _) (pairwise_insertionSort _ _) ?_
  exact ((perm_insertionSort _ _).trans perm).trans (perm_insertionSort _ _).symm

theorem collectMetadata_eq (order : Golang.MapOrder) (metadata : Metadata) :
    Pin.collectMetadata order metadata = sortedMetadata metadata := by
  rw [Pin.collectMetadata, insertionSort_eq_of_perm (order.visit_perm [] metadata.keys), sortedMetadata]

theorem sortedMetadata_congr {metadata metadata' : Metadata}
    (same : ∀ key, metadata.lookup key = metadata'.lookup key) : sortedMetadata metadata = sortedMetadata metadata' := by
  have keys : metadata.keys.Perm metadata'.keys := by
    refine (perm_ext_iff_of_nodup metadata.keys_nodup metadata'.keys_nodup).mpr fun key => ?_
    rw [← AList.mem_keys, ← AList.mem_keys, ← AList.lookup_isSome, ← AList.lookup_isSome, same]
  rw [sortedMetadata, sortedMetadata, insertionSort_eq_of_perm keys]
  simp only [same]

theorem protoMarshal_eq (pin : Pin) : pin.protoMarshal = { Pin.protoMarshal { pin with metadata := ∅ } with
      options := { (Pin.protoMarshal { pin with metadata := ∅ }).options with
        sortedMetadata := sortedMetadata pin.metadata } } := rfl

theorem protoMarshalBytes_eq {Bytes : Type} (encoder : Pin.Encoder Bytes) (order : Golang.MapOrder) (pin : Pin) :
    pin.protoMarshalBytes encoder order = (pin.allocations.mapM encoder.marshalID).bind fun allocs =>
      encoder.marshal (order.inside [1]) { pin.protoMarshal with allocations := allocs } := by
  rw [Pin.protoMarshalBytes, collectMetadata_eq]
  rfl

/-- Equal options, the metadata as a map. -/
structure SameOptions (opts opts' : PinOptions) : Prop where
  metadata : opts.metadata.entries.Perm opts'.metadata.entries
  rest : { opts with metadata := ∅ } = { opts' with metadata := ∅ }

theorem SameOptions.symm {opts opts' : PinOptions} (same : SameOptions opts opts') : SameOptions opts' opts :=
  ⟨same.metadata.symm, same.rest.symm⟩

theorem SameOptions.trans {opts opts' opts'' : PinOptions} (first : SameOptions opts opts')
    (second : SameOptions opts' opts'') : SameOptions opts opts'' :=
  ⟨first.metadata.trans second.metadata, first.rest.trans second.rest⟩

/-- The form of every pin that is read from the state. -/
structure Canonical (pin : Pin) : Prop where
  rplMin : (BitVec.ofInt 32 pin.replicationFactorMin).toInt = pin.replicationFactorMin
  rplMax : (BitVec.ofInt 32 pin.replicationFactorMax).toInt = pin.replicationFactorMax
  maxDepth : (BitVec.ofInt 32 pin.maxDepth).toInt = pin.maxDepth
  mode : pin.mode = PinDepth.toPinMode pin.maxDepth
  userAllocations : pin.userAllocations = []
  expireAt : ofProto pin.expireAt.toProto = pin.expireAt
  allocations : ∀ alloc ∈ pin.allocations, alloc ≠ ""
  origins : ∀ origin ∈ pin.origins, origin ≠ ""

theorem canonical_decoded {data : Pb.Pin} (readable : Readable data) : Canonical (decoded c data) where
  rplMin := congrArg BitVec.toInt (BitVec.ofInt_toInt)
  rplMax := congrArg BitVec.toInt (BitVec.ofInt_toInt)
  maxDepth := congrArg BitVec.toInt (BitVec.ofInt_toInt)
  mode := rfl
  userAllocations := rfl
  expireAt := ofProto_toProto_ofProto _
  allocations := readable.allocations
  origins := readable.origins

variable {st : DsState} {pin : Pin}

theorem get_eq_ok_iff :
    st.get c = .ok pin ↔ ∃ data, st.store.lookup c = some data ∧ Readable data ∧ pin = decoded c data := by
  unfold DsState.get
  cases st.store.lookup c with
  | none =>
    constructor
    · intro read
      cases read
    · rintro ⟨data, found, -⟩
      cases found
  | some data =>
    simp [deserializePin_eq_ok_iff, exists_eq_left']

theorem get_ne_notFound {data : Pb.Pin} (stored : st.store.lookup c = some data) : st.get c ≠ .error .notFound := by
  have allocations := mapM_ne_notFound idFromBytes (fun _ => rfl) data.allocations
  have origins := mapM_ne_notFound newMultiaddrBytes (fun _ => rfl) data.options.origins
  simp only [DsState.get, stored, DsState.deserializePin, Pin.protoUnmarshal]
  cases readAllocs : data.allocations.mapM idFromBytes with
  | error err => simpa [readAllocs, bind, Except.bind, Except.map] using allocations
  | ok allocs =>
    cases readOrigins : data.options.origins.mapM newMultiaddrBytes with
    | error err => simpa [readAllocs, readOrigins, bind, Except.bind, Except.map] using origins
    | ok origs => simp [bind, Except.bind, Except.map, pure, Except.pure]

theorem canonical_of_get (read : st.get c = .ok pin) : Canonical pin := by
  obtain ⟨data, -, readable, rfl⟩ := get_eq_ok_iff.mp read
  exact canonical_decoded readable

theorem get_add_self (st : DsState) (readable : Readable pin.protoMarshal) :
    (st.add pin).get pin.cid = .ok (decoded pin.cid pin.protoMarshal) :=
  get_eq_ok_iff.mpr ⟨_, lookup_insert _, readable, rfl⟩

theorem get_add_of_ne (st : DsState) (other : c ≠ pin.cid) : (st.add pin).get c = st.get c := by
  simp only [DsState.get, DsState.add, lookup_insert_ne other]

theorem get_add_canonical (st : DsState) (canonical : Canonical pin) :
    ∃ stored, (st.add pin).get pin.cid = .ok stored ∧ stored.allocations = pin.allocations ∧
      SameOptions pin.toPinOptions stored.toPinOptions := by
  refine ⟨_, get_add_self st ⟨canonical.allocations, canonical.origins⟩, rfl, ?_, ?_⟩
  · exact (sortedMetadata_perm pin.metadata).symm
  · simp only [decoded, Pin.protoMarshal, canonical.rplMin, canonical.rplMax, canonical.maxDepth,
      ← canonical.mode, canonical.expireAt, castCid_bytes_getD, ← canonical.userAllocations]

end IpfsCluster.Proofs.Api
