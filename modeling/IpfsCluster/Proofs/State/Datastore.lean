import IpfsCluster.Model.State.Datastore

/-! # The pins of a namespace

The results of a query are the pins by their CID, whatever the namespace is. Listing and dumping are functions of these
pins, and a dump is read back as the insertion of each of them.
-/

namespace IpfsCluster.Proofs.State

open Model Model.Api Model.Dsstate Golang Datastore List Function State

/-- The texts of CIDs are plain and can be decoded; nothing is the text of no CID. -/
structure KeyLaws (codec : CidKeyCodec) : Prop where
  plain : ∀ c : Cid, c.defined = true → Plain (codec.encode c)
  decode : ∀ c : Cid, c.defined = true → codec.decode (codec.encode c) = .ok c
  undef : codec.encode Cid.undef = ""

section

variable {c c' : Cid}

theorem undef_of_not_defined (undefined : c.defined = false) : c = Cid.undef := by
  obtain ⟨bytes⟩ := c
  have isEmpty : bytes = "" := by simpa [Cid.defined] using undefined
  rw [isEmpty]
  rfl

variable {codec : CidKeyCodec} (laws : KeyLaws codec)

include laws

theorem dsKeyToCid_cidToDsKey (defined : c.defined = true) : dsKeyToCid codec (cidToDsKey codec c) = .ok c := by
  have text : String.ofList (cidToDsKey codec c).string.toList.tail = codec.encode c := by
    rw [Key.string, cidToDsKey, Key.parts_ofString (laws.plain c defined), String.toList_append]
    change String.ofList (join '/' [codec.encode c]).toList = codec.encode c
    rw [String.ofList_toList, join, map_singleton, intercalate_singleton, String.ofList_toList]
  rw [dsKeyToCid, text, laws.decode c defined]

section

variable (st : State) (defined : c.defined = true)

include st defined

theorem unkey_key : unkey codec (st.key codec c) = .ok c := by
  have base : (st.key codec c).baseNamespace = codec.encode c :=
    Key.baseNamespace_child_ofString st.ns (laws.plain c defined)
  rw [unkey, base]
  exact dsKeyToCid_cidToDsKey laws defined

theorem key_injective (defined' : c'.defined = true) (same : st.key codec c = st.key codec c') : c = c' := by
  have read := unkey_key laws st defined
  rw [same, unkey_key laws st defined'] at read
  exact (Except.ok.inj read).symm

theorem above_key : st.ns.above (st.key codec c) = true :=
  Key.above_child_ofString st.ns (laws.plain c defined)

end

theorem key_undef (st : State) : st.key codec Cid.undef = st.ns := by
  apply Key.ext
  rw [key, cidToDsKey, laws.undef]
  exact append_nil _

end

def Within (st : State) (k : Key) : Prop := st.ns.parts <+: k.parts

/-- The keys of the namespace are those of CIDs. -/
def Contents (codec : CidKeyCodec) (st : State) : Prop :=
  ∀ k ∈ st.datastore, Within st k → ∃ c : Cid, c.defined = true ∧ k = st.key codec c

def pinEntries (codec : CidKeyCodec) (order : MapOrder) (st : State) : List (Cid × Pb.Pin) :=
  ((order.visit [] st.datastore.entries).filter fun entry => st.ns.above entry.1).map fun entry =>
    ((unkey codec entry.1).toOption.getD Cid.undef, entry.2)

section

variable {codec : CidKeyCodec} {st : State} {order : MapOrder}

theorem within_of_above {k : Key} (above : st.ns.above k = true) : Within st k :=
  isPrefixOf_iff_prefix.mp (Bool.and_eq_true_iff.mp above).1

theorem within_key (codec : CidKeyCodec) (st : State) (c : Cid) : Within st (st.key codec c) := prefix_append _ _

variable (laws : KeyLaws codec) (contents : Contents codec st)

include laws contents

theorem exists_cid_of_mem {entry : Sigma fun _ : Key => Pb.Pin}
    (member : entry ∈ (order.visit [] st.datastore.entries).filter fun entry => st.ns.above entry.1) :
    ∃ c : Cid, c.defined = true ∧ entry.1 = st.key codec c ∧ unkey codec entry.1 = .ok c ∧
      st.datastore.lookup (st.key codec c) = some entry.2 := by
  obtain ⟨visited, above⟩ := mem_filter.mp member
  have found := AList.mem_entries_iff.mp ((order.mem_visit _ _ _).mp visited)
  obtain ⟨c, defined, same⟩ := contents entry.1 (AList.lookup_isSome.mp (by rw [found]; rfl)) (within_of_above above)
  refine ⟨c, defined, same, ?_, ?_⟩
  · rw [same]
    exact unkey_key laws st defined
  · rw [← same]
    exact found

theorem query_eq : st.datastore.query order st.ns =
    (pinEntries codec order st).map fun pin => ((st.key codec pin.1).string, pin.2) := by
  rw [Store.query, pinEntries, map_map]
  refine map_congr_left fun entry member => ?_
  obtain ⟨c, -, same, read, -⟩ := exists_cid_of_mem laws contents member
  simp [read, Except.toOption, ← same]

theorem mem_pinEntries {c : Cid} {data : Pb.Pin} : (c, data)
    ∈ pinEntries codec order st ↔ c.defined = true ∧ st.datastore.lookup (st.key codec c) = some data := by
  constructor
  · intro member
    obtain ⟨entry, listed, same⟩ := mem_map.mp member
    obtain ⟨c', defined, -, read, found⟩ := exists_cid_of_mem laws contents listed
    rw [read] at same
    cases same
    exact ⟨defined, found⟩
  · rintro ⟨defined, found⟩
    refine mem_map.mpr ⟨⟨st.key codec c, data⟩, mem_filter.mpr ⟨?_, above_key laws st defined⟩, ?_⟩
    · exact (order.mem_visit _ _ _).mpr (AList.mem_entries_iff.mpr found)
    · rw [unkey_key laws st defined]
      rfl

theorem nodup_pinEntries : ((pinEntries codec order st).map Prod.fst).Nodup := by
  have keys : (((order.visit [] st.datastore.entries).filter fun entry => st.ns.above entry.1).map Sigma.fst).Nodup := by
    have visited : ((order.visit [] st.datastore.entries).map Sigma.fst).Nodup :=
      ((order.visit_perm _ _).map _).nodup_iff.mpr st.datastore.nodupKeys
    exact visited.sublist (filter_sublist.map _)
  refine List.Nodup.of_map (st.key codec) ?_
  rw [pinEntries, map_map, map_map]
  refine (map_congr_left fun entry member => ?_) ▸ keys
  obtain ⟨c, -, same, read, -⟩ := exists_cid_of_mem laws contents member
  simp [read, Except.toOption, ← same]

theorem list_eq : (st.list codec order).1 =
    (pinEntries codec order st).filterMap fun pin => (DsState.deserializePin pin.1 pin.2).toOption := by
  change (st.datastore.query order st.ns).filterMap (listed codec) = _
  rw [query_eq laws contents, filterMap_map]
  refine filterMap_congr fun pin member => ?_
  obtain ⟨defined, -⟩ := (mem_pinEntries laws contents).mp member
  simp [listed, Key.ofString_string, unkey_key laws st defined]

theorem marshal_eq {β : Type} (handle : Handle β) : st.marshal handle order =
    (pinEntries codec order st).flatMap fun pin => handle.encode ⟨codec.encode pin.1, pin.2⟩ := by
  rw [marshal, query_eq laws contents, flatMap_map]
  refine flatMap_congr fun pin member => ?_
  obtain ⟨defined, -⟩ := (mem_pinEntries laws contents).mp member
  rw [Key.ofString_string, key, cidToDsKey, Key.baseNamespace_child_ofString _ (laws.plain pin.1 defined)]

end

/-- What was encoded is decoded, and nothing is left at the end. -/
structure InverseHandle {β : Type} (handle : Handle β) : Prop where
  decode_encode : ∀ entry rest, handle.decode (handle.encode entry ++ rest) = .entry entry rest
  decode_nil : handle.decode [] = .eof

theorem unmarshal_encoded {β : Type} {handle : Handle β} (inverse : InverseHandle handle) (entries : List SerialEntry)
    (st : State) : st.unmarshal handle (entries.flatMap handle.encode) = (none, entries.foldl put st) := by
  induction entries generalizing st with
  | nil =>
    rw [flatMap_nil, unmarshal]
    split
    · rfl
    next err failed => cases inverse.decode_nil.symm.trans failed
    next entry rest decoded => cases inverse.decode_nil.symm.trans decoded
  | cons entry rest ih =>
    rw [flatMap_cons, unmarshal]
    have decoded := inverse.decode_encode entry (rest.flatMap handle.encode)
    split
    next ended => cases decoded.symm.trans ended
    next err failed => cases decoded.symm.trans failed
    next other after read =>
      cases decoded.symm.trans read
      exact ih (st.put entry)

section

variable {codec : CidKeyCodec} {st : State}

instance (st : State) (k : Key) : Decidable (Within st k) := inferInstanceAs (Decidable (st.ns.parts <+: k.parts))

def storedKeys (st : State) : List Key := st.datastore.keys.filter fun k => Within st k

def isListed (codec : CidKeyCodec) (st : State) (entry : Sigma fun _ : Key => Pb.Pin) : Bool :=
  st.ns.above entry.1 && (listed codec (entry.1.string, entry.2)).isSome

theorem has_iff {c : Cid} : st.has codec c = true ↔ st.key codec c ∈ st.datastore.keys := AList.lookup_isSome

theorem length_storedKeys_addAsking (hasFails : Bool) (pin : Pin) :
    (storedKeys (st.addAsking codec hasFails pin)).length =
      if st.has codec pin.cid then (storedKeys st).length else (storedKeys st).length + 1 := by
  have within : decide (Within st (st.key codec pin.cid)) = true := decide_eq_true (within_key codec st pin.cid)
  have keys : (storedKeys (st.addAsking codec hasFails pin)) =
      (st.key codec pin.cid :: st.datastore.keys.erase (st.key codec pin.cid)).filter fun k => Within st k := by
    rw [storedKeys, addAsking, AList.keys_insert]
    rfl
  rw [keys]
  split_ifs with has
  · exact ((perm_cons_erase (has_iff.mp has)).symm.filter _).length_eq
  · rw [erase_of_not_mem (fun member => has (has_iff.mpr member)), filter_cons, if_pos within, length_cons, storedKeys]

theorem length_storedKeys_rm (c : Cid) :
    (storedKeys (st.rm codec c)).length + (if st.has codec c then 1 else 0) = (storedKeys st).length := by
  have within : decide (Within st (st.key codec c)) = true := decide_eq_true (within_key codec st c)
  have keys : storedKeys (st.rm codec c) = (st.datastore.keys.erase (st.key codec c)).filter fun k => Within st k := by
    rw [storedKeys, rm, AList.keys_erase]
    rfl
  rw [keys]
  split_ifs with has
  · rw [storedKeys, ((perm_cons_erase (has_iff.mp has)).filter _).length_eq, filter_cons, if_pos within, length_cons]
  · rw [erase_of_not_mem (fun member => has (has_iff.mpr member)), storedKeys, Nat.add_zero]

private theorem countP_eq_countP_iff {α : Type} {strong weak : α → Bool} (items : List α)
    (weaker : ∀ item ∈ items, strong item = true → weak item = true) :
    items.countP strong = items.countP weak ↔ ∀ item ∈ items, weak item = true → strong item = true := by
  induction items with
  | nil => simp
  | cons item items ih =>
    have rest := ih fun item member => weaker item (mem_cons_of_mem _ member)
    have fewer := countP_mono_left (p := strong) (q := weak) (l := items)
      fun item member => weaker item (mem_cons_of_mem _ member)
    have here := weaker item mem_cons_self
    rw [forall_mem_cons, ← rest, countP_cons, countP_cons]
    cases met : strong item with
    | true => simp [here met]
    | false =>
      cases met' : weak item with
      | true =>
        refine iff_of_false (fun same => ?_) fun both => Bool.false_ne_true (both.1 rfl)
        rw [if_neg Bool.false_ne_true, if_pos rfl] at same
        omega
      | false => simp

theorem length_list_eq_iff (order : MapOrder) : (st.list codec order).1.length = (storedKeys st).length ↔
      ∀ entry ∈ st.datastore.entries, Within st entry.1 → isListed codec st entry = true := by
  have listed : (st.list codec order).1.length = st.datastore.entries.countP (isListed codec st) := by
    change ((st.datastore.query order st.ns).filterMap (listed codec)).length = _
    rw [length_filterMap_eq_countP, Store.query, countP_map, countP_filter,
      (order.visit_perm [] st.datastore.entries).countP_eq]
    refine countP_congr fun entry _ => ?_
    rw [isListed, Bool.and_comm]
    rfl
  have stored : (storedKeys st).length = st.datastore.entries.countP fun entry => Within st entry.1 := by
    rw [storedKeys, ← countP_eq_length_filter, AList.keys, List.keys, countP_map]
    rfl
  rw [listed, stored, countP_eq_countP_iff]
  · simp only [decide_eq_true_iff]
  · intro entry _ readable
    exact decide_eq_true (within_of_above (Bool.and_eq_true_iff.mp readable).1)

end

end IpfsCluster.Proofs.State
