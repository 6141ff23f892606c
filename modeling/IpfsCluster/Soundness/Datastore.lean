import IpfsCluster.Proofs.State.Datastore

/-! # Pinsets in a datastore

A dump that is read into an empty state, under the same or another namespace, gives a state with the same pins. This
needs that the keys below the namespace are those of CIDs, which every change of a state preserves; the states are
refinements of plain maps from CIDs to pins.
-/

namespace IpfsCluster.Soundness

open Model Model.Api Model.Dsstate Golang Datastore Proofs.State AList List

section

variable {codec : CidKeyCodec} {st target : Dsstate.State}

def Vacant (st : Dsstate.State) : Prop := ∀ k ∈ st.datastore, ¬Within st k

theorem foldl_put_eq (codec : CidKeyCodec) (pins : List (Cid × Pb.Pin)) (target : Dsstate.State) :
    (pins.map fun pin => ⟨codec.encode pin.1, pin.2⟩).foldl State.put target =
      { target with datastore := target.datastore.insertAll (fun pin => target.key codec pin.1) Prod.snd pins } := by
  induction pins generalizing target with
  | nil => rfl
  | cons pin rest ih =>
    rw [map_cons, foldl_cons, ih]
    rfl

def copied (codec : CidKeyCodec) (order : MapOrder) (st target : Dsstate.State) : Dsstate.State :=
  { target with
    datastore := target.datastore.insertAll (fun pin => target.key codec pin.1) Prod.snd (pinEntries codec order st) }

theorem unmarshal_marshal_eq {β : Type} {handle : Handle β} (inverse : InverseHandle handle) (laws : KeyLaws codec)
    (contents : Contents codec st) (order : MapOrder) :
    target.unmarshal handle (st.marshal handle order) = (none, copied codec order st target) := by
  have entries : st.marshal handle order =
      ((pinEntries codec order st).map fun pin => ⟨codec.encode pin.1, pin.2⟩).flatMap handle.encode := by
    rw [marshal_eq laws contents, flatMap_map]
  rw [entries, unmarshal_encoded inverse, foldl_put_eq]
  rfl

section

variable (laws : KeyLaws codec) (contents : Contents codec st) (vacant : Vacant target) (order : MapOrder)

include laws contents vacant

theorem lookup_copied {c : Cid} (defined : c.defined = true) :
    (copied codec order st target).datastore.lookup (target.key codec c) = st.datastore.lookup (st.key codec c) := by
  rw [copied, lookup_insertAll]
  have absent : target.datastore.lookup (target.key codec c) = none :=
    lookup_eq_none.mpr fun member => vacant _ member (within_key codec target c)
  rw [absent, Option.or_none]
  have listed {pin : Cid × Pb.Pin} (member : pin ∈ (pinEntries codec order st).filter
      fun pin => target.key codec pin.1 = target.key codec c) : st.datastore.lookup (st.key codec c) = some pin.2 := by
    obtain ⟨entry, same⟩ := mem_filter.mp member
    obtain ⟨defined', found⟩ := (mem_pinEntries laws contents).mp entry
    rwa [key_injective laws target defined' defined (of_decide_eq_true same)] at found
  cases last : ((pinEntries codec order st).filter fun pin => target.key codec pin.1 = target.key codec c).getLast? with
  | some pin => exact (listed (mem_of_getLast? last)).symm
  | none =>
    cases found : st.datastore.lookup (st.key codec c) with
    | none => rfl
    | some data =>
      have member : (c, data) ∈ (pinEntries codec order st).filter
          fun pin => target.key codec pin.1 = target.key codec c :=
        mem_filter.mpr ⟨(mem_pinEntries laws contents).mpr ⟨defined, found⟩, decide_eq_true rfl⟩
      rw [getLast?_eq_none_iff.mp last] at member
      cases member

theorem contents_copied : Contents codec (copied codec order st target) := by
  intro k member within
  rcases (mem_insertAll _ _ _ _ _).mp member with ⟨pin, listed, same⟩ | kept
  · obtain ⟨defined, -⟩ := (mem_pinEntries laws contents).mp listed
    exact ⟨pin.1, defined, same.symm⟩
  · exact (vacant k kept within).elim

theorem pinEntries_copied (order' order'' : MapOrder) :
    (pinEntries codec order' (copied codec order st target)).Perm (pinEntries codec order'' st) := by
  have contents' := contents_copied laws contents vacant order
  refine (perm_ext_iff_of_nodup ?_ ?_).mpr fun ⟨c, data⟩ => ?_
  · exact (nodup_pinEntries laws contents').of_map
  · exact (nodup_pinEntries laws contents).of_map
  · rw [mem_pinEntries laws contents', mem_pinEntries laws contents]
    refine and_congr_right fun defined => ?_
    rw [← lookup_copied laws contents vacant order defined]
    rfl

end

theorem lookup_undef (laws : KeyLaws codec) (contents : Contents codec st) :
    st.datastore.lookup (st.key codec Cid.undef) = none := by
  rw [key_undef laws]
  refine lookup_eq_none.mpr fun member => ?_
  obtain ⟨c, defined, same⟩ := contents st.ns member prefix_rfl
  have above := above_key laws st defined
  rw [← same, Key.above] at above
  simp at above

/-- A dump of a state that is read into an empty state gives a state with the same pins. -/
theorem unmarshal_marshal_same {β : Type} {handle : Handle β} (inverse : InverseHandle handle) (laws : KeyLaws codec)
    (contents : Contents codec st) (vacant : Vacant target) (order order' order'' : MapOrder) :
    ∃ copy, target.unmarshal handle (st.marshal handle order) = (none, copy) ∧
      (∀ c, copy.get codec c = st.get codec c) ∧ (copy.list codec order').1.Perm (st.list codec order'').1 := by
  have contents' := contents_copied laws contents vacant order
  refine ⟨copied codec order st target, unmarshal_marshal_eq inverse laws contents order, fun c => ?_, ?_⟩
  · have same : (copied codec order st target).datastore.lookup ((copied codec order st target).key codec c) =
        st.datastore.lookup (st.key codec c) := by
      cases defined : c.defined with
      | true => exact lookup_copied laws contents vacant order defined
      | false =>
        rw [undef_of_not_defined defined, lookup_undef laws contents, lookup_undef laws contents']
    rw [State.get, State.get, same]
  · rw [list_eq laws contents, list_eq laws contents']
    exact (pinEntries_copied laws contents vacant order order' order'').filterMap _

end

section

variable {codec : CidKeyCodec} {st : Dsstate.State} {abstract : DsState}

/-- A namespace holds the pins of a map from CIDs. -/
structure Represents (codec : CidKeyCodec) (st : Dsstate.State) (abstract : DsState) : Prop where
  contents : Contents codec st
  lookup : ∀ c : Cid, c.defined = true → st.datastore.lookup (st.key codec c) = abstract.store.lookup c
  defined : ∀ c ∈ abstract.store, c.defined = true
  totalPins : st.totalPins = abstract.totalPins

section

variable (laws : KeyLaws codec)

include laws

variable (represents : Represents codec st abstract)

include represents

theorem Represents.lookup_all (c : Cid) : st.datastore.lookup (st.key codec c) = abstract.store.lookup c := by
  cases defined : c.defined with
  | true => exact represents.lookup c defined
  | false =>
    have absent : abstract.store.lookup c = none := lookup_eq_none.mpr fun member => by
      have isDefined := represents.defined c member
      rw [defined] at isDefined
      cases isDefined
    rw [absent, undef_of_not_defined defined]
    exact lookup_undef laws represents.contents

theorem Represents.get (c : Cid) : st.get codec c = abstract.get c := by
  cases found : abstract.store.lookup c with
  | none | some => simp only [State.get, DsState.get, represents.lookup_all laws, found]

theorem Represents.list (order : MapOrder) : (st.list codec order).1.Perm abstract.list := by
  have entries : (pinEntries codec order st).Perm (abstract.store.entries.map fun entry => (entry.1, entry.2)) := by
    refine (perm_ext_iff_of_nodup (nodup_pinEntries laws represents.contents).of_map ?_).mpr fun ⟨c, data⟩ => ?_
    · refine List.Nodup.of_map Prod.fst ?_
      rw [map_map]
      exact abstract.store.nodupKeys
    · rw [mem_pinEntries laws represents.contents, mem_map]
      constructor
      · rintro ⟨defined, found⟩
        rw [represents.lookup c defined] at found
        exact ⟨⟨c, data⟩, mem_entries_iff.mpr found, rfl⟩
      · rintro ⟨entry, member, same⟩
        cases same
        have found := mem_entries_iff.mp member
        have defined := represents.defined entry.1 (lookup_isSome.mp (by rw [found]; rfl))
        exact ⟨defined, (represents.lookup entry.1 defined).trans found⟩
  rw [list_eq laws represents.contents]
  refine (entries.filterMap _).trans ?_
  rw [filterMap_map]
  exact List.Perm.refl _

theorem Represents.add {pin : Pin} (isCid : pin.cid.defined = true) :
    Represents codec (st.add codec pin) (abstract.add pin) where
  contents k member within := by
    rcases (mem_insert _).mp member with same | kept
    · exact ⟨pin.cid, isCid, same⟩
    · exact represents.contents k kept within
  lookup c defined := by
    change (st.datastore.insert (st.key codec pin.cid) pin.protoMarshal).lookup (st.key codec c) =
      (abstract.store.insert pin.cid pin.protoMarshal).lookup c
    by_cases same : c = pin.cid
    · rw [same, lookup_insert, lookup_insert]
    · have apart : st.key codec c ≠ st.key codec pin.cid := fun equal => same (key_injective laws st defined isCid equal)
      rw [lookup_insert_ne apart, lookup_insert_ne same, represents.lookup c defined]
  defined c member := by
    rcases (mem_insert _).mp member with rfl | kept
    · exact isCid
    · exact represents.defined c kept
  totalPins := by
    have has : st.has codec pin.cid = abstract.has pin.cid := by
      rw [State.has, DsState.has, represents.lookup pin.cid isCid]
    change (if st.has codec pin.cid then st.totalPins else st.totalPins + 1) = _
    rw [has, represents.totalPins]
    rfl

theorem Represents.rm (removed : Cid) : Represents codec (st.rm codec removed) (abstract.rm removed) where
  contents k member within := represents.contents k (mem_erase.mp member).2 within
  lookup c defined := by
    change (st.datastore.erase (st.key codec removed)).lookup (st.key codec c) = (abstract.store.erase removed).lookup c
    by_cases same : c = removed
    · rw [same, lookup_erase, lookup_erase]
    · have apart : st.key codec c ≠ st.key codec removed := by
        intro equal
        cases isCid : removed.defined with
        | true => exact same (key_injective laws st defined isCid equal)
        | false =>
          have above := above_key laws st defined
          rw [equal, undef_of_not_defined isCid, key_undef laws, Key.above] at above
          simp at above
      rw [lookup_erase_ne apart, lookup_erase_ne same, represents.lookup c defined]
  defined c member := represents.defined c (mem_erase.mp member).2
  totalPins := congrArg (· - 1) represents.totalPins

end

theorem represents_vacant (codec : CidKeyCodec) {st : Dsstate.State} (vacant : Vacant st) (none_counted : st.totalPins = 0) :
    Represents codec st {} where
  contents k member within := (vacant k member within).elim
  lookup c _ := lookup_eq_none.mpr fun member => vacant _ member (within_key codec st c)
  defined c member := (notMem_empty c member).elim
  totalPins := none_counted

end

def numberedKeys : CidKeyCodec where
  encode c := if c.defined then numbered c.bytes else ""
  decode text := match ofNumbered text with
    | none => .error "no number"
    | some bytes => .ok ⟨bytes⟩

theorem numberedKeys_laws : KeyLaws numberedKeys where
  plain c defined := by
    simp only [numberedKeys, defined, if_true]
    have digits (char : Char) (member : char ∈ (numbered c.bytes).toList) := isDigit_of_mem_numbered member
    refine ⟨fun isEmpty => ?_, fun dot => ?_, fun dots => ?_, fun slash => absurd (digits '/' slash) (by decide)⟩
    · have read := ofNumbered_numbered c.bytes
      rw [isEmpty] at read
      cases read
    · exact absurd (digits '.' (by rw [dot]; decide)) (by decide)
    · exact absurd (digits '.' (by rw [dots]; decide)) (by decide)
  decode c defined := by simp only [numberedKeys, defined, if_true, ofNumbered_numbered]
  undef := rfl

def plainHandle : Handle SerialEntry where
  encode entry := [entry]
  decode
    | [] => .eof
    | entry :: rest => .entry entry rest
  consumes
    | entry :: rest, _, _, decoded => by
      cases decoded
      exact Nat.lt_succ_self _

def dataPin (bytes : String) : Pin := { cid := ⟨bytes⟩, type := PinType.dataType, maxDepth := -1 }

def pinnedAB : Dsstate.State :=
  [dataPin "A", dataPin "B"].foldl (State.add numberedKeys) { ns := Key.ofString "pins" }

theorem vacant_empty (ns : Key) : Vacant { ns := ns } := fun k member => (notMem_empty k member).elim

theorem unmarshal_marshal_same_two :
    ∃ copy, State.unmarshal plainHandle { ns := Key.ofString "a/b" } (pinnedAB.marshal plainHandle .stored) = (none, copy) ∧
      (∀ c, copy.get numberedKeys c = pinnedAB.get numberedKeys c) ∧
        (copy.list numberedKeys .stored).1.Perm (pinnedAB.list numberedKeys .stored).1 := by
  have first := (represents_vacant numberedKeys (vacant_empty (.ofString "pins")) rfl).add numberedKeys_laws
    (show (dataPin "A").cid.defined = true from rfl)
  have both := first.add numberedKeys_laws (show (dataPin "B").cid.defined = true from rfl)
  exact unmarshal_marshal_same ⟨fun _ _ => rfl, rfl⟩ numberedKeys_laws both.contents (vacant_empty _) .stored .stored .stored

variable {codec : CidKeyCodec} {st : Dsstate.State}

/-- The counter is the number of stored pins. -/
def Counted (st : Dsstate.State) : Prop := st.totalPins = (storedKeys st).length

/-- What a call has to find so that the counter stays exact. -/
def Counts (codec : CidKeyCodec) (st : Dsstate.State) : StateCall → Prop
  | .add hasFails pin => hasFails = true → st.has codec pin.cid = false
  | .rm c => st.has codec c = true
  | .list _ => ∀ entry ∈ st.datastore.entries, Within st entry.1 → isListed codec st entry = true

instance decidableCounts (codec : CidKeyCodec) (st : Dsstate.State) : (call : StateCall) → Decidable (Counts codec st call)
  | .add hasFails pin => inferInstanceAs (Decidable (hasFails = true → st.has codec pin.cid = false))
  | .rm c => inferInstanceAs (Decidable (st.has codec c = true))
  | .list _ => inferInstanceAs
      (Decidable (∀ entry ∈ st.datastore.entries, Within st entry.1 → isListed codec st entry = true))

theorem counted_step_iff {call : StateCall} {next : Dsstate.State} (counted : Counted st)
    (step : (calls codec).step st call = some next) : Counted next ↔ Counts codec st call := by
  rw [Counted] at counted ⊢
  cases call with
  | add hasFails pin =>
    cases step
    rw [length_storedKeys_addAsking]
    change (if (!hasFails && st.has codec pin.cid) = true then st.totalPins else st.totalPins + 1) = _ ↔
      (hasFails = true → st.has codec pin.cid = false)
    rw [counted]
    cases hasFails <;> cases st.has codec pin.cid <;> simp
  | rm c =>
    cases step
    have stored : (storedKeys (st.rm codec c)).length + _ = (storedKeys st).length := length_storedKeys_rm c
    change st.totalPins - 1 = _ ↔ st.has codec c = true
    rw [counted, ← stored]
    cases st.has codec c <;> simp
  | list order =>
    cases step
    refine Iff.trans ?_ (length_list_eq_iff order)
    exact Int.natCast_inj

theorem counted_of_vacant (vacant : Vacant st) (zero : st.totalPins = 0) : Counted st := by
  have none_stored : storedKeys st = [] :=
    filter_eq_nil_iff.mpr fun k member within => vacant k member (of_decide_eq_true within)
  rw [Counted, zero, none_stored]
  rfl

theorem exists_run_calls (codec : CidKeyCodec) (st : Dsstate.State) (history : List StateCall) :
    ∃ last, (calls codec).run st history = some last := by
  induction history generalizing st with
  | nil => exact ⟨st, rfl⟩
  | cons call rest ih =>
    have enabled : ∃ next, (calls codec).step st call = some next := by
      cases call with
      | add | rm | list => exact ⟨_, rfl⟩
    obtain ⟨next, step⟩ := enabled
    obtain ⟨last, ran⟩ := ih next
    exact ⟨last, Machine.LabeledMachine.run_cons_eq_some.mpr ⟨next, step, ran⟩⟩

/-- From an empty state, after each call of any history the counter is the number of stored pins, exactly if each
call finds what it has to find. -/
theorem totalPins_exact_iff (vacant : Vacant st) (zero : st.totalPins = 0) (history : List StateCall) :
    (∀ before after reached, history = before ++ after → (calls codec).run st before = some reached →
        reached.totalPins = (storedKeys reached).length) ↔ (calls codec).Meets (Counts codec) st history := by
  obtain ⟨last, ran⟩ := exists_run_calls codec st history
  exact Machine.LabeledMachine.forall_reached_iff_meets Counted (fun _ _ _ counted => counted_step_iff counted)
    (counted_of_vacant vacant zero) ran

def twoPinCalls : List StateCall :=
  [.add false { cid := ⟨"A"⟩ }, .add false { cid := ⟨"B"⟩ }, .rm ⟨"A"⟩, .list .stored]

theorem totalPins_exact_iff_twoPins :
    (calls numberedKeys).Meets (Counts numberedKeys) { ns := Key.ofString "pins" } twoPinCalls ∧
      ∀ before after reached, twoPinCalls = before ++ after →
        (calls numberedKeys).run { ns := Key.ofString "pins" } before = some reached →
          reached.totalPins = (storedKeys reached).length := by
  have counts : (calls numberedKeys).Meets (Counts numberedKeys) { ns := Key.ofString "pins" } twoPinCalls := by
    decide +kernel
  exact ⟨counts, (totalPins_exact_iff (vacant_empty _) rfl twoPinCalls).mpr counts⟩

theorem totalPins_inexact : ((calls numberedKeys).run { ns := Key.ofString "pins" } [.rm ⟨"A"⟩]).map
        (fun st => (st.totalPins, (storedKeys st).length)) = some (-1, 0) ∧
      ((calls numberedKeys).run { ns := Key.ofString "pins" }
          [.add false { cid := ⟨"A"⟩, allocations := [""] }, .list .stored]).map
        (fun st => (st.totalPins, (storedKeys st).length)) = some (0, 1) := by
  decide +kernel

end IpfsCluster.Soundness
