import IpfsCluster.Proofs.State.ScyllaCalls
import IpfsCluster.Soundness.Requests

/-! # Pins in the tables

A state returns the pin that was added exactly if the pin fits into a row. An update leaves the time of the creation,
which the next call takes for the time of the last update; a removal deletes the placement before it looks there for the
peers, and an update leaves the expiry that it replaces in the queue.
-/

namespace IpfsCluster.Soundness

open Model Model.Api Model.Scyllastate Golang Proofs.State Machine

/-- An accepted pin is read back exactly if it fits into its row. -/
theorem scylla_get_add_iff {codecs : TextCodecs} (laws : TextLaws codecs) (s seen : ScyllaState) (faults : Faults)
    (now : Time) (pin : Pin) (accepted : (s.add codecs seen faults now pin).1 = none) :
    (∃ got, (s.add codecs seen faults now pin).2.get codecs none pin.cid = .ok got ∧ pin.equals codecs got = true) ↔
      FitsRow pin := by
  obtain ⟨createdAt, read⟩ := get_add accepted
  rw [read]
  constructor
  · rintro ⟨got, same, equal⟩
    cases same
    exact (equals_fromRow_iff laws pin createdAt now).mp equal
  · intro fits
    exact ⟨_, rfl, (equals_fromRow_iff laws pin createdAt now).mpr fits⟩

theorem plainCodecs_textLaws : TextLaws plainCodecs where
  peer p present := present
  cid c defined := if_neg (bne_iff_ne.mp defined)
  undef c undefined := by
    have isEmpty : c.bytes = "" := by simpa [Cid.defined] using undefined
    exact ⟨_, if_pos isEmpty⟩
  multiaddr o := rfl

def pinnedByAll : Pin :=
  { cid := ⟨"A"⟩, type := PinType.dataType, maxDepth := -1, replicationFactorMin := -1, replicationFactorMax := -1 }

theorem scylla_get_add_everywhere : (ScyllaState.add plainCodecs {} {} {} ⟨0⟩ pinnedByAll).1 = none ∧
      ∃ got, (ScyllaState.add plainCodecs {} {} {} ⟨0⟩ pinnedByAll).2.get plainCodecs none pinnedByAll.cid = .ok got ∧
        got.replicationFactorMin = 255 ∧ pinnedByAll.equals plainCodecs got = false :=
  ⟨rfl, _, rfl, rfl, rfl⟩

def twice : Pin :=
  { cid := ⟨"A"⟩, type := PinType.dataType, maxDepth := -1, replicationFactorMin := 2, replicationFactorMax := 2,
    name := "docs", origins := ["/p2p/C"], reference := some ⟨"R"⟩ }

theorem twice_fitsRow : FitsRow twice where
  type := by decide
  maxDepth := rfl
  mode := rfl
  reference c same := by
    cases same
    rfl
  allocations := Or.inl rfl
  replicationFactor := by decide
  sameFactors := rfl
  shardSize := rfl
  userAllocations := rfl
  expireAt := Or.inl rfl
  metadata k v := nofun
  origins := by decide

theorem scylla_get_add_iff_twice : (ScyllaState.add plainCodecs {} {} {} ⟨0⟩ twice).1 = none ∧
      ∃ got, (ScyllaState.add plainCodecs {} {} {} ⟨0⟩ twice).2.get plainCodecs none twice.cid = .ok got ∧
        twice.equals plainCodecs got = true :=
  ⟨rfl, (scylla_get_add_iff plainCodecs_textLaws {} {} {} ⟨0⟩ twice rfl).mpr twice_fitsRow⟩

/-- No call blames another writer exactly if every call finds its CID added at one millisecond only, since it
was last removed; a closed state blames nobody. -/
theorem scylla_calls_blame_nobody_iff (codecs : TextCodecs) (s : ScyllaState) (calls : List ScyllaCall) :
    (∀ err ∈ concurrent, some err ∉ s.errors codecs calls) ↔ s.closed = true ∨ AddedAtOnce (rowTimes s) calls := by
  cases isClosed : s.closed with
  | true =>
    refine iff_of_true (fun err blames failed => ?_) (Or.inl rfl)
    obtain rfl := Option.some.inj (errors_of_closed isClosed calls _ failed)
    exact absurd blames (by decide)
  | false =>
    rw [errors_concurrent_iff isClosed (recorded_rowTimes s) calls]
    exact (or_iff_right nofun).symm

theorem scylla_calls_blame_nobody_updated : ({} : ScyllaState).errors plainCodecs
        [.add ⟨0⟩ { cid := ⟨"A"⟩ }, .add ⟨10 ^ 6⟩ { cid := ⟨"A"⟩ }, .add ⟨2 * 10 ^ 6⟩ { cid := ⟨"A"⟩ }, .rm ⟨"A"⟩] =
      [none, none, some (.text "pin update failed due to concurrent modification"),
        some (.text "pin deletion failed due to concurrent modification")] :=
  rfl

example : ({} : ScyllaState).errors plainCodecs
    [.add ⟨0⟩ { cid := ⟨"A"⟩ }, .add ⟨0⟩ { cid := ⟨"A"⟩ }, .rm ⟨"A"⟩, .add ⟨10 ^ 6⟩ { cid := ⟨"A"⟩ }] =
      [none, none, none, none] :=
  rfl

/-- All tables that a run reaches are consistent exactly if each of its steps finds the tables as it needs them. -/
theorem scylla_tables_consistent_iff {codecs : TextCodecs} {s target : ScyllaState} {events : List TableEvent}
    (initial : Consistent s.tables) (ran : (tableMachine codecs).run s events = some target) :
    (∀ before after mid, events = before ++ after → (tableMachine codecs).run s before = some mid →
      Consistent mid.tables) ↔ (tableMachine codecs).Meets Follows s events :=
  LabeledMachine.forall_reached_iff_meets (fun s => Consistent s.tables)
    (fun _ _ _ before step => consistent_step_iff before step) initial ran

def placedAndRemoved : List TableEvent :=
  [.call (.add ⟨0⟩ { cid := ⟨"A"⟩ }), .place ⟨"A"⟩ { desired := {"P"}, updatedAt := ⟨0⟩ },
    .assign "P" ⟨"A"⟩ { state := 2, lastSeen := ⟨0⟩ }, .call (.rm ⟨"A"⟩)]

def renewedAndRemoved : List TableEvent :=
  [.call (.add ⟨0⟩ { cid := ⟨"A"⟩, expireAt := ⟨10 ^ 15⟩ }), .call (.add ⟨0⟩ { cid := ⟨"A"⟩, expireAt := ⟨10 ^ 16⟩ }),
    .call (.rm ⟨"A"⟩)]

theorem scylla_tables_consistent_orphans : (∃ target, (tableMachine plainCodecs).run {} placedAndRemoved = some target ∧
      target.row ⟨"A"⟩ = none ∧ ("P", cidToPartitionedKey ⟨"A"⟩) ∈ target.tables.pinsByPeer ∧
      ¬ Consistent target.tables) ∧ ∃ target, (tableMachine plainCodecs).run {} renewedAndRemoved = some target ∧
      target.row ⟨"A"⟩ = none ∧ ttlKey ⟨"A"⟩ (10 ^ 9) ∈ target.tables.pinTtlQueue ∧ ¬ Consistent target.tables := by
  refine ⟨⟨_, rfl, rfl, AList.lookup_isSome.mp rfl, fun consistent => ?_⟩,
    ⟨_, rfl, rfl, AList.lookup_isSome.mp rfl, fun consistent => ?_⟩⟩
  · have pinned := consistent.peers "P" (cidToPartitionedKey ⟨"A"⟩) (AList.lookup_isSome.mp rfl)
    cases AList.lookup_isSome.mpr pinned
  · have pinned := consistent.queued (ttlKey ⟨"A"⟩ (10 ^ 9)) (AList.lookup_isSome.mp rfl)
    cases AList.lookup_isSome.mpr pinned

def expiringAndRemoved : List TableEvent :=
  [.call (.add ⟨0⟩ { cid := ⟨"A"⟩, expireAt := ⟨10 ^ 15⟩ }), .call (.add ⟨0⟩ { cid := ⟨"A"⟩, expireAt := ⟨10 ^ 15⟩ }),
    .place ⟨"A"⟩ { desired := {"P"}, updatedAt := ⟨0⟩ }, .call (.rm ⟨"A"⟩)]

theorem expiringAndRemoved_meets : (tableMachine plainCodecs).Meets Follows {} expiringAndRemoved := by
  refine ⟨fun _ _ => nofun, fun next step => ?_⟩
  cases step
  refine ⟨fun _ entry queued _ => ?_, fun next step => ?_⟩
  · exact ((AList.mem_insert _).mp queued).resolve_right nofun
  cases step
  refine ⟨trivial, fun next step => ?_⟩
  cases step
  exact ⟨⟨fun _ => nofun, fun _ _ _ => ⟨_, _, rfl, rfl, rfl⟩⟩, fun _ _ => trivial⟩

theorem scylla_tables_consistent_iff_expiring : (tableMachine plainCodecs).Meets Follows {} expiringAndRemoved ∧
      ∀ before after mid, expiringAndRemoved = before ++ after →
        (tableMachine plainCodecs).run {} before = some mid → Consistent mid.tables :=
  ⟨expiringAndRemoved_meets, (scylla_tables_consistent_iff consistent_empty rfl).mpr expiringAndRemoved_meets⟩

end IpfsCluster.Soundness
