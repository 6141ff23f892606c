import IpfsCluster.Proofs.Cluster.Operations
import IpfsCluster.Soundness.Repin

/-! # Pins stay well-formed and keep their type

`pin` checks an object against its type only when it replaces a pin, and `PinUpdate` writes to its
target without looking at it. Runs in which new objects are well-formed, and in which copies do not
land on pins of another kind, keep the pinset well-formed and every pin at its type and mode.
-/

namespace IpfsCluster.Soundness

open Model Model.Api Golang Machine Proofs.Api Proofs.Cluster Option PinMode

variable {consensus : Consensus} {st : DsState}

/-- The pin fits its type and has valid replication factors. -/
structure WellFormed (pin : Pin) : Prop where
  type : checkPinType pin = none
  factors : isReplicationFactorValid pin.replicationFactorMin pin.replicationFactorMax = none

def WellFormedState (st : DsState) : Prop :=
  ∀ h data, st.store.lookup h = some data → WellFormed (decoded h data)

/-- An object that is pinned under a new CID fits its type. A reference that is set is a CID, and no
factor needs more than the 32 bits of its stored form. -/
def Checked (consensus : Consensus) : ClusterEvent → Prop
  | .pin peer _ _ object _ => ¬ (object.pinUpdate.defined = true ∧ object.pinUpdate ≠ object.cid) →
      (consensus.state.get object.cid = .error .notFound ∨ consensus.call.1 = some .notFound →
        checkPinType object = none) ∧
      object.reference ≠ some Cid.undef ∧
      object.replicationFactorMax < 2 ^ 31 ∧ peer.config.replicationFactorMax < 2 ^ 31
  | .pinUpdate .. => True
  | .unpin .. => True

section

variable (wellFormed : WellFormedState st)

include wellFormed

theorem wellFormed_add {pin : Pin} (stored : WellFormed (decoded pin.cid pin.protoMarshal)) :
    WellFormedState (st.add pin) := by
  intro h data found
  rw [lookup_add] at found
  split at found
  next same =>
    cases found
    exact same ▸ stored
  · exact wellFormed h data found

theorem wellFormed_removeAll (cids : List Cid) : WellFormedState (removeAll cids st) := by
  intro h data found
  rw [lookup_removeAll] at found
  split at found
  · cases found
  · exact wellFormed h data found

theorem wellFormed_updatedPin {source target : Cid} {existing : Pin} (found : st.get source = .ok existing)
    (data : existing.type = PinType.dataType) (now : Clock) (opts : PinOptions) :
    WellFormed (decoded target (updatedPin now source target opts existing).protoMarshal) := by
  have canonical := canonical_of_get found
  obtain ⟨message, stored, -, rfl⟩ := get_eq_ok_iff.mp found
  obtain ⟨type, factors⟩ := wellFormed source message stored
  have checked : checkPinType (updatedPin now source target opts (decoded source message)) = none := by
    rw [checkPinType_eq_none_iff] at type ⊢
    exact type
  have noReference : (decoded source message).reference = none := by
    rcases (checkPinType_eq_none_iff _).mp type with ⟨-, none⟩ | ⟨other, -⟩ | ⟨other, -⟩ | ⟨other, -⟩
    · exact none
    all_goals exact absurd (data.symm.trans other) (by decide)
  refine ⟨checkPinType_decoded checked (ne_of_eq_of_ne noReference (some_ne_none _).symm) target, ?_⟩
  have kept : isReplicationFactorValid (BitVec.ofInt 32 (decoded source message).replicationFactorMin).toInt
      (BitVec.ofInt 32 (decoded source message).replicationFactorMax).toInt = none := by
    rw [canonical.rplMin, canonical.rplMax]
    exact factors
  exact kept

end

theorem wellFormed_accepted {c : Cluster} {now : Clock} {object ready stored : Pin}
    (accepted : Proofs.Cluster.Accepted c now consensus object ready stored)
    (absent : consensus.state.get object.cid = .error .notFound ∨ consensus.call.1 = some .notFound →
      checkPinType object = none) (reference : object.reference ≠ some Cid.undef)
    (objectMax : object.replicationFactorMax < 2 ^ 31) (configMax : c.config.replicationFactorMax < 2 ^ 31) :
    WellFormed (decoded stored.cid stored.protoMarshal) := by
  obtain ⟨sameType, sameReference, maximum, valid⟩ := setupReplicationFactor_eq_none accepted.factors
  have checked : checkPinType ready = none := by
    rcases accepted.replaces with missing | ⟨existing, -, -, -, checked⟩
    · exact checkPinType_ready accepted.factors (absent missing)
    · exact checked
  obtain ⟨allocs, kept, rfl⟩ := accepted.stored
  have checkedStored : checkPinType { ready with timestamp := now 1, allocations := allocs } = none := by
    rw [checkPinType_eq_none_iff] at checked ⊢
    rcases checked with isData | isShard | isDag | ⟨isMeta, empty, refers⟩
    · exact .inl isData
    · exact .inr (.inl isShard)
    · exact .inr (.inr (.inl isDag))
    · exact .inr (.inr (.inr ⟨isMeta, (kept.ofMeta isMeta).trans empty, refers⟩))
  refine ⟨checkPinType_decoded checkedStored (sameReference ▸ reference) _, ?_⟩
  have bounds := (isReplicationFactorValid_eq_none_iff _ _).mp valid
  have fitsMin : Fits ready.replicationFactorMin := fits_of_bounds (by omega) (by omega)
  have fitsMax : Fits ready.replicationFactorMax := fits_of_bounds (by omega) (by omega)
  have validStored : isReplicationFactorValid (BitVec.ofInt 32 ready.replicationFactorMin).toInt
      (BitVec.ofInt 32 ready.replicationFactorMax).toInt = none := by
    rw [fitsMin, fitsMax]
    exact valid
  exact validStored

theorem wellFormedState_step (consensus : Consensus) (event : ClusterEvent) (next : Consensus)
    (wellFormed : WellFormedState consensus.state) (checked : Checked consensus event)
    (step : operations.step consensus event = some next) : WellFormedState next.state := by
  have effect := operations_effect step
  generalize next.state = st at effect ⊢
  cases effect with
  | removed cids => exact wellFormed_removeAll wellFormed cids
  | copied _ found data now opts => exact wellFormed_add wellFormed (wellFormed_updatedPin wellFormed found data now opts)
  | submitted submits accepted =>
    cases event with
    | pin peer order now object blacklist =>
      obtain ⟨direct, rfl, rfl⟩ := submits
      obtain ⟨absent, reference, objectMax, configMax⟩ := checked direct
      exact wellFormed_add wellFormed (wellFormed_accepted accepted absent reference objectMax configMax)
    | pinUpdate | unpin => exact submits.elim

/-- The pins of every run in which new objects fit their types are well-formed. -/
theorem wellFormedState_of_run (outcomes : List (Option Error)) (events : List ClusterEvent) (consensus : Consensus)
    (checked : operations.Meets Checked { outcomes := outcomes } events)
    (ran : operations.run { outcomes := outcomes } events = some consensus) : WellFormedState consensus.state := by
  have initial : WellFormedState {} := by
    intro h data found
    cases found
  exact LabeledMachine.invariant_of_meets (fun consensus => WellFormedState consensus.state) wellFormedState_step
    initial checked ran

def pinObject (object : Pin) : ClusterEvent :=
  .pin threePeers .stored noon { object with replicationFactorMin := 1, replicationFactorMax := 1 } []

def pinData (h : Cid) (mode : PinMode) : ClusterEvent := pinObject (pinWithOpts h { mode := mode } Time.zero)

def reached (start : Consensus) (events : List ClusterEvent) : Consensus := (operations.run start events).getD start

theorem malformed_pin_stored :
    ∃ consensus data, operations.run {} [pinObject { pinCid ⟨"cid"⟩ Time.zero with reference := some ⟨"other"⟩ }] =
        some consensus ∧ consensus.state.store.lookup ⟨"cid"⟩ = some data ∧
      checkPinType (decoded ⟨"cid"⟩ data) = some (.text "data pins should not reference other pins") ∧
      ¬ WellFormedState consensus.state := by
  refine ⟨_, _, rfl, rfl, rfl, fun wellFormed => ?_⟩
  exact absurd (wellFormed ⟨"cid"⟩ _ rfl).type (by decide)

theorem wellFormedState_of_run_update :
    WellFormedState (reached {} [pinData ⟨"old"⟩ recursive, .pinUpdate noon ⟨"old"⟩ ⟨"new"⟩ {}]).state := by
  refine wellFormedState_of_run [] [pinData ⟨"old"⟩ recursive, .pinUpdate noon ⟨"old"⟩ ⟨"new"⟩ {}] _ ?_ rfl
  refine ⟨fun _ => ⟨fun _ => rfl, by decide, by decide, by decide⟩, fun _ _ => ⟨trivial, fun _ _ => trivial⟩⟩

section

/-- The type stays, and a recursive pin stays recursive. -/
structure Kept (c : Cid) (old new : Pb.Pin) : Prop where
  type : (decoded c new).type = (decoded c old).type
  mode : (decoded c old).mode = recursive → (decoded c new).mode = recursive

theorem Kept.refl (c : Cid) (data : Pb.Pin) : Kept c data data := ⟨rfl, id⟩

theorem Kept.trans {c : Cid} {first second third : Pb.Pin} (one : Kept c first second) (two : Kept c second third) :
    Kept c first third :=
  ⟨two.type.trans one.type, two.mode ∘ one.mode⟩

/-- A copy that lands on a pin finds a data pin there, and does not make it direct. -/
def Lands (st : DsState) (source target : Cid) : Prop :=
  ∀ old, st.store.lookup target = some old → (decoded target old).type = PinType.dataType ∧
      ((decoded target old).mode = recursive → ∀ existing, st.get source = .ok existing → existing.mode = recursive)

/-- An object that replaces a recursive pin and is recursive by its mode is not stored with depth 0; the
pin it replaces is not overlooked. -/
def StaysRecursive (consensus : Consensus) (object : Pin) : Prop :=
  ∀ old, consensus.state.store.lookup object.cid = some old → consensus.call.1 ≠ some .notFound ∧
      ((decoded object.cid old).mode = recursive → object.mode = recursive → BitVec.ofInt 32 object.maxDepth ≠ 0)

/-- The condition on an operation under which it keeps types and recursive modes. -/
def Keeps (consensus : Consensus) : ClusterEvent → Prop
  | .pin _ _ _ object _ =>
      if object.pinUpdate.defined = true ∧ object.pinUpdate ≠ object.cid then
        Lands consensus.state object.pinUpdate object.cid
      else StaysRecursive consensus object
  | .pinUpdate _ source target _ => Lands consensus.state source target
  | .unpin .. => True

variable {old : Pb.Pin}

theorem kept_copied {source target : Cid} (lands : Lands st source target) {existing : Pin}
    (found : st.get source = .ok existing) (data : existing.type = PinType.dataType) (now : Clock) (opts : PinOptions)
    (before : st.store.lookup target = some old) :
    Kept target old (updatedPin now source target opts existing).protoMarshal := by
  have canonical := canonical_of_get found
  obtain ⟨isData, mode⟩ := lands old before
  constructor
  · change 1#64 <<< convertPinType existing.type = _
    rw [type_decoded (.inl data), data, isData]
  · intro recursive
    change PinDepth.toPinMode (BitVec.ofInt 32 existing.maxDepth).toInt = _
    rw [canonical.maxDepth, ← canonical.mode]
    exact mode recursive existing found

theorem kept_accepted {c : Cluster} {now : Clock} {object ready stored : Pin}
    (accepted : Proofs.Cluster.Accepted c now consensus object ready stored) (stays : StaysRecursive consensus object)
    (before : consensus.state.store.lookup object.cid = some old) : Kept object.cid old stored.protoMarshal := by
  obtain ⟨seen, depth⟩ := stays old before
  obtain ⟨-, sameMode, sameDepth, -⟩ := setupReplicationFactor_keeps accepted.factors
  obtain ⟨sameType, mode, checked⟩ := accepted.existing seen before
  obtain ⟨allocs, -, rfl⟩ := accepted.stored
  constructor
  · change 1#64 <<< convertPinType ready.type = _
    rw [type_decoded (knownType_of_checked checked), sameType]
  · intro recursive
    change PinDepth.toPinMode (BitVec.ofInt 32 ready.maxDepth).toInt = _
    rw [sameDepth]
    exact mode_decoded (depth recursive (sameMode ▸ mode recursive))

theorem kept_step {next : Consensus} {event : ClusterEvent} (keeps : Keeps consensus event)
    (step : operations.step consensus event = some next) {c : Cid} {new : Pb.Pin}
    (before : consensus.state.store.lookup c = some old) (after : next.state.store.lookup c = some new) :
    Kept c old new := by
  have unchanged (still : consensus.state.store.lookup c = some new) : Kept c old new := by
    obtain rfl := mem_unique before still
    exact .refl c old
  have effect := operations_effect step
  generalize next.state = st at effect after
  cases effect with
  | removed cids =>
    rw [lookup_removeAll] at after
    split at after
    · cases after
    · exact unchanged after
  | @copied source target copies existing found data now opts =>
    have lands : Lands consensus.state source target := by
      cases event with
      | pin peer order now object blacklist =>
        obtain ⟨diverts, rfl, rfl⟩ := copies
        exact (if_pos diverts).mp keeps
      | pinUpdate now old new opts =>
        obtain ⟨rfl, rfl⟩ := copies
        exact keeps
      | unpin => exact copies.elim
    rw [lookup_add] at after
    split at after
    next same =>
      cases after
      obtain rfl : c = target := same
      exact kept_copied lands found data now opts before
    · exact unchanged after
  | @submitted peer object submits now ready stored accepted =>
    have stays : StaysRecursive consensus object := by
      cases event with
      | pin peer order now object blacklist =>
        obtain ⟨direct, rfl, rfl⟩ := submits
        exact (if_neg direct).mp keeps
      | pinUpdate | unpin => exact submits.elim
    rw [lookup_add, accepted.cid] at after
    split at after
    next same =>
      cases after
      subst same
      exact kept_accepted accepted stays before
    · exact unchanged after

/-- While a CID stays in the pinset, through operations that meet the condition, its pin keeps its type
and does not turn from recursive to direct. -/
theorem kept_of_run (start final : Consensus) (events : List ClusterEvent) (c : Cid) (old new : Pb.Pin)
    (keeps : operations.Meets (fun consensus event =>
      (consensus.state.store.lookup c).isSome = true ∧ Keeps consensus event) start events)
    (ran : operations.run start events = some final) (before : start.state.store.lookup c = some old)
    (after : final.state.store.lookup c = some new) : Kept c old new := by
  have initial (data : Pb.Pin) (found : start.state.store.lookup c = some data) : Kept c old data := by
    obtain rfl := mem_unique before found
    exact .refl c old
  refine LabeledMachine.invariant_of_meets
    (fun consensus => ∀ data, consensus.state.store.lookup c = some data → Kept c old data) ?_ initial keeps ran new after
  rintro consensus event next kept ⟨present, keeps⟩ step data found
  obtain ⟨current, here⟩ := isSome_iff_exists.mp present
  exact (kept current here).trans (kept_step keeps step here found)

theorem kept_of_run_repin : ∃ old new, (reached {} [pinData ⟨"cid"⟩ recursive]).state.store.lookup ⟨"cid"⟩ = some old ∧
      (reached (reached {} [pinData ⟨"cid"⟩ recursive])
        [pinData ⟨"cid"⟩ recursive, .pinUpdate noon ⟨"cid"⟩ ⟨"copy"⟩ {}]).state.store.lookup ⟨"cid"⟩ = some new ∧
      Kept ⟨"cid"⟩ old new := by
  obtain ⟨old, before⟩ := isSome_iff_exists.mp
    (rfl : ((reached {} [pinData ⟨"cid"⟩ recursive]).state.store.lookup ⟨"cid"⟩).isSome = true)
  obtain ⟨new, after⟩ := isSome_iff_exists.mp (rfl : ((reached (reached {} [pinData ⟨"cid"⟩ recursive])
      [pinData ⟨"cid"⟩ recursive, .pinUpdate noon ⟨"cid"⟩ ⟨"copy"⟩ {}]).state.store.lookup ⟨"cid"⟩).isSome = true)
  refine ⟨old, new, before, after, kept_of_run _ _
    [pinData ⟨"cid"⟩ recursive, .pinUpdate noon ⟨"cid"⟩ ⟨"copy"⟩ {}] ⟨"cid"⟩ old new
    ⟨⟨rfl, ?_⟩, fun next step => ?_⟩ rfl before after⟩
  · exact fun old found => ⟨by decide, fun _ _ => by decide⟩
  · cases step
    exact ⟨⟨rfl, fun old found => by cases found⟩, fun _ _ => trivial⟩

theorem pinUpdate_overwrites :
    (∃ start final old new, operations.run {} [pinData ⟨"target"⟩ recursive, pinData ⟨"source"⟩ direct] =
        some start ∧ operations.run start [.pinUpdate noon ⟨"source"⟩ ⟨"target"⟩ {}] = some final ∧
      start.state.store.lookup ⟨"target"⟩ = some old ∧ final.state.store.lookup ⟨"target"⟩ = some new ∧
      (decoded ⟨"target"⟩ old).mode = recursive ∧ (decoded ⟨"target"⟩ new).mode = direct) ∧
    ∃ start final old new, operations.run {} [pinObject { pinCid ⟨"root"⟩ Time.zero with
          type := PinType.metaType, maxDepth := 0, reference := some ⟨"dag"⟩ },
        pinData ⟨"source"⟩ recursive] = some start ∧
      operations.run start [.pinUpdate noon ⟨"source"⟩ ⟨"root"⟩ {}] = some final ∧
      start.state.store.lookup ⟨"root"⟩ = some old ∧ final.state.store.lookup ⟨"root"⟩ = some new ∧
      (decoded ⟨"root"⟩ old).type = PinType.metaType ∧ (decoded ⟨"root"⟩ new).type = PinType.dataType :=
  ⟨⟨_, _, _, _, rfl, rfl, rfl, rfl, rfl, rfl⟩, ⟨_, _, _, _, rfl, rfl, rfl, rfl, rfl, rfl⟩⟩

end

end IpfsCluster.Soundness
