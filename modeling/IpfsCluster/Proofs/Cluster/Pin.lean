import IpfsCluster.Model.Cluster.Pin
import IpfsCluster.Proofs.Api.Pins

/-! # What pinning does to the pinset

A call of `pin` leaves the pinset alone or adds one pin: the object with its factors set up and its allocations, or the
updated copy of another pin.
-/

namespace IpfsCluster.Proofs.Cluster

open Model Model.Api Golang Machine Api Option Cluster Consensus PinType

variable {h : Cid} {pin : Pin}

section

variable {consensus : Consensus}

theorem call_state (consensus : Consensus) : consensus.call.2.state = consensus.state := by
  unfold call
  split <;> rfl

theorem pinGet_state (consensus : Consensus) (h : Cid) : (pinGet consensus h).2.state = consensus.state := by
  have same := call_state consensus
  unfold pinGet getState
  generalize consensus.call = called at same ⊢
  obtain ⟨_ | err, next⟩ := called <;> exact same

theorem pinGet_eq_ok (found : (pinGet consensus h).1 = .ok pin) : consensus.state.get h = .ok pin := by
  have same := call_state consensus
  unfold pinGet getState at found
  generalize consensus.call = called at same found
  obtain ⟨_ | err, next⟩ := called
  · exact same ▸ found
  · cases found

theorem pinGet_eq_notFound (missing : (pinGet consensus h).1 = .error .notFound) :
    consensus.state.get h = .error .notFound ∨ consensus.call.1 = some .notFound := by
  have same := call_state consensus
  unfold pinGet getState at missing
  generalize consensus.call = called at same missing ⊢
  obtain ⟨_ | err, next⟩ := called
  · exact .inl (same ▸ missing)
  · exact .inr (congrArg some (Except.error.inj missing))

/-- A call that reports an error has left the pinset alone; otherwise it had its effect. -/
def CallOutcome (before : DsState) (err : Option Error) (after : DsState) (effect : DsState → Prop) : Prop :=
  (err ≠ none ∧ after = before) ∨ (err = none ∧ effect after)

theorem CallOutcome.imp {before after : DsState} {err : Option Error} {effect effect' : DsState → Prop}
    (outcome : CallOutcome before err after effect) (weaker : ∀ st, effect st → effect' st) :
    CallOutcome before err after effect' :=
  Or.imp id (fun ⟨done, held⟩ => ⟨done, weaker after held⟩) outcome

theorem logPin_outcome (consensus : Consensus) (pin : Pin) :
    CallOutcome consensus.state (consensus.logPin pin).1 (consensus.logPin pin).2.state
      (· = consensus.state.add pin) := by
  have same := call_state consensus
  unfold logPin
  generalize consensus.call = called at same ⊢
  obtain ⟨_ | err, next⟩ := called
  · exact .inr ⟨rfl, congrArg (DsState.add · pin) same⟩
  · exact .inl ⟨some_ne_none err, same⟩

theorem logUnpin_outcome (consensus : Consensus) (pin : Pin) :
    CallOutcome consensus.state (consensus.logUnpin pin).1 (consensus.logUnpin pin).2.state
      (· = consensus.state.rm pin.cid) := by
  have same := call_state consensus
  unfold logUnpin
  generalize consensus.call = called at same ⊢
  obtain ⟨_ | err, next⟩ := called
  · exact .inr ⟨rfl, congrArg (DsState.rm · pin.cid) same⟩
  · exact .inl ⟨some_ne_none err, same⟩

def Healthy (consensus : Consensus) : Prop := ∀ outcome ∈ consensus.outcomes, outcome = none

variable (healthy : Healthy consensus)

include healthy

theorem Healthy.call : ∃ next, consensus.call = (none, next) ∧ next.state = consensus.state ∧ Healthy next := by
  obtain ⟨state, outcomes⟩ := consensus
  cases outcomes with
  | nil => exact ⟨_, rfl, rfl, healthy⟩
  | cons outcome rest =>
    obtain rfl : outcome = none := healthy outcome (List.mem_cons_self ..)
    exact ⟨_, rfl, rfl, fun later member => healthy later (List.mem_cons_of_mem _ member)⟩

theorem Healthy.pinGet (h : Cid) :
    ∃ next, pinGet consensus h = (consensus.state.get h, next) ∧ next.state = consensus.state ∧ Healthy next := by
  obtain ⟨next, called, same, healthyNext⟩ := healthy.call
  refine ⟨next, ?_, same, healthyNext⟩
  simp only [Cluster.pinGet, getState, called, same]

theorem Healthy.logPin (pin : Pin) : (consensus.logPin pin).2.state = consensus.state.add pin := by
  obtain ⟨next, called, same, -⟩ := healthy.call
  simp only [Consensus.logPin, called, same]

end

def updatedPin (now : Clock) (source target : Cid) (opts : PinOptions) (existing : Pin) : Pin :=
  { existing with
    cid := target
    pinUpdate := source
    timestamp := now 0
    name := if opts.name ≠ "" then opts.name else existing.name
    expireAt := if !opts.expireAt.isZero && opts.expireAt.after (now 1) then opts.expireAt else existing.expireAt }

variable {source target : Cid} {now : Clock} {c : Cluster} {consensus : Consensus} {st : DsState}
  {existing object ready : Pin} {opts : PinOptions}

section

variable {c : Cluster} {order : MapOrder} {now : Clock} {consensus : Consensus} {next : Consensus}

section

variable (found : pinGet consensus source = (.ok existing, next))

include found

variable (data : existing.type = dataType)

include data

theorem pinUpdate_eq : (pinUpdate now consensus source target opts).2 =
      (next.logPin (updatedPin now source target opts existing)).2 := by
  simp only [pinUpdate, found, ne_eq, data, not_true_eq_false, ↓reduceIte, updatedPin]
  split_ifs <;> rfl

theorem pinUpdate_err : (pinUpdate now consensus source target opts).1.2 =
      (next.logPin (updatedPin now source target opts existing)).1 := by
  simp only [pinUpdate, found, ne_eq, data, not_true_eq_false, ↓reduceIte, updatedPin]
  split_ifs <;> rfl

end

theorem pinUpdate_outcome (now : Clock) (consensus : Consensus) (source target : Cid) (opts : PinOptions) :
    CallOutcome consensus.state (pinUpdate now consensus source target opts).1.2
      (pinUpdate now consensus source target opts).2.state fun st =>
        ∃ existing, consensus.state.get source = .ok existing ∧ existing.type = dataType ∧
          st = consensus.state.add (updatedPin now source target opts existing) := by
  have same := pinGet_state consensus source
  cases found : pinGet consensus source with
  | mk answer next =>
    rw [found] at same
    cases answer with
    | error err =>
      refine .inl ⟨?_, ?_⟩
      · simp [pinUpdate, found]
      · simpa only [pinUpdate, found] using same
    | ok existing =>
      by_cases data : existing.type = dataType
      · rw [pinUpdate_eq found data, pinUpdate_err found data]
        have logged := logPin_outcome next (updatedPin now source target opts existing)
        rw [same] at logged
        exact logged.imp fun st added => ⟨existing, pinGet_eq_ok (by rw [found]), data, added⟩
      · refine .inl ⟨?_, ?_⟩
        · simp [pinUpdate, found, data]
        · simpa only [pinUpdate, found, ne_eq, data, not_false_eq_true, ↓reduceIte] using same

theorem setupPin_eq_none (passed : c.setupPin now object existing = (ready, none)) :
    c.setupReplicationFactor object = (ready, none) ∧ (existing.defined = true → existing.type = ready.type ∧
        (existing.mode = PinMode.recursive → ready.mode = PinMode.recursive) ∧ checkPinType ready = none) := by
  unfold setupPin at passed
  generalize c.setupReplicationFactor object = factors at passed ⊢
  obtain ⟨pin, _ | err⟩ := factors
  · dsimp only at passed
    split_ifs at passed <;> obtain ⟨rfl, result⟩ := Prod.mk.inj passed <;> simp_all
  · simp at passed

theorem setupPin_eq_ready (factors : c.setupReplicationFactor object = (ready, none))
    (current : (!ready.expireAt.isZero && ready.expireAt.before (now 0)) = false) (isDefined : existing.defined = true)
    (sameType : existing.type = ready.type) (sameMode : existing.mode = ready.mode)
    (checked : checkPinType ready = none) : c.setupPin now object existing = (ready, none) := by
  have modes : ¬ (existing.mode = PinMode.recursive ∧ ready.mode ≠ PinMode.recursive) := by
    rintro ⟨recursive, direct⟩
    exact direct (sameMode ▸ recursive)
  simp only [setupPin, factors, current, isDefined, sameType, checked, Bool.not_true, Bool.false_eq_true,
    ne_eq, not_true_eq_false, ↓reduceIte]
  rw [if_neg modes]

/-- The allocations that are stored for a pin: those it has when it is a meta pin, and none when it is
replicated everywhere and has none. -/
structure StoredAllocations (ready : Pin) (allocs : List PeerID) : Prop where
  ofMeta : ready.type = metaType → allocs = ready.allocations
  everywhere : ready.replicationFactorMin < 0 → ready.replicationFactorMax < 0 → ready.allocations = [] → allocs = []

theorem storedAllocations_self (ready : Pin) : StoredAllocations ready ready.allocations := ⟨fun _ => rfl, fun _ _ => id⟩

theorem submitPin_outcome (c : Cluster) (order : MapOrder) (now : Clock) (consensus : Consensus) (ready existing : Pin)
    (blacklist : List PeerID) :
    CallOutcome consensus.state (c.submitPin order now consensus ready existing blacklist).1.2.2
      (c.submitPin order now consensus ready existing blacklist).2.state fun st =>
        ∃ allocs, StoredAllocations ready allocs ∧
          st = consensus.state.add { ready with timestamp := now 1, allocations := allocs } := by
  unfold submitPin
  dsimp only
  split
  · exact (logPin_outcome consensus _).imp fun st added => ⟨ready.allocations, storedAllocations_self ready, added⟩
  next notMeta =>
    split
    · split
      · exact .inl ⟨some_ne_none _, rfl⟩
      next allocs allocated =>
        refine (logPin_outcome consensus _).imp fun st added => ⟨allocs, ⟨fun isMeta => (notMeta isMeta).elim, ?_⟩, added⟩
        intro negativeMin negativeMax _
        rw [allocate, if_neg (by omega), if_pos ⟨negativeMin, negativeMax⟩] at allocated
        exact (Except.ok.inj allocated).symm
    · exact (logPin_outcome consensus _).imp fun st added => ⟨ready.allocations, storedAllocations_self ready, added⟩

/-- What `pin` stores for an object of its own: the object with its factors set up and some allocations.
A pin that is there before has the same type, does not become direct, and the object is checked. -/
structure Accepted (c : Cluster) (now : Clock) (consensus : Consensus) (object ready stored : Pin) : Prop where
  isCid : object.cid.defined = true
  factors : c.setupReplicationFactor object = (ready, none)
  stored : ∃ allocs, StoredAllocations ready allocs ∧ stored = { ready with timestamp := now 1, allocations := allocs }
  replaces : (consensus.state.get object.cid = .error .notFound ∨ consensus.call.1 = some .notFound) ∨
    ∃ existing, consensus.state.get object.cid = .ok existing ∧ existing.type = ready.type ∧
      (existing.mode = PinMode.recursive → ready.mode = PinMode.recursive) ∧ checkPinType ready = none

theorem defined_of_get (read : st.get h = .ok pin) (isCid : h.defined = true) : pin.defined = true := by
  obtain ⟨data, -, -, rfl⟩ := get_eq_ok_iff.mp read
  exact isCid

theorem submitted_outcome {order : MapOrder} {blacklist : List PeerID} (isCid : object.cid.defined = true)
    (unchanged : next.state = consensus.state) (replaces : existing.defined = false ∧
        (consensus.state.get object.cid = .error .notFound ∨ consensus.call.1 = some .notFound) ∨
      existing.defined = true ∧ consensus.state.get object.cid = .ok existing) :
    CallOutcome consensus.state (match c.setupPin now object existing with
        | (pin, some err) => ((pin, false, some err), next)
        | (pin, none) => c.submitPin order now next pin existing blacklist).1.2.2
      (match c.setupPin now object existing with
        | (pin, some err) => ((pin, false, some err), next)
        | (pin, none) => c.submitPin order now next pin existing blacklist).2.state fun st =>
          ∃ ready stored, Accepted c now consensus object ready stored ∧ st = consensus.state.add stored := by
  cases checked : c.setupPin now object existing with
  | mk ready err =>
    cases err with
    | some err => exact .inl ⟨some_ne_none _, unchanged⟩
    | none =>
      obtain ⟨factors, kept⟩ := setupPin_eq_none checked
      have logged := submitPin_outcome c order now next ready existing blacklist
      rw [unchanged] at logged
      refine logged.imp fun st ⟨allocs, ofMeta, added⟩ => ⟨ready, _, ⟨isCid, factors, ⟨allocs, ofMeta, rfl⟩, ?_⟩, added⟩
      rcases replaces with ⟨-, absent⟩ | ⟨present, read⟩
      · exact .inl absent
      · exact .inr ⟨existing, read, kept present⟩

/-- `pin` stores the updated copy of another pin when the object names one, and otherwise the object. -/
theorem pin_outcome (c : Cluster) (order : MapOrder) (now : Clock) (consensus : Consensus) (object : Pin)
    (blacklist : List PeerID) : CallOutcome consensus.state (c.pin order now consensus object blacklist).1.2.2
      (c.pin order now consensus object blacklist).2.state fun st =>
        if object.pinUpdate.defined = true ∧ object.pinUpdate ≠ object.cid then
          ∃ existing, consensus.state.get object.pinUpdate = .ok existing ∧ existing.type = dataType ∧
            st = consensus.state.add (updatedPin now object.pinUpdate object.cid object.toPinOptions existing)
        else ∃ ready stored, Accepted c now consensus object ready stored ∧ st = consensus.state.add stored := by
  have same := pinGet_state consensus object.cid
  unfold pin
  split
  · exact .inl ⟨some_ne_none _, rfl⟩
  split
  · exact .inl ⟨some_ne_none _, rfl⟩
  next defined =>
  split
  · exact pinUpdate_outcome now consensus object.pinUpdate object.cid object.toPinOptions
  next =>
  have isCid : object.cid.defined = true := by simpa using defined
  cases found : pinGet consensus object.cid with
  | mk answer next =>
    rw [found] at same
    cases answer with
    | ok existing =>
      have read : consensus.state.get object.cid = .ok existing := pinGet_eq_ok (by rw [found])
      exact submitted_outcome isCid same (.inr ⟨defined_of_get read isCid, read⟩)
    | error err =>
      cases err with
      | notFound => exact submitted_outcome isCid same (.inl ⟨rfl, pinGet_eq_notFound (by rw [found])⟩)
      | text message => exact .inl ⟨some_ne_none _, same⟩

theorem pin_everywhere_of_new (writes : c.config.followerMode = false) (healthy : Healthy consensus)
    (isCid : object.cid.defined = true) (noUpdate : object.pinUpdate.defined = false)
    (everywhere : object.replicationFactorMin = -1 ∧ object.replicationFactorMax = -1)
    (lasting : object.expireAt.isZero = true) (new : consensus.state.get object.cid = .error .notFound)
    (blacklist : List PeerID) : (c.pin order now consensus object blacklist).1.2.2 = none := by
  obtain ⟨everyMin, everyMax⟩ := everywhere
  obtain ⟨next, found, -, healthyNext⟩ := healthy.pinGet object.cid
  rw [new] at found
  have factors : c.setupReplicationFactor object = ({ object with allocations := [] }, none) := by
    have isEverywhere : object.isPinEverywhere = true := by simp [Pin.isPinEverywhere, everyMin, everyMax]
    have setMin : ¬ object.replicationFactorMin = 0 := by omega
    have setMax : ¬ object.replicationFactorMax = 0 := by omega
    simp only [setupReplicationFactor, setMin, setMax, ↓reduceIte]
    change (if object.isPinEverywhere = true then { object with allocations := [] } else object, _) = _
    rw [if_pos isEverywhere, everyMin, everyMax]
    rfl
  have checked : c.setupPin now object {} = ({ object with allocations := [] }, none) := by
    have undefined : Pin.defined {} = false := rfl
    simp only [setupPin, factors, lasting, Bool.not_true, Bool.false_and, Bool.false_eq_true, ↓reduceIte,
      undefined, Bool.not_false]
  have allocated : c.allocate order {} object.replicationFactorMin object.replicationFactorMax blacklist
      object.userAllocations = .ok [] := by
    rw [everyMin, everyMax]
    rfl
  obtain ⟨last, called, -, -⟩ := healthyNext.call
  simp only [pin, writes, Bool.false_eq_true, ↓reduceIte, isCid, Bool.not_true, noUpdate, false_and, found,
    Except.toOption, getD_none, checked, submitPin, allocated, List.length_nil, logPin, called]
  split <;> rfl

end

theorem isReplicationFactorValid_eq_none_iff (rplMin rplMax : ℤ) : isReplicationFactorValid rplMin rplMax = none ↔
      (rplMin = -1 ∧ rplMax = -1) ∨ (0 < rplMin ∧ rplMin ≤ rplMax) := by
  unfold isReplicationFactorValid
  split_ifs <;> simp only [false_iff, true_iff] <;> omega

def Fits (factor : ℤ) : Prop := (BitVec.ofInt 32 factor).toInt = factor

theorem fits_of_bounds {factor : ℤ} (lower : -1 ≤ factor) (upper : factor < 2 ^ 31) : Fits factor := by
  rw [Fits, BitVec.toInt_ofInt]
  apply Int.bmod_eq_of_le <;> omega

def KnownType (type : PinType) : Prop :=
  type = dataType ∨ type = metaType ∨ type = clusterDAGType ∨ type = shardType

theorem setupReplicationFactor_eq_none {c : Cluster} {object ready : Pin}
    (passed : c.setupReplicationFactor object = (ready, none)) :
    ready.type = object.type ∧ ready.reference = object.reference ∧
      (ready.replicationFactorMax = object.replicationFactorMax ∨
        ready.replicationFactorMax = c.config.replicationFactorMax) ∧
      isReplicationFactorValid ready.replicationFactorMin ready.replicationFactorMax = none := by
  unfold setupReplicationFactor at passed
  obtain ⟨rfl, valid⟩ := Prod.mk.inj passed
  dsimp only
  split_ifs <;> simp_all

end IpfsCluster.Proofs.Cluster
