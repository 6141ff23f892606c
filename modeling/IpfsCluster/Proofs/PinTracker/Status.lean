import IpfsCluster.Model.PinTracker.Status
import IpfsCluster.Proofs.IpfsConn.PinLs
import IpfsCluster.Proofs.PinTracker.Steps

/-! # What the listings report

Each CID has one pin in the state and one tracked operation at most, so every list of statuses here is determined by its
members. The listing of a truthful daemon has the recursive pins only, while the question for one CID is about the mode
of the pin.
-/

namespace IpfsCluster.Model.PinTracker.Tracker

open Api

variable (spt : Tracker) (st : DsState) (ipfsid : IPFSID) (ipfsRecursivePins : IPFSPins)

def statusOf (p : Pin) : PinInfo :=
  (spt.optracker.getExists p.cid ipfsid).getD (spt.statePinInfo ipfsid ipfsRecursivePins p)

def outside : List Operation := spt.optracker.tracked.filter fun op => op.cid ∉ st.list.map Pin.cid

/-- The status of a pin by its kind and by the pins in IPFS. -/
def compared (pins : List IPFSPinInfo) (p : Pin) : TrackerStatus :=
  if p.type = PinType.metaType then TrackerStatus.sharded
  else if p.isRemotePin spt.peerID then TrackerStatus.remote
  else if p.cid ∈ pins.map (·.cid) then TrackerStatus.pinned
  else TrackerStatus.unexpectedlyUnpinned

def statuses : List PinInfo :=
  st.list.map (spt.statusOf ipfsid ipfsRecursivePins) ++
    (spt.outside st).map fun op => spt.optracker.unsafePinInfo op ipfsid

end IpfsCluster.Model.PinTracker.Tracker

namespace IpfsCluster.Proofs.PinTracker

open Model Model.Api Model.PinTracker TrackerStatus Tracker List

section

variable {filter st mask : TrackerStatus}

theorem matchesFilter_comm (st filter : TrackerStatus) : st.matchesFilter filter = filter.matchesFilter st := by
  unfold matchesFilter
  rw [BitVec.and_comm, Bool.or_comm (decide (filter = _))]

theorem matchesFilter_iff (small : st.msb = false) :
    filter.matchesFilter st = true ↔ st = 0 ∨ filter = 0 ∨ filter &&& st ≠ 0 := by
  have sign : (filter &&& st).msb = false := by rw [BitVec.msb_and, small, Bool.and_false]
  have positive : 0 < (filter &&& st).toInt ↔ filter &&& st ≠ 0 := by
    rw [BitVec.toInt_eq_toNat_of_msb sign, Int.natCast_pos, Nat.pos_iff_ne_zero, ne_eq, ne_eq, BitVec.toNat_eq]
    rfl
  rw [matchesFilter, Bool.or_eq_true, Bool.or_eq_true, decide_eq_true_iff, decide_eq_true_iff,
    decide_eq_true_iff, positive, or_assoc]
  rfl

theorem unmatched_of_subset (unmatched : filter.matchesFilter mask = false) (contains : mask &&& st = st)
    (small : mask.msb = false) (some : st ≠ 0) : filter.matchesFilter st = false := by
  have smaller : st.msb = false := by rw [← contains, BitVec.msb_and, small, Bool.false_and]
  rw [← Bool.not_eq_true] at unmatched ⊢
  rw [matchesFilter_iff small, not_or, not_or, not_not] at unmatched
  rw [matchesFilter_iff smaller, not_or, not_or, not_not]
  refine ⟨some, unmatched.2.1, ?_⟩
  rw [← contains, ← BitVec.and_assoc, unmatched.2.2]
  exact BitVec.zero_and

end

variable {c : Cid}

section

variable {st : DsState} {p : Pin}

theorem cid_of_deserializePin {data : Pb.Pin} (read : DsState.deserializePin c data = .ok p) : p.cid = c := by
  unfold DsState.deserializePin at read
  cases unmarshaled : Pin.protoUnmarshal data with
  | error err =>
    rw [unmarshaled] at read
    cases read
  | ok pin =>
    rw [unmarshaled] at read
    obtain rfl := Except.ok.inj read
    rfl

theorem toOption_eq_some {ε α : Type} {result : Except ε α} {a : α} : result.toOption = some a ↔ result = .ok a := by
  cases result with
  | error err => exact iff_of_false nofun nofun
  | ok b => exact ⟨fun same => congrArg _ (Option.some.inj same), fun same => congrArg _ (Except.ok.inj same)⟩

theorem mem_list_iff : p ∈ st.list ↔ ∃ data, st.store.lookup p.cid = some data ∧ DsState.deserializePin p.cid data = .ok p := by
  unfold DsState.list
  rw [mem_filterMap]
  constructor
  · rintro ⟨⟨c, data⟩, stored, read⟩
    have ok : DsState.deserializePin c data = .ok p := toOption_eq_some.mp read
    obtain rfl := cid_of_deserializePin ok
    exact ⟨data, AList.mem_entries_iff.mp stored, ok⟩
  · rintro ⟨data, stored, ok⟩
    exact ⟨⟨p.cid, data⟩, AList.mem_entries_iff.mpr stored, by rw [ok]; rfl⟩

theorem get_of_mem_list (member : p ∈ st.list) : st.get p.cid = .ok p := by
  obtain ⟨data, stored, read⟩ := mem_list_iff.mp member
  rw [DsState.get, stored]
  exact read

theorem mem_list_of_get {pin : Pin} (read : st.get c = .ok pin) : pin ∈ st.list ∧ pin.cid = c := by
  unfold DsState.get at read
  split at read
  · cases read
  next data stored =>
    obtain rfl := cid_of_deserializePin read
    exact ⟨mem_list_iff.mpr ⟨data, stored, read⟩, rfl⟩

theorem list_pairwise (st : DsState) : st.list.Pairwise fun p p' => p.cid ≠ p'.cid := by
  have keys : st.store.entries.Pairwise fun entry entry' => entry.1 ≠ entry'.1 :=
    nodupKeys_iff_pairwise.mp st.store.nodupKeys
  refine keys.filterMap _ ?_
  intro entry entry' differ p read p' read'
  rwa [cid_of_deserializePin (toOption_eq_some.mp read), cid_of_deserializePin (toOption_eq_some.mp read')]

end

variable {op : Operation} {info : PinInfo}

section

variable {t : OperationTracker}

theorem mem_tracked_iff : op ∈ t.tracked ↔ ∃ ref, t.find op.cid = some (ref, op) := by
  unfold OperationTracker.tracked
  rw [mem_filterMap]
  constructor
  · rintro ⟨⟨c, ref⟩, entry, present⟩
    have tracked := AList.mem_entries_iff.mp entry
    obtain rfl := cid_of_lookup tracked present
    exact ⟨ref, find_of_lookup tracked present⟩
  · rintro ⟨ref, found⟩
    obtain ⟨tracked, present, -⟩ := t.find_eq_some found
    exact ⟨⟨op.cid, ref⟩, AList.mem_entries_iff.mpr tracked, present⟩

theorem eq_of_mem_tracked {op' : Operation} (member : op ∈ t.tracked) (member' : op' ∈ t.tracked)
    (same : op.cid = op'.cid) : op = op' := by
  obtain ⟨ref, found⟩ := mem_tracked_iff.mp member
  obtain ⟨ref', found'⟩ := mem_tracked_iff.mp member'
  rw [same, found'] at found
  exact (Prod.mk.inj (Option.some.inj found)).2.symm

theorem tracked_pairwise (t : OperationTracker) : t.tracked.Pairwise fun op op' => op.cid ≠ op'.cid := by
  have keys : t.operations.entries.Pairwise fun entry entry' => entry.1 ≠ entry'.1 :=
    nodupKeys_iff_pairwise.mp t.operations.nodupKeys
  have owned : t.operations.entries.Pairwise fun entry entry' =>
      ∀ op ∈ t.heap[entry.2]?, ∀ op' ∈ t.heap[entry'.2]?, op.cid ≠ op'.cid := by
    refine keys.imp_of_mem ?_
    intro entry entry' member member' differ op present op' present'
    rwa [cid_of_lookup (AList.mem_entries_iff.mp member) present,
      cid_of_lookup (AList.mem_entries_iff.mp member') present']
  exact owned.filterMap _ fun _ _ differ => differ

theorem getExists_eq_some_iff {ipfsid : IPFSID} :
    t.getExists c ipfsid = some info ↔ ∃ op ∈ t.tracked, op.cid = c ∧ info = t.unsafePinInfo op ipfsid := by
  constructor
  · intro found
    obtain ⟨⟨ref, op⟩, at', rfl⟩ := Option.map_eq_some_iff.mp found
    obtain ⟨-, -, rfl⟩ := t.find_eq_some at'
    exact ⟨op, mem_tracked_iff.mpr ⟨ref, at'⟩, rfl, rfl⟩
  · rintro ⟨op, member, rfl, rfl⟩
    obtain ⟨ref, found⟩ := mem_tracked_iff.mp member
    rw [OperationTracker.getExists, found]
    rfl

end

section

variable {spt : Tracker} {ipfsid : IPFSID} {pins pins' : IPFSPins} {p : Pin}

def OnlyPinned (pins : IPFSPins) : Prop :=
  ∀ c type, pins.lookup c = some type → type = .recursive ∨ type = .direct

def Elsewhere (spt : Tracker) (p : Pin) : Prop := p.type = PinType.metaType ∨ p.isRemotePin spt.peerID = true

theorem statePinInfo_cid : (spt.statePinInfo ipfsid pins p).cid = p.cid := by
  unfold statePinInfo
  split
  · rfl
  · split
    · rfl
    · split <;> rfl

theorem statePinInfo_of_elsewhere (elsewhere : Elsewhere spt p) :
    spt.statePinInfo ipfsid pins p = spt.statePinInfo ipfsid pins' p := by
  unfold statePinInfo
  by_cases isMeta : p.type = PinType.metaType
  · simp [isMeta]
  · simp [isMeta, elsewhere.resolve_left isMeta]

theorem statePinInfo_status_of_elsewhere (elsewhere : Elsewhere spt p) : (spt.statePinInfo ipfsid pins p).status =
      if p.type = PinType.metaType then sharded else remote := by
  unfold statePinInfo
  by_cases isMeta : p.type = PinType.metaType
  · simp [isMeta]
  · simp [isMeta, elsewhere.resolve_left isMeta]

theorem statePinInfo_status_of_here (here : ¬ Elsewhere spt p) : (spt.statePinInfo ipfsid pins p).status =
      match pins.lookup p.cid with
      | some type => type.toTrackerStatus
      | none => unexpectedlyUnpinned := by
  obtain ⟨notMeta, notRemote⟩ := not_or.mp here
  unfold statePinInfo
  rw [if_neg notMeta, if_neg notRemote]
  cases pins.lookup p.cid <;> rfl

theorem statePinInfo_status_of_onlyPinned (here : ¬ Elsewhere spt p) (listed : OnlyPinned pins) :
    (spt.statePinInfo ipfsid pins p).status = pinned ∨
      (spt.statePinInfo ipfsid pins p).status = unexpectedlyUnpinned := by
  rw [statePinInfo_status_of_here here]
  cases found : pins.lookup p.cid with
  | none => exact .inr rfl
  | some type =>
    rcases listed p.cid type found with rfl | rfl <;> exact .inl rfl

end

section

theorem ipfsPins_append (pins : List IPFSPinInfo) (info : IPFSPinInfo) :
    ipfsPins (pins ++ [info]) = (ipfsPins pins).insert info.cid info.type := by
  rw [ipfsPins, foldl_append]
  rfl

theorem lookup_ipfsPins (pins : List IPFSPinInfo) (c : Cid) :
    (∀ type, (ipfsPins pins).lookup c = some type → ∃ info ∈ pins, info.cid = c ∧ info.type = type) ∧
      ((ipfsPins pins).lookup c = none → ∀ info ∈ pins, info.cid ≠ c) := by
  induction pins using reverseRecOn with
  | nil => exact ⟨nofun, fun _ info member => (not_mem_nil member).elim⟩
  | append_singleton rest info ih =>
    rw [ipfsPins_append]
    by_cases here : c = info.cid
    · subst here
      rw [AList.lookup_insert]
      exact ⟨fun type same => ⟨info, by simp, rfl, Option.some.inj same⟩, nofun⟩
    · rw [AList.lookup_insert_ne here]
      refine ⟨fun type found => ?_, fun absent other member => ?_⟩
      · obtain ⟨other, member, same⟩ := ih.1 type found
        exact ⟨other, mem_append_left _ member, same⟩
      · rcases mem_append.mp member with old | new
        · exact ih.2 absent other old
        · rw [mem_singleton.mp new]
          exact Ne.symm here

variable {pins : List IPFSPinInfo}

theorem onlyPinned_ipfsPins (listed : ∀ info ∈ pins, info.type = .recursive ∨ info.type = .direct) :
    OnlyPinned (ipfsPins pins) := by
  intro c type found
  obtain ⟨info, member, -, rfl⟩ := (lookup_ipfsPins pins c).1 type found
  exact listed info member

theorem statePinInfo_status {spt : Tracker} {ipfsid : IPFSID} {p : Pin}
    (typed : ∀ info ∈ pins, info.type = .recursive ∨ info.type = .direct) :
    (spt.statePinInfo ipfsid (ipfsPins pins) p).status = spt.compared pins p := by
  by_cases elsewhere : Elsewhere spt p
  · rw [statePinInfo_status_of_elsewhere elsewhere, compared]
    by_cases isMeta : p.type = PinType.metaType
    · rw [if_pos isMeta, if_pos isMeta]
    · rw [if_neg isMeta, if_neg isMeta, if_pos (elsewhere.resolve_left isMeta)]
  · obtain ⟨notMeta, notRemote⟩ := not_or.mp elsewhere
    obtain ⟨entry, noEntry⟩ := lookup_ipfsPins pins p.cid
    rw [statePinInfo_status_of_here elsewhere, compared, if_neg notMeta, if_neg notRemote]
    cases found : (ipfsPins pins).lookup p.cid with
    | none =>
      rw [if_neg]
      intro member
      obtain ⟨info, listed, same⟩ := mem_map.mp member
      exact noEntry found info listed same
    | some type =>
      obtain ⟨info, listed, same, rfl⟩ := entry type found
      rw [if_pos (mem_map.mpr ⟨info, listed, same⟩)]
      rcases typed info listed with isType | isType
      · rw [isType]
        rfl
      · rw [isType]
        rfl

end

section

variable {spt : Tracker} {st : DsState} {ipfsid : IPFSID} {pins : IPFSPins}
  {filter : TrackerStatus} {p : Pin}

/-- The operation of a pin does not match the filter, and the status found by comparison does. -/
def FallsThrough (spt : Tracker) (ipfsid : IPFSID) (pins : IPFSPins) (filter : TrackerStatus)
    (p : Pin) : Prop :=
  (∃ op ∈ spt.optracker.tracked, op.cid = p.cid ∧ op.toTrackerStatus.matchesFilter filter = false) ∧
    (spt.statePinInfo ipfsid pins p).status.matchesFilter filter = true

variable {infos : List IPFSPinInfo}

theorem forall_not_fallsThrough_iff (ipfsid : IPFSID)
    (typed : ∀ info ∈ infos, info.type = .recursive ∨ info.type = .direct) :
    (∀ p ∈ st.list, ¬ FallsThrough spt ipfsid (ipfsPins infos) filter p) ↔
      ∀ p ∈ st.list, ∀ op ∈ spt.optracker.tracked, op.cid = p.cid →
        op.toTrackerStatus.matchesFilter filter = false → (spt.compared infos p).matchesFilter filter = false := by
  refine forall_congr' fun p => forall_congr' fun _ => ?_
  unfold FallsThrough
  rw [statePinInfo_status typed]
  constructor
  · intro stays op tracked same unmatched
    rw [← Bool.not_eq_true]
    exact fun matched => stays ⟨⟨op, tracked, same, unmatched⟩, matched⟩
  · rintro stays ⟨⟨op, tracked, same, unmatched⟩, matched⟩
    cases (stays op tracked same unmatched).symm.trans matched

theorem statusOfPin_eq_some_iff : spt.statusOfPin ipfsid pins filter p = some info ↔
      ((spt.statusOf ipfsid pins p).status.matchesFilter filter = true ∧ info = spt.statusOf ipfsid pins p) ∨
        (FallsThrough spt ipfsid pins filter p ∧ info = spt.statePinInfo ipfsid pins p) := by
  unfold statusOfPin statusOf FallsThrough
  simp only [matchesFilter_comm filter]
  cases found : spt.optracker.getExists p.cid ipfsid with
  | none =>
    have noOp : ¬ ∃ op ∈ spt.optracker.tracked, op.cid = p.cid ∧ op.toTrackerStatus.matchesFilter filter = false := by
      rintro ⟨op, member, same, -⟩
      cases found.symm.trans (getExists_eq_some_iff.mpr ⟨op, member, same, rfl⟩)
    simp only [noOp, false_and, or_false, Option.getD_none, Option.ite_none_right_eq_some, Option.some.injEq]
    exact and_congr_right fun _ => eq_comm
  | some oppi =>
    obtain ⟨op, member, same, rfl⟩ := getExists_eq_some_iff.mp found
    simp only [Option.getD_some]
    change (if op.toTrackerStatus.matchesFilter filter = true then _ else _) = _ ↔
      (op.toTrackerStatus.matchesFilter filter = true ∧ _) ∨ _
    cases matched : op.toTrackerStatus.matchesFilter filter with
    | true =>
      have unique : ¬ ∃ op' ∈ spt.optracker.tracked, op'.cid = p.cid ∧
          op'.toTrackerStatus.matchesFilter filter = false := by
        rintro ⟨op', member', same', unmatched⟩
        obtain rfl := eq_of_mem_tracked member' member (same'.trans same.symm)
        cases unmatched.symm.trans matched
      simp only [if_true, unique, false_and, or_false, true_and, Option.some.injEq]
      exact eq_comm
    | false =>
      simp only [Bool.false_eq_true, if_false, false_and, false_or, Option.ite_none_right_eq_some, Option.some.injEq]
      constructor
      · rintro ⟨derived, rfl⟩
        exact ⟨⟨⟨op, member, same, matched⟩, derived⟩, rfl⟩
      · rintro ⟨⟨-, derived⟩, rfl⟩
        exact ⟨derived, rfl⟩

theorem statusOf_cid : (spt.statusOf ipfsid pins p).cid = p.cid := by
  unfold statusOf
  cases found : spt.optracker.getExists p.cid ipfsid with
  | none => exact statePinInfo_cid
  | some oppi =>
    obtain ⟨op, -, same, rfl⟩ := getExists_eq_some_iff.mp found
    exact same

theorem statusOf_of_tracked (tracked : op ∈ spt.optracker.tracked) (same : op.cid = p.cid) :
    spt.statusOf ipfsid pins p = spt.optracker.unsafePinInfo op ipfsid := by
  rw [statusOf, getExists_eq_some_iff.mpr ⟨op, tracked, same, rfl⟩]
  rfl

theorem statusOfPin_cid (sent : spt.statusOfPin ipfsid pins filter p = some info) : info.cid = p.cid := by
  rcases statusOfPin_eq_some_iff.mp sent with ⟨-, rfl⟩ | ⟨-, rfl⟩
  · exact statusOf_cid
  · exact statePinInfo_cid

def stateMask : TrackerStatus :=
  pinned ||| unexpectedlyUnpinned ||| sharded ||| remote

def ipfsMask : TrackerStatus := pinned ||| unexpectedlyUnpinned

theorem statusOfPin_of_unqueried (unqueried : filter.matchesFilter ipfsMask = false) (listed : OnlyPinned pins) :
    spt.statusOfPin ipfsid ∅ filter p = spt.statusOfPin ipfsid pins filter p := by
  have unmatched {listing : IPFSPins} (here : ¬ Elsewhere spt p) (only : OnlyPinned listing) :
      filter.matchesFilter (spt.statePinInfo ipfsid listing p).status = false := by
    rcases statePinInfo_status_of_onlyPinned here only with status | status
    all_goals
      rw [status]
      exact unmatched_of_subset unqueried (by decide) (by decide) (by decide)
  unfold statusOfPin
  by_cases elsewhere : Elsewhere spt p
  · rw [statePinInfo_of_elsewhere elsewhere]
  · have none : OnlyPinned ∅ := fun c type found => by cases found
    simp [unmatched elsewhere listed, unmatched elsewhere none]

theorem statePinInfo_unmatched (shortcut : filter.matchesFilter stateMask = false) (listed : OnlyPinned pins) :
    (spt.statePinInfo ipfsid pins p).status.matchesFilter filter = false := by
  rw [matchesFilter_comm]
  by_cases elsewhere : Elsewhere spt p
  · rw [statePinInfo_status_of_elsewhere elsewhere]
    split
    all_goals exact unmatched_of_subset shortcut (by decide) (by decide) (by decide)
  · rcases statePinInfo_status_of_onlyPinned elsewhere listed with status | status
    all_goals
      rw [status]
      exact unmatched_of_subset shortcut (by decide) (by decide) (by decide)

theorem statusAll_of_shortcut (getState : Except String DsState) (ipfs : IpfsConn.Connector)
    (shortcut : filter.matchesFilter stateMask = false) :
    spt.statusAll getState ipfs ipfsid filter = (spt.optracker.getAllChannel filter ipfsid, none) := by
  unfold statusAll
  rw [if_pos]
  rw [Bool.not_eq_true']
  exact shortcut

theorem statusAll_of_listed {ipfs : IpfsConn.Connector} (fromState : filter.matchesFilter stateMask = true)
    (listed : ipfs.pinLs ["recursive", "direct"] = (infos, none))
    (typed : ∀ info ∈ infos, info.type = .recursive ∨ info.type = .direct) : spt.statusAll (.ok st) ipfs ipfsid filter =
      (st.list.filterMap (spt.statusOfPin ipfsid (ipfsPins infos) filter), none) := by
  unfold statusAll
  rw [if_neg]
  · dsimp only
    split
    · rw [listed]
    next unqueried =>
      rw [Bool.not_eq_true] at unqueried
      have same : spt.statusOfPin ipfsid ∅ filter = spt.statusOfPin ipfsid (ipfsPins infos) filter :=
        funext fun p => statusOfPin_of_unqueried unqueried (onlyPinned_ipfsPins typed)
      rw [same]
  · rw [Bool.not_eq_true', Bool.not_eq_false]
    exact fromState

theorem mem_statuses_iff : info ∈ spt.statuses st ipfsid pins ↔ (∃ p ∈ st.list, info = spt.statusOf ipfsid pins p) ∨
        ∃ op ∈ spt.outside st, info = spt.optracker.unsafePinInfo op ipfsid := by
  unfold statuses
  rw [mem_append, mem_map, mem_map]
  exact or_congr (exists_congr fun p => and_congr_right fun _ => eq_comm)
    (exists_congr fun op => and_congr_right fun _ => eq_comm)

theorem mem_outside_iff : op ∈ spt.outside st ↔ op ∈ spt.optracker.tracked ∧ ∀ p ∈ st.list, p.cid ≠ op.cid := by
  unfold outside
  rw [mem_filter, decide_eq_true_iff, mem_map, not_exists]
  exact and_congr_right fun _ => forall_congr' fun p => not_and

theorem perm_iff_of_pairwise {infos infos' : List PinInfo} (distinct : infos.Pairwise fun i i' => i.cid ≠ i'.cid)
    (distinct' : infos'.Pairwise fun i i' => i.cid ≠ i'.cid) :
    infos.Perm infos' ↔ ∀ info, info ∈ infos ↔ info ∈ infos' :=
  perm_ext_iff_of_nodup (distinct.imp fun differ same => differ (congrArg _ same))
    (distinct'.imp fun differ same => differ (congrArg _ same))

theorem statuses_pairwise : (spt.statuses st ipfsid pins).Pairwise fun i i' => i.cid ≠ i'.cid := by
  unfold statuses
  rw [pairwise_append, pairwise_map, pairwise_map]
  refine ⟨(list_pairwise st).imp ?_, (tracked_pairwise _).filter _, ?_⟩
  · intro p p' differ
    rwa [statusOf_cid, statusOf_cid]
  · intro info member info' member'
    obtain ⟨p, listed, rfl⟩ := mem_map.mp member
    obtain ⟨op, outside, rfl⟩ := mem_map.mp member'
    rw [statusOf_cid]
    exact (mem_outside_iff.mp outside).2 p listed

theorem getAllChannel_pairwise : (spt.optracker.getAllChannel filter ipfsid).Pairwise fun i i' => i.cid ≠ i'.cid := by
  refine List.Pairwise.filter _ ?_
  rw [pairwise_map]
  exact tracked_pairwise spt.optracker

theorem statusOfPin_pairwise :
    (st.list.filterMap (spt.statusOfPin ipfsid pins filter)).Pairwise fun i i' => i.cid ≠ i'.cid := by
  refine (list_pairwise st).filterMap _ ?_
  intro p p' differ info sent info' sent'
  rwa [statusOfPin_cid sent, statusOfPin_cid sent']

end

open Model.IpfsConn Proofs.IpfsConn

def listing (pinset : IPFSPinset) : IPFSPins :=
  ipfsPins (pinset.recursive.map fun c => ⟨c, .recursive⟩)

theorem lookup_listing (pinset : IPFSPinset) (c : Cid) :
    (listing pinset).lookup c = if c ∈ pinset.recursive then some .recursive else none := by
  obtain ⟨entry, noEntry⟩ := lookup_ipfsPins (pinset.recursive.map fun c => ⟨c, .recursive⟩) c
  cases found : (listing pinset).lookup c with
  | none =>
    rw [if_neg fun pinned => noEntry found ⟨c, .recursive⟩ (mem_map_of_mem pinned) rfl]
  | some type =>
    obtain ⟨info, member, rfl, rfl⟩ := entry type found
    obtain ⟨c', pinned, rfl⟩ := mem_map.mp member
    rw [if_pos pinned]

def Untracked (spt : Tracker) (c : Cid) : Prop := ∀ op ∈ spt.optracker.tracked, op.cid ≠ c

section

variable {spt : Tracker} {st : DsState} {ipfs : Connector} {pinset : IPFSPinset} {ipfsid : IPFSID} {p : Pin}

theorem statusOfPin_undefined {pins : IPFSPins} (p : Pin) :
    spt.statusOfPin ipfsid pins undefined p = some (spt.statusOf ipfsid pins p) := by
  refine statusOfPin_eq_some_iff.mpr (.inl ⟨?_, rfl⟩)
  rw [matchesFilter, decide_eq_true rfl, Bool.true_or, Bool.true_or]

theorem statusAll_undefined (truthful : Truthful ipfs pinset) : (spt.statusAll (.ok st) ipfs ipfsid undefined).1 =
      st.list.map (spt.statusOf ipfsid (listing pinset)) := by
  have typed : ∀ info ∈ pinset.recursive.map fun c => (⟨c, .recursive⟩ : IPFSPinInfo),
      info.type = .recursive ∨ info.type = .direct := by
    intro info member
    obtain ⟨c, -, rfl⟩ := mem_map.mp member
    exact .inl rfl
  rw [statusAll_of_listed (by decide) (pinLs_of_truthful truthful) typed]
  change st.list.filterMap (spt.statusOfPin ipfsid (listing pinset) undefined) = _
  rw [funext statusOfPin_undefined, filterMap_eq_map']

theorem filter_statusOf (pins : IPFSPins) (member : p ∈ st.list) :
    ((st.list.map (spt.statusOf ipfsid pins)).filter fun info => info.cid = p.cid) = [spt.statusOf ipfsid pins p] := by
  have distinct : (st.list.map (spt.statusOf ipfsid pins)).Pairwise fun i i' => i.cid ≠ i'.cid := by
    rw [pairwise_map]
    exact (list_pairwise st).imp fun differ => by rwa [statusOf_cid, statusOf_cid]
  refine perm_singleton.mp ((perm_iff_of_pairwise (distinct.filter _) (pairwise_singleton _ _)).mpr ?_)
  intro info
  rw [mem_filter, mem_map, mem_singleton, decide_eq_true_iff]
  constructor
  · rintro ⟨⟨p', member', rfl⟩, same⟩
    rw [statusOf_cid] at same
    have read := get_of_mem_list member'
    rw [same, get_of_mem_list member] at read
    rw [Except.ok.inj read]
  · rintro rfl
    exact ⟨⟨p, member, rfl⟩, statusOf_cid⟩

theorem statusOf_of_untracked (untracked : spt.optracker.getExists p.cid ipfsid = none) (here : ¬ Elsewhere spt p) :
    (spt.statusOf ipfsid (listing pinset) p).status =
      if p.cid ∈ pinset.recursive then pinned else unexpectedlyUnpinned := by
  rw [statusOf, untracked, Option.getD_none, statePinInfo_status_of_here here, lookup_listing]
  by_cases pinned : p.cid ∈ pinset.recursive
  · rw [if_pos pinned, if_pos pinned]
    rfl
  · rw [if_neg pinned, if_neg pinned]

variable {now : Time}

theorem getExists_of_untracked {c : Cid} (untracked : Untracked spt c) : spt.optracker.getExists c ipfsid = none := by
  rw [Option.eq_none_iff_forall_ne_some]
  intro info found
  obtain ⟨op, tracked, same, -⟩ := getExists_eq_some_iff.mp found
  exact untracked op tracked same

theorem exists_of_not_untracked {c : Cid} (tracked : ¬ Untracked spt c) : ∃ op ∈ spt.optracker.tracked, op.cid = c := by
  simp only [Untracked, not_forall, not_not] at tracked
  obtain ⟨op, member, same⟩ := tracked
  exact ⟨op, member, same⟩

theorem status_of_tracked {op : Operation} (tracked : op ∈ spt.optracker.tracked) :
    (spt.status (.ok st) ipfs ipfsid now op.cid).status = op.toTrackerStatus := by
  rw [status, getExists_eq_some_iff.mpr ⟨op, tracked, rfl, rfl⟩]
  rfl

theorem status_of_elsewhere (untracked : spt.optracker.getExists p.cid ipfsid = none) (member : p ∈ st.list)
    (elsewhere : Elsewhere spt p) : (spt.status (.ok st) ipfs ipfsid now p.cid).status =
      if p.type = PinType.metaType then sharded else remote := by
  unfold status
  rw [untracked]
  dsimp only
  rw [get_of_mem_list member]
  by_cases isMeta : p.type = PinType.metaType
  · simp [isMeta]
  · simp [isMeta, elsewhere.resolve_left isMeta]

theorem status_of_here (untracked : spt.optracker.getExists p.cid ipfsid = none) (member : p ∈ st.list)
    (here : ¬ Elsewhere spt p) : (spt.status (.ok st) ipfs ipfsid now p.cid).status = match ipfs.pinLsCid p with
      | (_, some _) => clusterError
      | (ips, none) =>
        if ips.toTrackerStatus = unpinned then unexpectedlyUnpinned
        else ips.toTrackerStatus := by
  obtain ⟨notMeta, notRemote⟩ := not_or.mp here
  unfold status
  rw [untracked]
  dsimp only
  rw [get_of_mem_list member]
  dsimp only
  rw [if_neg notMeta, if_neg notRemote]
  rcases ipfs.pinLsCid p with ⟨ips, err | err⟩
  · dsimp only
    split <;> rfl
  · rfl

theorem toTrackerStatus_modeStatus (mode : PinMode) : (modeStatus mode).toTrackerStatus = pinned := by
  unfold modeStatus
  split <;> rfl

theorem status_of_truthful (truthful : Truthful ipfs pinset) (untracked : spt.optracker.getExists p.cid ipfsid = none)
    (member : p ∈ st.list) (here : ¬ Elsewhere spt p) (defined : p.defined = true) :
    (spt.status (.ok st) ipfs ipfsid now p.cid).status =
      if p.cid ∈ (if p.maxDepth = 0 then pinset.direct else pinset.recursive) then pinned
      else unexpectedlyUnpinned := by
  rw [status_of_here untracked member here, pinLsCid_of_truthful truthful defined, inMode_toPinMode]
  dsimp only
  by_cases pinned : p.cid ∈ if p.maxDepth = 0 then pinset.direct else pinset.recursive
  · rw [if_pos pinned, if_pos pinned, toTrackerStatus_modeStatus, if_neg (by decide)]
  · rw [if_neg pinned, if_neg pinned]
    rfl

theorem status_of_notDefined (untracked : spt.optracker.getExists p.cid ipfsid = none) (member : p ∈ st.list)
    (here : ¬ Elsewhere spt p) (notDefined : p.defined = false) :
    (spt.status (.ok st) ipfs ipfsid now p.cid).status = clusterError := by
  rw [status_of_here untracked member here, Connector.pinLsCid, notDefined]
  rfl

end

end IpfsCluster.Proofs.PinTracker
