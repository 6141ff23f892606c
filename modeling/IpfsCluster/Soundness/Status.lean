import IpfsCluster.Proofs.PinTracker.Status

/-! # Listing statuses and looking them up

With a filter that needs the state, `StatusAll` leaves out the operations for CIDs outside the pinset, and reports the
status found by comparison for a pin whose operation the filter rejects. Its listing of the pins in IPFS ends with the
recursive ones.
-/

namespace IpfsCluster.Soundness

open Model Model.Api Model.IpfsConn Proofs.IpfsConn Model.PinTracker Proofs.PinTracker List TrackerStatus DsState

section

variable {post : ℕ → PinLsRequest → Except PostError Body} {typeFilters : List String}

def listedPins (listed : ℕ → List RawPin) (count : ℕ) : List IPFSPinInfo :=
  (List.range count).flatMap fun i => (listed i).map RawPin.decode

theorem listedPins_succ (listed : ℕ → List RawPin) (count : ℕ) :
    listedPins listed (count + 1) = (listed 0).map RawPin.decode ++ listedPins (fun i => listed (i + 1)) count := by
  rw [listedPins, range_succ_eq_map, flatMap_cons, flatMap_map]
  rfl

/-- When all requests are answered, a listing sends the pins of all filters, returns no error and sets the number of
pins to what it has sent, exactly if no filter but the first one lists any pins, and there is no filter or the number
was right before. -/
theorem pinLs_exact_iff (ipfsPinCount : ℤ) (listed : ℕ → List RawPin)
    (answered : ∀ i typeFilter, typeFilters[i]? = some typeFilter →
      post i (.list typeFilter) = .ok ((listed i).map .ok)) : pinLsCounting post ipfsPinCount typeFilters =
        (listedPins listed typeFilters.length, none, ((listedPins listed typeFilters.length).length : ℤ)) ↔
      (∀ i < typeFilters.length, i ≠ 0 → listed i = []) ∧ (typeFilters = [] ∨ ipfsPinCount = (listed 0).length) := by
  cases typeFilters with
  | nil => exact iff_of_true rfl ⟨fun i inside => absurd inside (Nat.not_lt_zero i), .inl rfl⟩
  | cons typeFilter rest =>
    have later : (∀ i < (typeFilter :: rest).length, i ≠ 0 → listed i = []) ↔
        listedPins (fun i => listed (i + 1)) rest.length = [] := by
      simp only [listedPins, flatMap_eq_nil_iff, mem_range, map_eq_nil_iff]
      constructor
      · exact fun empty i inside => empty (i + 1) (Nat.succ_lt_succ inside) (Nat.succ_ne_zero i)
      · intro empty i inside positive
        obtain ⟨i, rfl⟩ := Nat.exists_eq_succ_of_ne_zero positive
        exact empty i (Nat.lt_of_succ_lt_succ inside)
    rw [pinLsCounting_cons (answered 0 typeFilter rfl), later, length_cons, listedPins_succ, Prod.mk.injEq,
      Prod.mk.injEq, self_eq_append_right]
    constructor
    · rintro ⟨empty, -, counted⟩
      rw [empty, append_nil, length_map] at counted
      exact ⟨empty, .inr counted⟩
    · rintro ⟨empty, counted⟩
      rw [empty, append_nil, length_map]
      exact ⟨rfl, rfl, counted.resolve_left (cons_ne_nil _ _)⟩

theorem pinLs_exact_iff_recursive :
    pinLsCounting (fun _ => (daemon { recursive := [⟨"A"⟩] }).postCtxStreamResponse) 1 ["recursive", "direct"] =
      ([{ cid := ⟨"A"⟩, type := .recursive }], none, 1) := by
  refine (pinLs_exact_iff 1 (fun i => if i = 0 then [⟨⟨"A"⟩, "recursive"⟩] else []) fun i typeFilter found => ?_).mpr
    ⟨fun i _ positive => if_neg positive, .inr rfl⟩
  obtain _ | _ | i := i
  · cases found
    rfl
  · cases found
    rfl
  · cases found

theorem pinLs_omits_direct :
    pinLsCounting (fun _ => (daemon { recursive := [⟨"A"⟩], direct := [⟨"B"⟩] }).postCtxStreamResponse) 0
        ["recursive", "direct"] =
      ([{ cid := ⟨"A"⟩, type := .recursive }], none, 0) := by
  decide

end

section

variable {spt : Tracker} {st : DsState} {ipfsid : IPFSID} {pins : IPFSPins}
  {filter : TrackerStatus}

theorem mem_getAllChannel_iff (unmatched : ∀ p ∈ st.list, (spt.statePinInfo ipfsid pins p).status.matchesFilter filter = false)
    (info : PinInfo) : info ∈ spt.optracker.getAllChannel filter ipfsid ↔
      info ∈ spt.statuses st ipfsid pins ∧ info.status.matchesFilter filter = true := by
  unfold OperationTracker.getAllChannel
  rw [mem_filter, mem_map]
  refine and_congr_left fun matched => ?_
  rw [mem_statuses_iff]
  constructor
  · rintro ⟨op, tracked, rfl⟩
    by_cases inPinset : ∃ p ∈ st.list, p.cid = op.cid
    · obtain ⟨p, listed, same⟩ := inPinset
      exact .inl ⟨p, listed, (statusOf_of_tracked tracked same.symm).symm⟩
    · exact .inr ⟨op, mem_outside_iff.mpr ⟨tracked, fun p listed same => inPinset ⟨p, listed, same⟩⟩, rfl⟩
  · rintro (⟨p, listed, rfl⟩ | ⟨op, outside, rfl⟩)
    · unfold Tracker.statusOf at matched ⊢
      cases found : spt.optracker.getExists p.cid ipfsid with
      | none =>
        rw [found] at matched
        cases (unmatched p listed).symm.trans matched
      | some oppi =>
        obtain ⟨op, tracked, -, same⟩ := getExists_eq_some_iff.mp found
        exact ⟨op, tracked, same.symm⟩
    · exact ⟨op, (mem_outside_iff.mp outside).1, rfl⟩

theorem mem_statusOfPin_iff : (∀ info, info ∈ st.list.filterMap (spt.statusOfPin ipfsid pins filter) ↔
      info ∈ (spt.statuses st ipfsid pins).filter fun info => info.status.matchesFilter filter) ↔
      (∀ op ∈ spt.outside st, op.toTrackerStatus.matchesFilter filter = false) ∧
        ∀ p ∈ st.list, ¬ FallsThrough spt ipfsid pins filter p := by
  constructor
  · intro same
    constructor
    · intro op outside
      rw [← Bool.not_eq_true]
      intro matched
      have wanted := (same (spt.optracker.unsafePinInfo op ipfsid)).mpr
        (mem_filter.mpr ⟨mem_statuses_iff.mpr (.inr ⟨op, outside, rfl⟩), matched⟩)
      obtain ⟨p, listed, sent⟩ := mem_filterMap.mp wanted
      exact (mem_outside_iff.mp outside).2 p listed (statusOfPin_cid sent).symm
    · rintro p listed falls
      have sent := (same (spt.statePinInfo ipfsid pins p)).mp
        (mem_filterMap.mpr ⟨p, listed, statusOfPin_eq_some_iff.mpr (.inr ⟨falls, rfl⟩)⟩)
      obtain ⟨⟨op, tracked, ofPin, unmatched⟩, -⟩ := falls
      rcases mem_statuses_iff.mp (mem_filter.mp sent).1 with ⟨p', listed', derived⟩ | ⟨op', outside, derived⟩
      · have cid := congrArg PinInfo.cid derived
        rw [statePinInfo_cid, statusOf_cid] at cid
        have matched := (mem_filter.mp sent).2
        rw [derived, statusOf_of_tracked tracked (ofPin.trans cid)] at matched
        cases unmatched.symm.trans matched
      · have cid := congrArg PinInfo.cid derived
        rw [statePinInfo_cid] at cid
        exact (mem_outside_iff.mp outside).2 p listed cid
  · rintro ⟨noOutside, noFall⟩ info
    rw [mem_filterMap, mem_filter, mem_statuses_iff]
    constructor
    · rintro ⟨p, listed, sent⟩
      rcases statusOfPin_eq_some_iff.mp sent with ⟨matched, rfl⟩ | ⟨falls, -⟩
      · exact ⟨.inl ⟨p, listed, rfl⟩, matched⟩
      · exact (noFall p listed falls).elim
    · rintro ⟨⟨p, listed, rfl⟩ | ⟨op, outside, rfl⟩, matched⟩
      · exact ⟨p, listed, statusOfPin_eq_some_iff.mpr (.inl ⟨matched, rfl⟩)⟩
      · cases (noOutside op outside).symm.trans matched

end

/-- `StatusAll` sends exactly the statuses that match the filter when the filter needs no state, or when
no operation outside the pinset matches it, nor the kind of any pin whose operation does not. -/
theorem statusAll_exact_iff (spt : Tracker) (st : DsState) (ipfs : Connector) (ipfsid : IPFSID) (filter : TrackerStatus)
    (pins : List IPFSPinInfo) (listed : ipfs.pinLs ["recursive", "direct"] = (pins, none))
    (typed : ∀ info ∈ pins, info.type = .recursive ∨ info.type = .direct) :
    (spt.statusAll (.ok st) ipfs ipfsid filter).1.Perm
        ((spt.statuses st ipfsid (Tracker.ipfsPins pins)).filter fun info => info.status.matchesFilter filter) ↔
      filter.matchesFilter stateMask = false ∨
        ((∀ op ∈ spt.outside st, op.toTrackerStatus.matchesFilter filter = false) ∧
          ∀ p ∈ st.list, ∀ op ∈ spt.optracker.tracked, op.cid = p.cid →
            op.toTrackerStatus.matchesFilter filter = false → (spt.compared pins p).matchesFilter filter = false) := by
  rw [← forall_not_fallsThrough_iff ipfsid typed]
  cases fromState : filter.matchesFilter stateMask with
  | false =>
    refine iff_of_true ?_ (.inl rfl)
    rw [statusAll_of_shortcut _ _ fromState, perm_iff_of_pairwise getAllChannel_pairwise (statuses_pairwise.filter _)]
    intro info
    rw [mem_filter]
    exact mem_getAllChannel_iff (fun p _ => statePinInfo_unmatched fromState (onlyPinned_ipfsPins typed)) info
  | true =>
    rw [statusAll_of_listed fromState listed typed, perm_iff_of_pairwise statusOfPin_pairwise
      (statuses_pairwise.filter _), mem_statusOfPin_iff]
    simp

def everywhere (c : Cid) (maxDepth : PinDepth) : Pin :=
  { cid := c, type := PinType.dataType, maxDepth := maxDepth,
    toPinOptions := { replicationFactorMin := -1, replicationFactorMax := -1 } }

def idle : Tracker := .new { maxPinQueueSize := 10 } "peer" "name"

theorem statusAll_exact_of_pinned : let spt := idle.track (everywhere ⟨"b"⟩ (-1)) Time.unixZero
    let st := add (add {} (everywhere ⟨"b"⟩ (-1))) (everywhere ⟨"c"⟩ (-1))
    let ipfs := daemon { recursive := [⟨"c"⟩] }
    (spt.statusAll (.ok st) ipfs {} pinned).1.Perm
        ((spt.statuses st {} (Tracker.ipfsPins [⟨⟨"c"⟩, .recursive⟩])).filter fun info =>
          info.status.matchesFilter pinned) ∧
      (spt.statusAll (.ok st) ipfs {} pinned).1.map (·.cid) = [⟨"c"⟩] := by
  refine ⟨(statusAll_exact_iff _ _ _ _ _ [⟨⟨"c"⟩, .recursive⟩] (pinLs_of_truthful (daemon_truthful _)) ?_).mpr
    (.inr ⟨?_, ?_⟩), ?_⟩
  all_goals decide +kernel

theorem statusAll_not_exact : ((idle.untrack ⟨"a"⟩ Time.unixZero).statusAll (.ok {}) (daemon {}) {} undefined).1 = [] ∧
      ((idle.untrack ⟨"a"⟩ Time.unixZero).statuses {} {} ∅).map (·.status) = [unpinQueued] ∧
      (((idle.track (everywhere ⟨"b"⟩ (-1)) Time.unixZero).statusAll (.ok (add {} (everywhere ⟨"b"⟩ (-1))))
        (daemon {}) {} unexpectedlyUnpinned).1.map (·.status)) = [unexpectedlyUnpinned] ∧
      ((idle.track (everywhere ⟨"b"⟩ (-1)) Time.unixZero).statuses (add {} (everywhere ⟨"b"⟩ (-1))) {} ∅).map
        (·.status) = [pinQueued] := by
  refine ⟨length_eq_zero_iff.mp ?_, ?_, ?_, ?_⟩
  all_goals decide +kernel

/-- The two statuses of a CID in the pinset agree when an operation is tracked for it, when it is pinned
elsewhere, or when it is not pinned in one mode only while its pin is a direct one. -/
theorem statusAll_eq_status_iff (spt : Tracker) (st : DsState) (ipfs : Connector) (pinset : IPFSPinset) (ipfsid : IPFSID)
    (now : Time) (p : Pin) (truthful : Truthful ipfs pinset) (member : p ∈ st.list) :
    (((spt.statusAll (.ok st) ipfs ipfsid undefined).1.filter fun info => info.cid = p.cid).map
        (·.status)) = [(spt.status (.ok st) ipfs ipfsid now p.cid).status] ↔
      (∃ op ∈ spt.optracker.tracked, op.cid = p.cid) ∨ Elsewhere spt p ∨
        (p.defined = true ∧ (p.maxDepth ≠ 0 ∨ (p.cid ∈ pinset.recursive ↔ p.cid ∈ pinset.direct))) := by
  rw [statusAll_undefined truthful, filter_statusOf _ member, map_singleton, singleton_inj]
  by_cases tracked : ∃ op ∈ spt.optracker.tracked, op.cid = p.cid
  · obtain ⟨op, inTracker, same⟩ := tracked
    refine iff_of_true ?_ (.inl ⟨op, inTracker, same⟩)
    rw [statusOf_of_tracked inTracker same, ← same, status_of_tracked inTracker]
    rfl
  have untracked : spt.optracker.getExists p.cid ipfsid = none :=
    getExists_of_untracked fun op inTracker same => tracked ⟨op, inTracker, same⟩
  by_cases elsewhere : Elsewhere spt p
  · refine iff_of_true ?_ (.inr (.inl elsewhere))
    rw [status_of_elsewhere untracked member elsewhere, Tracker.statusOf, untracked, Option.getD_none,
      statePinInfo_status_of_elsewhere elsewhere]
  simp only [tracked, elsewhere, false_or]
  rw [statusOf_of_untracked untracked elsewhere]
  cases defined : p.defined with
  | false =>
    rw [status_of_notDefined untracked member elsewhere defined]
    refine iff_of_false ?_ (fun known => Bool.false_ne_true known.1)
    split <;> decide
  | true =>
    rw [status_of_truthful truthful untracked member elsewhere defined]
    have differ : pinned ≠ unexpectedlyUnpinned := by decide
    by_cases direct : p.maxDepth = 0 <;> by_cases inRecursive : p.cid ∈ pinset.recursive <;>
      by_cases inDirect : p.cid ∈ pinset.direct <;>
        simp [direct, inRecursive, inDirect, differ, differ.symm]

theorem statusAll_eq_status_of_recursive :
    (((idle.statusAll (.ok (add {} (everywhere ⟨"c"⟩ (-1)))) (daemon { recursive := [⟨"c"⟩] }) {}
      undefined).1.filter fun info => info.cid = (everywhere ⟨"c"⟩ (-1)).cid).map (·.status)) =
        [(idle.status (.ok (add {} (everywhere ⟨"c"⟩ (-1)))) (daemon { recursive := [⟨"c"⟩] }) {} Time.unixZero
          (everywhere ⟨"c"⟩ (-1)).cid).status] := by
  refine (statusAll_eq_status_iff _ _ _ _ _ _ (everywhere ⟨"c"⟩ (-1)) (daemon_truthful _) ?_).mpr
    (.inr (.inr ⟨by decide, .inl (by decide)⟩))
  exact mem_list_iff.mpr ⟨_, rfl, rfl⟩

theorem statusAll_ne_status : ((idle.statusAll (.ok (add {} (everywhere ⟨"d"⟩ 0))) (daemon { direct := [⟨"d"⟩] }) {}
        undefined).1.map (·.status)) = [unexpectedlyUnpinned] ∧
      (idle.status (.ok (add {} (everywhere ⟨"d"⟩ 0))) (daemon { direct := [⟨"d"⟩] }) {} Time.unixZero
        ⟨"d"⟩).status = pinned ∧
      ((idle.statusAll (.ok (add {} (everywhere ⟨"d"⟩ 0))) (daemon { recursive := [⟨"d"⟩] }) {}
        undefined).1.map (·.status)) = [pinned] ∧
      (idle.status (.ok (add {} (everywhere ⟨"d"⟩ 0))) (daemon { recursive := [⟨"d"⟩] }) {} Time.unixZero
        ⟨"d"⟩).status = unexpectedlyUnpinned := by
  refine ⟨?_, ?_, ?_, ?_⟩
  all_goals decide +kernel

end IpfsCluster.Soundness
