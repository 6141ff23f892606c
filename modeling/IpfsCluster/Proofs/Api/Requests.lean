import IpfsCluster.Model.Api.ListPins

/-! # What list requests count

A list counts all pins that it goes through, and its results are the first of them.
-/

namespace IpfsCluster.Proofs.Api

open Golang List Model Model.Api Model.Pinsvc

def svcStatus (gpi : GlobalPinInfo) : Status := trackerStatusToSvcStatus (statusMask .stored gpi)

theorem statusMask_eq_stored (order : MapOrder) (gpi : GlobalPinInfo) :
    statusMask order gpi = statusMask .stored gpi := by
  have commutes : RightCommutative fun (mask : TrackerStatus) (entry : Σ _ : String, PinInfoShort) =>
      mask ||| entry.2.status := ⟨fun mask entry other => by
    rw [BitVec.or_assoc, BitVec.or_assoc, BitVec.or_comm entry.2.status]⟩
  exact (order.visit_perm [0] gpi.peerMap.entries).foldl_eq TrackerStatus.undefined

@[simp] theorem status_svcPinStatus (order : MapOrder) (rID : String) (gpi : GlobalPinInfo) :
    (globalPinInfoToSvcPinStatus order rID gpi).status = svcStatus gpi :=
  congrArg trackerStatusToSvcStatus (statusMask_eq_stored order gpi)

def selected (library : TextLibrary) (opts : ListOptions) (gpi : GlobalPinInfo) : Bool :=
  opts.selects library (globalPinInfoToSvcPinStatus .stored "" gpi)

section

variable {limit : ℕ}

theorem take_concat (sts : List PinStatus) (st : PinStatus) :
    (sts ++ [st]).take limit = if sts.length < limit then sts.take limit ++ [st] else sts.take limit := by
  by_cases room : sts.length < limit
  · rw [if_pos room, take_of_length_le (Nat.le_of_lt room), take_of_length_le]
    rw [length_append, length_singleton]
    omega
  · rw [if_neg room, take_append_of_le_length (Nat.le_of_not_lt room)]

theorem foldl_pinList (before sts : List PinStatus) :
    sts.foldl (PinList.append limit) ⟨before.length, before.take limit⟩ =
      ⟨(before ++ sts).length, (before ++ sts).take limit⟩ := by
  induction sts generalizing before with
  | nil => rw [append_nil, foldl_nil]
  | cons st rest ih =>
    have step : PinList.append limit ⟨before.length, before.take limit⟩ st =
        ⟨(before ++ [st]).length, (before ++ [st]).take limit⟩ := by
      rw [take_concat, length_append]
      rfl
    rw [foldl_cons, step, ih, append_assoc, singleton_append]

theorem foldl_append_empty (sts : List PinStatus) :
    sts.foldl (PinList.append limit) {} = ⟨sts.length, sts.take limit⟩ := by
  have counted := @foldl_pinList limit [] sts
  rw [take_nil] at counted
  exact counted

theorem foldl_appendRequested {results : List (PinStatus × Option Error)} (succeed : ∀ r ∈ results, r.2 = none)
    (pinList : PinList) : results.foldl (appendRequested limit) (pinList, []) =
      ((results.map Prod.fst).foldl (PinList.append limit) pinList, []) := by
  induction results generalizing pinList with
  | nil => rfl
  | cons r rest ih =>
    obtain ⟨here, later⟩ := forall_mem_cons.mp succeed
    have step : appendRequested limit (pinList, []) r = (pinList.append limit r.1, []) := by
      unfold appendRequested
      rw [here]
      exact congrArg (Prod.mk _) (ite_self _)
    rw [foldl_cons, step, ih later]
    rfl

end

section

variable {client : StatusClient} {codecs : TextCodecs} {library : TextLibrary} {order : MapOrder} {opts : ListOptions}
  {told : Cid → GlobalPinInfo}

def entry (st : PinStatus) : String × Status := (st.requestID, st.status)

section

variable (answered : ∀ h, client.status h = .ok (told h))

include answered

theorem getPinSvcStatus_of_answered (h : Cid) : getPinSvcStatus client codecs order h =
      (globalPinInfoToSvcPinStatus order (codecs.cidString h) (told h), none) := by
  unfold getPinSvcStatus
  rw [answered]

theorem requestedStatuses_succeed (cids : List Cid) : ∀ r ∈ requestedStatuses client codecs order cids, r.2 = none := by
  intro r member
  obtain ⟨⟨h, i⟩, -, rfl⟩ := mem_map.mp (mem_filter.mp member).1
  exact congrArg Prod.snd (getPinSvcStatus_of_answered answered h)

theorem requestedStatuses_perm (cids : List Cid) :
    ((requestedStatuses client codecs order cids).map fun r => entry r.1).Perm
      ((cids.filter fun h => svcStatus (told h) ≠ Status.undefined).map fun h =>
        (codecs.cidString h, svcStatus (told h))) := by
  have requested : (requestedStatuses client codecs order cids).map (fun r => entry r.1) =
      (((order.visit [0] cids.zipIdx).map Prod.fst).filter fun h => svcStatus (told h) ≠ Status.undefined).map
        fun h => (codecs.cidString h, svcStatus (told h)) := by
    unfold requestedStatuses
    simp only [getPinSvcStatus_of_answered answered, filter_map, map_map, Function.comp_def, entry,
      status_svcPinStatus, Option.isNone_none, Bool.and_true, ne_eq, decide_not]
    rfl
  have visited := (order.visit_perm [0] cids.zipIdx).map Prod.fst
  rw [zipIdx_map_fst] at visited
  rw [requested]
  exact (visited.filter _).map _

end

theorem streamedStatuses_entries (out : List GlobalPinInfo) :
    (streamedStatuses codecs library order opts out).map entry =
      (out.filter fun gpi => svcStatus gpi ≠ Status.undefined && selected library opts gpi).map fun gpi =>
        (codecs.cidString gpi.cid, svcStatus gpi) := by
  have listed : (out.zipIdx.map Prod.fst) = out := zipIdx_map_fst 0 out
  conv_rhs => rw [← listed]
  unfold streamedStatuses
  simp only [filter_map, map_map, Function.comp_def, entry, status_svcPinStatus]
  rfl

def counted (client : StatusClient) (codecs : TextCodecs) (library : TextLibrary) (order : MapOrder)
    (opts : ListOptions) : List PinStatus :=
  if opts.cids.length > 0 then (requestedStatuses client codecs order opts.cids).map Prod.fst
  else streamedStatuses codecs library order opts (client.statusAll (svcStatusToTrackerStatus opts.status)).1

theorem listPins_of_answered {query : Values} (accepted : ListOptions.fromQuery codecs library query {} = .ok () opts)
    (answered : ∀ h, client.status h = .ok (told h))
    (listed : (client.statusAll (svcStatusToTrackerStatus opts.status)).2 = none) :
    listPins client codecs library order query = { resp := some ⟨(counted client codecs library order opts).length,
          (counted client codecs library order opts).take opts.limit⟩ } := by
  unfold listPins counted
  rw [accepted]
  dsimp only
  split
  · rw [foldl_appendRequested (requestedStatuses_succeed answered opts.cids), foldl_append_empty]
    rfl
  · rw [listed, foldl_append_empty]

end

end IpfsCluster.Proofs.Api
