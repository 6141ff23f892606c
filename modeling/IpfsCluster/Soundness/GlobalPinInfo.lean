import IpfsCluster.Proofs.Cluster.Status

/-! # The status of a pin is complete

The peer map of the status of a pin has an entry for every member of the cluster and every destination that did not
refuse the call, with the status that is right for it. What the status says about the pin is lost when every entry is an
error of the cluster.
-/

namespace IpfsCluster.Soundness

open Model Model.Api Proofs.Cluster List TrackerStatus

def destinations (pin : Pin) (members : List PeerID) : List PeerID :=
  if pin.isPinEverywhere then members else pin.allocations

theorem mem_peersSubtract {a b : List PeerID} {p : PeerID} : p ∈ peersSubtract a b ↔ p ∈ a ∧ p ∉ b := by
  rw [peersSubtract, mem_filter, Bool.not_eq_true', ← Bool.not_eq_true, contains_iff_mem]

section

variable {c : Collector} {now : Clock} {consensus : Consensus} {answers : ℕ → Except RpcError PinInfo} {h : Cid}
  {pin : Pin} {members : List PeerID}

theorem requestPeers_of_listed (leads : c.followerMode = false) (listed : c.peers = .ok members) :
    c.requestPeers pin = .ok (destinations pin members, peersSubtract members (destinations pin members)) := by
  unfold Collector.requestPeers destinations
  rw [leads, listed]
  cases pin.isPinEverywhere with
  | false => rfl
  | true =>
    have none_left : peersSubtract members members = [] := by
      rw [eq_nil_iff_forall_not_mem]
      intro p member
      obtain ⟨present, absent⟩ := mem_peersSubtract.mp member
      exact absent present
    exact congrArg (fun remote => Except.ok (members, remote)) none_left.symm

end

/-- The entries of the peer map are those of the members that are no destinations, which are remote, and
of the destinations that answer: with their status, or an error of the cluster when the call failed. A
destination that is called more than once has the last of its answers. -/
theorem globalPinInfoCid_peerMap (c : Collector) (now : Clock) (consensus : Consensus)
    (answers : ℕ → Except RpcError PinInfo) (h : Cid) (pin : Pin) (members : List PeerID)
    (distinct : Function.Injective c.text) (leads : c.followerMode = false)
    (stored : (Cluster.pinGet consensus h).1 = .ok pin) (listed : c.peers = .ok members)
    (named : ∀ i dest reply, (destinations pin members)[i]? = some dest → answers i = .ok reply → reply.peer = dest) :
    ∃ gpin, c.globalPinInfoCid now consensus answers h = .ok gpin ∧ (∀ key, key ∈ gpin.peerMap ↔ ∃ p, key = c.text p ∧
        ((p ∈ members ∧ p ∉ destinations pin members) ∨
          ∃ i : ℕ, (destinations pin members)[i]? = some p ∧ refused (answers i) = false)) ∧
      (∀ p ∈ members, p ∉ destinations pin members → (gpin.peerMap.lookup (c.text p)).map (·.status) = some remote) ∧
      (∀ (i : ℕ) p, (destinations pin members)[i]? = some p → refused (answers i) = false →
        (∀ j, i < j → (destinations pin members)[j]? = some p → refused (answers j) = true) →
        (gpin.peerMap.lookup (c.text p)).map (·.status) = some (repliedStatus (answers i))) := by
  refine ⟨_, globalPinInfoCid_of_pinned stored (requestPeers_of_listed leads listed), ?_, ?_, ?_⟩
  · intro key
    rw [peerMap_addAll, AList.mem_insertAll, exists_gathered_iff named, or_iff_left (AList.notMem_empty _)]
    simp only [mem_peersSubtract]
  · intro p member outside
    obtain ⟨info, last, status⟩ := @getLast?_gathered_of_remote c now answers h pin _ _ c.text distinct named p
      (mem_peersSubtract.mpr ⟨member, outside⟩) outside
    rw [peerMap_addAll, AList.lookup_insertAll, last]
    exact congrArg some status
  · intro i p called answered last
    obtain ⟨info, added, peer, status⟩ := @replyInfo_of_answered c h pin p (now 0) (answers i) answered
      (fun reply answer => named i p reply called answer)
    rw [peerMap_addAll, AList.lookup_insertAll, filter_append, getLast?_append,
      getLast?_replyInfos distinct named called last added peer]
    exact congrArg some status

def twoMembers : Collector where
  id := "a"
  peers := .ok ["a", "b"]
  text := id
  latestForPeer name p := { name := name, peer := p }
  pingValueFromMetric _ := {}

def pinOnB : Pin :=
  { pinWithOpts ⟨"cid"⟩ { replicationFactorMin := 1, replicationFactorMax := 1 } (Time.ofUnix 1000) with
    allocations := ["b"] }

def pinsetOfB : Consensus := { state := ({} : DsState).add pinOnB }

theorem globalPinInfoCid_peerMap_down :
    ∃ gpin, twoMembers.globalPinInfoCid (fun _ => Time.ofUnix 2000) pinsetOfB (fun _ => .error (.other "down")) ⟨"cid"⟩ =
        .ok gpin ∧ (gpin.peerMap.lookup "a").map (·.status) = some remote ∧
      (gpin.peerMap.lookup "b").map (·.status) = some clusterError := by
  obtain ⟨gpin, answered, -, remote, replied⟩ := globalPinInfoCid_peerMap twoMembers (fun _ => Time.ofUnix 2000) pinsetOfB
    (fun _ => .error (.other "down")) ⟨"cid"⟩ pinOnB ["a", "b"] Function.injective_id rfl rfl rfl
    (fun _ _ _ _ answer => nomatch answer)
  refine ⟨gpin, answered, remote "a" (by decide) (by decide), replied 0 "b" rfl rfl fun j later called => ?_⟩
  have bound := (List.getElem?_eq_some_iff.mp called).1
  change j < 1 at bound
  omega

section

variable {c : Collector} {now : Clock} {answers : ℕ → Except RpcError PinInfo} {h : Cid} {pin : Pin}
  {dests remote : List PeerID}

/-- Some entry is not an error of the cluster. -/
def SomeUsable (answers : ℕ → Except RpcError PinInfo) (dests remote : List PeerID) : Prop :=
  remote ≠ [] ∨ ∃ (i : ℕ) (dest : PeerID) (reply : PinInfo), dests[i]? = some dest ∧ answers i = .ok reply ∧
    reply.status.matchesFilter clusterError = false

theorem infoData_of_mem (carried : ∀ (i : ℕ) dest reply, dests[i]? = some dest → answers i = .ok reply →
      infoData reply = pinData pin) {info : PinInfo}
    (member : info ∈ remoteInfos c now h pin remote ++ replyInfos c now answers h pin dests) :
    infoData info = pinData pin := by
  rcases mem_append.mp member with isRemote | isReply
  · obtain ⟨p, -, rfl⟩ := mem_map.mp isRemote
    rfl
  · obtain ⟨i, dest, called, added⟩ := mem_replyInfos.mp isReply
    rcases replyInfo_eq_some added with answer | ⟨err, -, -, rfl⟩
    · exact carried i dest info called answer
    · rfl

theorem exists_copiesData_iff (gathered : remoteInfos c now h pin remote ++ replyInfos c now answers h pin dests ≠ []) :
    (∃ info ∈ remoteInfos c now h pin remote ++ replyInfos c now answers h pin dests,
      CopiesData { cid := h, name := pin.name } info) ↔ h.defined = false ∨ SomeUsable answers dests remote := by
  constructor
  · rintro ⟨info, member, undefined | usable⟩
    · exact .inl undefined
    · refine .inr ?_
      rcases mem_append.mp member with isRemote | isReply
      · obtain ⟨p, listed, -⟩ := mem_map.mp isRemote
        exact .inl (ne_nil_of_mem listed)
      · obtain ⟨i, dest, called, added⟩ := mem_replyInfos.mp isReply
        rcases replyInfo_eq_some added with answer | ⟨err, -, -, rfl⟩
        · exact .inr ⟨i, dest, info, called, answer, usable⟩
        · cases usable.symm.trans (show clusterError.matchesFilter clusterError = true by decide)
  · rintro (undefined | isRemote | ⟨i, dest, reply, called, answer, usable⟩)
    · obtain ⟨info, member⟩ := exists_mem_of_ne_nil _ gathered
      exact ⟨info, member, .inl undefined⟩
    · obtain ⟨p, listed⟩ := exists_mem_of_ne_nil _ isRemote
      have usable : TrackerStatus.remote.matchesFilter TrackerStatus.clusterError = false := by decide
      exact ⟨_, mem_append_left _ (mem_map.mpr ⟨p, listed, rfl⟩), .inr usable⟩
    · refine ⟨reply, mem_append_right _ (mem_replyInfos.mpr ⟨i, dest, called, ?_⟩), .inr usable⟩
      rw [answer]
      rfl

end

/-- What the status says about a pin is right exactly when some entry is not an error of the cluster, or
there is nothing to say but the name: a remote peer, or an answer with another status. -/
theorem globalPinInfoCid_data_iff (c : Collector) (now : Clock) (consensus : Consensus)
    (answers : ℕ → Except RpcError PinInfo) (h : Cid) (pin : Pin) (dests remote : List PeerID) (gpin : GlobalPinInfo)
    (stored : (Cluster.pinGet consensus h).1 = .ok pin) (asked : c.requestPeers pin = .ok (dests, remote))
    (answered : c.globalPinInfoCid now consensus answers h = .ok gpin) (entry : gpin.peerMap.keys ≠ [])
    (carried : ∀ (i : ℕ) dest reply, dests[i]? = some dest → answers i = .ok reply → infoData reply = pinData pin) :
    globalData gpin = pinData pin ↔ (h.defined = false ∨ SomeUsable answers dests remote) ∨
        (pin.allocations = [] ∧ pin.origins = [] ∧ pin.timestamp = Time.zero ∧ pin.metadata = ∅) := by
  obtain rfl := Except.ok.inj ((globalPinInfoCid_of_pinned stored asked).symm.trans answered)
  have gathered : remoteInfos c now h pin remote ++ replyInfos c now answers h pin dests ≠ [] := by
    intro nothing
    rw [nothing] at entry
    exact entry rfl
  rw [← exists_copiesData_iff gathered]
  by_cases copied : ∃ info ∈ remoteInfos c now h pin remote ++ replyInfos c now answers h pin dests,
      CopiesData { cid := h, name := pin.name } info
  · have copy := @globalData_addAll_of_copies c.text _ _ _ (fun info => infoData_of_mem carried) copied
    exact iff_of_true copy (.inl copied)
  · rw [globalData_addAll_of_not_copies fun info member copies => copied ⟨info, member, copies⟩, or_iff_right copied]
    simp only [globalData, pinData, PinData.mk.injEq, true_and, eq_comm]

theorem globalPinInfoCid_loses_allocations :
    ∃ gpin, { twoMembers with peers := .ok ["b"] }.globalPinInfoCid (fun _ => Time.ofUnix 2000) pinsetOfB
        (fun _ => .error (.other "down")) ⟨"cid"⟩ = .ok gpin ∧
      gpin.peerMap.keys = ["b"] ∧ gpin.allocations = [] ∧ pinOnB.allocations = ["b"] ∧ globalData gpin ≠ pinData pinOnB := by
  refine ⟨_, rfl, rfl, rfl, rfl, fun same => ?_⟩
  cases congrArg PinData.allocations same

theorem globalPinInfoCid_data_iff_remote :
    ∃ gpin, twoMembers.globalPinInfoCid (fun _ => Time.ofUnix 2000) pinsetOfB (fun _ => .error (.other "down")) ⟨"cid"⟩ =
      .ok gpin ∧ globalData gpin = pinData pinOnB :=
  ⟨_, rfl, (globalPinInfoCid_data_iff twoMembers (fun _ => Time.ofUnix 2000) pinsetOfB (fun _ => .error (.other "down"))
    ⟨"cid"⟩ pinOnB ["b"] ["a"] _ rfl rfl rfl (by decide) (fun _ _ _ _ answer => nomatch answer)).mpr
    (.inl (.inr (.inl (by decide))))⟩

end IpfsCluster.Soundness
