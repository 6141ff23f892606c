import IpfsCluster.Model.Cluster.Status

/-! # What statuses in the cluster are gathered from

The status of a pin in the cluster is one sequence of additions: the remote peers first, then the answers of the called
peers. The listing of all pins has one entry for each CID that some member lists, made from the statuses of this CID
alone.
-/

namespace IpfsCluster.Proofs.Cluster

open Model Model.Api Golang List GlobalPinInfo Collector AList

section

variable {text : PeerID → String} {gpi : GlobalPinInfo}

@[simp] theorem peerMap_add (info : PinInfo) :
    (gpi.add text info).peerMap = gpi.peerMap.insert (text info.peer) info.toPinInfoShort := by
  unfold add
  dsimp only
  split <;> rfl

theorem peerMap_addAll (infos : List PinInfo) : (infos.foldl (add text) gpi).peerMap =
      gpi.peerMap.insertAll (fun info => text info.peer) (fun info => info.toPinInfoShort) infos := by
  induction infos generalizing gpi with
  | nil => rfl
  | cons info rest ih =>
    rw [foldl_cons, ih, peerMap_add]
    rfl

structure PinData where
  name : String
  allocations : List PeerID
  origins : List Multiaddr
  created : Time
  metadata : Metadata

def pinData (pin : Pin) : PinData := ⟨pin.name, pin.allocations, pin.origins, pin.timestamp, pin.metadata⟩

def infoData (info : PinInfo) : PinData := ⟨info.name, info.allocations, info.origins, info.created, info.metadata⟩

def globalData (gpi : GlobalPinInfo) : PinData := ⟨gpi.name, gpi.allocations, gpi.origins, gpi.created, gpi.metadata⟩

def CopiesData (gpi : GlobalPinInfo) (info : PinInfo) : Prop :=
  gpi.cid.defined = false ∨ info.status.matchesFilter TrackerStatus.clusterError = false

theorem globalData_add_of_copies {info : PinInfo} (copies : CopiesData gpi info) :
    globalData (gpi.add text info) = infoData info := by
  unfold add
  rw [if_pos]
  · rfl
  · rcases copies with undefined | unmatched
    · rw [undefined]
      rfl
    · rw [unmatched]
      exact Bool.or_true _

theorem add_of_not_copies {info : PinInfo} (keeps : ¬ CopiesData gpi info) :
    globalData (gpi.add text info) = globalData gpi ∧ (gpi.add text info).cid = gpi.cid := by
  rw [CopiesData, not_or, Bool.not_eq_false, Bool.not_eq_false] at keeps
  unfold add
  rw [keeps.1, keeps.2]
  exact ⟨rfl, rfl⟩

variable {data : PinData} {infos : List PinInfo}

theorem globalData_addAll_of_eq (agree : ∀ info ∈ infos, infoData info = data) (known : globalData gpi = data) :
    globalData (infos.foldl (add text) gpi) = data := by
  induction infos generalizing gpi with
  | nil => exact known
  | cons info rest ih =>
    obtain ⟨here, later⟩ := forall_mem_cons.mp agree
    rw [foldl_cons]
    apply ih later
    by_cases copies : CopiesData gpi info
    · rw [globalData_add_of_copies copies, here]
    · rw [(add_of_not_copies copies).1, known]

theorem globalData_addAll_of_copies (agree : ∀ info ∈ infos, infoData info = data)
    (copied : ∃ info ∈ infos, CopiesData gpi info) : globalData (infos.foldl (add text) gpi) = data := by
  induction infos generalizing gpi with
  | nil =>
    obtain ⟨info, absent, -⟩ := copied
    cases absent
  | cons info rest ih =>
    obtain ⟨here, later⟩ := forall_mem_cons.mp agree
    rw [foldl_cons]
    by_cases copies : CopiesData gpi info
    · exact globalData_addAll_of_eq later ((globalData_add_of_copies copies).trans here)
    · obtain ⟨other, member, copiesOther⟩ := copied
      rcases mem_cons.mp member with rfl | member
      · exact (copies copiesOther).elim
      · refine ih later ⟨other, member, ?_⟩
        rw [CopiesData, (add_of_not_copies copies).2]
        exact copiesOther

theorem globalData_addAll_of_not_copies (kept : ∀ info ∈ infos, ¬ CopiesData gpi info) :
    globalData (infos.foldl (add text) gpi) = globalData gpi := by
  induction infos generalizing gpi with
  | nil => rfl
  | cons info rest ih =>
    obtain ⟨here, later⟩ := forall_mem_cons.mp kept
    obtain ⟨sameData, sameCid⟩ := @add_of_not_copies text gpi info here
    rw [foldl_cons, ih, sameData]
    intro other member
    rw [CopiesData, sameCid]
    exact later other member

end

section

variable {c : Collector} {now : Clock} {consensus : Consensus} {answers : ℕ → Except RpcError PinInfo} {h : Cid}
  {pin : Pin} {dests remote : List PeerID}

def remoteInfos (c : Collector) (now : Clock) (h : Cid) (pin : Pin) (remote : List PeerID) : List PinInfo :=
  remote.map fun p => c.trackerStatusInfo h p TrackerStatus.remote pin (now 0) ""

def replyInfos (c : Collector) (now : Clock) (answers : ℕ → Except RpcError PinInfo) (h : Cid) (pin : Pin)
    (dests : List PeerID) : List PinInfo :=
  dests.zipIdx.filterMap fun (dest, i) => c.replyInfo h pin (now 0) dest (answers i)

theorem globalPinInfoCid_of_pinned (stored : (Cluster.pinGet consensus h).1 = .ok pin)
    (asked : c.requestPeers pin = .ok (dests, remote)) : c.globalPinInfoCid now consensus answers h =
      .ok ((remoteInfos c now h pin remote ++ replyInfos c now answers h pin dests).foldl
        (add c.text) { cid := h, name := pin.name }) := by
  unfold globalPinInfoCid
  rw [stored, foldl_append]
  dsimp only
  rw [asked]
  rfl

variable {info : PinInfo}

theorem mem_replyInfos : info ∈ replyInfos c now answers h pin dests ↔
      ∃ i dest, dests[i]? = some dest ∧ c.replyInfo h pin (now 0) dest (answers i) = some info := by
  unfold replyInfos
  rw [mem_filterMap]
  constructor
  · rintro ⟨⟨dest, i⟩, member, reply⟩
    exact ⟨i, dest, mem_zipIdx_iff_getElem?.mp member, reply⟩
  · rintro ⟨i, dest, at_i, reply⟩
    exact ⟨(dest, i), mem_zipIdx_iff_getElem?.mpr at_i, reply⟩

def refused : Except RpcError PinInfo → Bool
  | .ok _ => false
  | .error err => err.isAuthorizationError

def repliedStatus : Except RpcError PinInfo → TrackerStatus
  | .ok reply => reply.status
  | .error _ => TrackerStatus.clusterError

variable {dest : PeerID}

theorem replyInfo_of_answered {t : Time} {answer : Except RpcError PinInfo} (answered : refused answer = false)
    (named : ∀ reply, answer = .ok reply → reply.peer = dest) :
    ∃ info, c.replyInfo h pin t dest answer = some info ∧ info.peer = dest ∧ info.status = repliedStatus answer := by
  cases answer with
  | ok reply => exact ⟨reply, rfl, named reply rfl, rfl⟩
  | error err =>
    change err.isAuthorizationError = false at answered
    refine ⟨_, by rw [replyInfo, answered, if_neg Bool.false_ne_true], rfl, rfl⟩

theorem replyInfo_eq_some {t : Time} {answer : Except RpcError PinInfo}
    (added : c.replyInfo h pin t dest answer = some info) :
    answer = .ok info ∨ ∃ err, answer = .error err ∧ err.isAuthorizationError = false ∧
      info = c.trackerStatusInfo h dest TrackerStatus.clusterError pin t err.error := by
  cases answer with
  | ok reply => exact .inl (congrArg Except.ok (Option.some.inj added))
  | error err =>
    rw [replyInfo] at added
    split at added
    · cases added
    next answered => exact .inr ⟨err, rfl, Bool.eq_false_of_not_eq_true answered, (Option.some.inj added).symm⟩

theorem of_replyInfo {t : Time} {answer : Except RpcError PinInfo}
    (named : ∀ reply, answer = .ok reply → reply.peer = dest) (added : c.replyInfo h pin t dest answer = some info) :
    refused answer = false ∧ info.peer = dest := by
  rcases replyInfo_eq_some added with rfl | ⟨err, rfl, answered, rfl⟩
  · exact ⟨rfl, named info rfl⟩
  · exact ⟨answered, rfl⟩

theorem zipIdx_split {i : ℕ} (called : dests[i]? = some dest) :
    dests.zipIdx = dests.zipIdx.take i ++ (dest, i) :: dests.zipIdx.drop (i + 1) := by
  have here : dests.zipIdx[i]? = some (dest, i) := by
    rw [getElem?_zipIdx, called, Nat.zero_add]
    rfl
  obtain ⟨bound, same⟩ := List.getElem?_eq_some_iff.mp here
  rw [← same, ← drop_eq_getElem_cons bound, take_append_drop]

theorem of_mem_drop_zipIdx {i j : ℕ} (member : (dest, j) ∈ dests.zipIdx.drop i) : i ≤ j ∧ dests[j]? = some dest := by
  refine ⟨?_, mem_zipIdx_iff_getElem?.mp (mem_of_mem_drop member)⟩
  obtain ⟨k, bound, same⟩ := mem_iff_getElem.mp member
  rw [getElem_drop, getElem_zipIdx] at same
  have position := (Prod.mk.inj same).2
  omega

variable {text : PeerID → String}

theorem getLast?_replyInfos (distinct : Function.Injective text)
    (named : ∀ i dest reply, dests[i]? = some dest → answers i = .ok reply → reply.peer = dest) {i : ℕ}
    (called : dests[i]? = some dest) (last : ∀ j, i < j → dests[j]? = some dest → refused (answers j) = true)
    (added : c.replyInfo h pin (now 0) dest (answers i) = some info) (peer : info.peer = dest) :
    ((replyInfos c now answers h pin dests).filter fun other => text other.peer = text dest).getLast? = some info := by
  have none_later : (((dests.zipIdx.drop (i + 1)).filterMap fun (dest, i) =>
      c.replyInfo h pin (now 0) dest (answers i)).filter fun other => text other.peer = text dest) = [] := by
    rw [filter_eq_nil_iff]
    intro other member same
    obtain ⟨⟨called', j⟩, later, reply⟩ := mem_filterMap.mp member
    obtain ⟨position, called_j⟩ := of_mem_drop_zipIdx later
    obtain ⟨answered, peer'⟩ := of_replyInfo (fun reply answer => named j called' reply called_j answer) reply
    have sameDest : called' = dest := peer'.symm.trans (distinct (of_decide_eq_true same))
    cases answered.symm.trans (last j position (called_j.trans (congrArg some sameDest)))
  unfold replyInfos
  rw [zipIdx_split called, filterMap_append, filterMap_cons]
  dsimp only
  rw [added, filter_append, filter_cons, peer, decide_eq_true rfl, if_pos rfl, none_later]
  exact getLast?_concat

theorem exists_gathered_iff (named : ∀ i dest reply, dests[i]? = some dest → answers i = .ok reply → reply.peer = dest)
    (key : String) :
    (∃ info ∈ remoteInfos c now h pin remote ++ replyInfos c now answers h pin dests, text info.peer = key) ↔
      ∃ p, key = text p ∧ (p ∈ remote ∨ ∃ i : ℕ, dests[i]? = some p ∧ refused (answers i) = false) := by
  constructor
  · rintro ⟨info, member, rfl⟩
    refine ⟨info.peer, rfl, ?_⟩
    rcases mem_append.mp member with isRemote | isReply
    · obtain ⟨p, listed, rfl⟩ := mem_map.mp isRemote
      exact .inl listed
    · obtain ⟨i, dest, called, added⟩ := mem_replyInfos.mp isReply
      obtain ⟨answered, peer⟩ := of_replyInfo (fun reply answer => named i dest reply called answer) added
      exact .inr ⟨i, called.trans (congrArg some peer.symm), answered⟩
  · rintro ⟨p, rfl, isRemote | ⟨i, called, answered⟩⟩
    · exact ⟨_, mem_append_left _ (mem_map.mpr ⟨p, isRemote, rfl⟩), rfl⟩
    · obtain ⟨info, added, peer, -⟩ := @replyInfo_of_answered c h pin p (now 0) (answers i) answered
        (fun reply answer => named i p reply called answer)
      exact ⟨info, mem_append_right _ (mem_replyInfos.mpr ⟨i, p, called, added⟩), congrArg text peer⟩

theorem getLast?_gathered_of_remote (distinct : Function.Injective text)
    (named : ∀ i dest reply, dests[i]? = some dest → answers i = .ok reply → reply.peer = dest) {p : PeerID}
    (isRemote : p ∈ remote) (outside : p ∉ dests) :
    ∃ info, ((remoteInfos c now h pin remote ++ replyInfos c now answers h pin dests).filter
        fun other => text other.peer = text p).getLast? = some info ∧ info.status = TrackerStatus.remote := by
  have none_called : (replyInfos c now answers h pin dests).filter (fun other => text other.peer = text p) = [] := by
    rw [filter_eq_nil_iff]
    intro other member same
    obtain ⟨i, dest, called, added⟩ := mem_replyInfos.mp member
    obtain ⟨-, peer⟩ := of_replyInfo (fun reply answer => named i dest reply called answer) added
    obtain rfl : dest = p := peer.symm.trans (distinct (of_decide_eq_true same))
    exact outside (mem_of_getElem? called)
  rw [filter_append, none_called, append_nil]
  have present : c.trackerStatusInfo h p TrackerStatus.remote pin (now 0) "" ∈
      (remoteInfos c now h pin remote).filter fun other => text other.peer = text p :=
    mem_filter.mpr ⟨mem_map.mpr ⟨p, isRemote, rfl⟩, decide_eq_true rfl⟩
  obtain ⟨info, last⟩ := Option.isSome_iff_exists.mp (getLast?_isSome.mpr (ne_nil_of_mem present))
  refine ⟨info, last, ?_⟩
  obtain ⟨p', -, rfl⟩ := mem_map.mp (mem_filter.mp (mem_of_getLast? last)).1
  rfl

end

section

variable {c : Collector} {infos : List PinInfo} {h : Cid} {fullMap : AList fun _ : Cid => GlobalPinInfo}

def heard (infos : List PinInfo) (h : Cid) : List PinInfo := infos.filter fun info => info.cid = h

def merged (text : PeerID → String) (infos : List PinInfo) : GlobalPinInfo := infos.foldl (add text) {}

theorem heard_cons (info : PinInfo) :
    heard (info :: infos) h = if info.cid = h then info :: heard infos h else heard infos h := by
  simp [heard, filter_cons]

theorem mem_setPinInfo (info : PinInfo) :
    h ∈ c.setPinInfo fullMap info ↔ (h.defined = true ∧ info.cid = h) ∨ h ∈ fullMap := by
  unfold setPinInfo
  cases defined : info.cid.defined with
  | false =>
    refine (or_iff_right ?_).symm
    rintro ⟨isDefined, rfl⟩
    cases defined.symm.trans isDefined
  | true =>
    change h ∈ insert _ _ _ ↔ _
    rw [mem_insert]
    refine or_congr_left ⟨?_, fun about => about.2.symm⟩
    rintro rfl
    exact ⟨defined, rfl⟩

theorem lookup_setPinInfo (info : PinInfo) (defined : h.defined = true) : (c.setPinInfo fullMap info).lookup h =
      if info.cid = h then some (((fullMap.lookup h).getD {}).add c.text info) else fullMap.lookup h := by
  unfold setPinInfo
  by_cases about : info.cid = h
  · subst about
    rw [defined, if_pos rfl]
    exact lookup_insert fullMap
  · rw [if_neg about]
    split
    · rfl
    · exact lookup_insert_ne (Ne.symm about)

theorem mem_gathered :
    h ∈ infos.foldl c.setPinInfo fullMap ↔ (h.defined = true ∧ heard infos h ≠ []) ∨ h ∈ fullMap := by
  induction infos generalizing fullMap with
  | nil => exact (or_iff_right fun about => about.2 rfl).symm
  | cons info rest ih =>
    have heard_iff : heard (info :: rest) h ≠ [] ↔ heard rest h ≠ [] ∨ info.cid = h := by
      rw [heard_cons]
      by_cases about : info.cid = h <;> simp [about]
    refine ih.trans ?_
    rw [mem_setPinInfo, ← or_assoc, ← and_or_left, heard_iff]

theorem getD_gathered (defined : h.defined = true) : ((infos.foldl c.setPinInfo fullMap).lookup h).getD {} =
      (heard infos h).foldl (add c.text) ((fullMap.lookup h).getD {}) := by
  induction infos generalizing fullMap with
  | nil => rfl
  | cons info rest ih =>
    rw [foldl_cons, ih, lookup_setPinInfo info defined, heard_cons]
    by_cases about : info.cid = h
    · rw [if_pos about, if_pos about]
      rfl
    · rw [if_neg about, if_neg about]

theorem lookup_gathered {gpi : GlobalPinInfo} : (infos.foldl c.setPinInfo ∅).lookup h = some gpi ↔
      h.defined = true ∧ heard infos h ≠ [] ∧ gpi = merged c.text (heard infos h) := by
  have present_iff := @mem_gathered c infos h ∅
  rw [or_iff_left (notMem_empty h), ← lookup_isSome] at present_iff
  rw [← and_assoc, ← present_iff]
  constructor
  · intro found
    have present : ((infos.foldl c.setPinInfo ∅).lookup h).isSome = true := by
      rw [found]
      rfl
    refine ⟨present, ?_⟩
    have entry := @getD_gathered c infos h ∅ (present_iff.mp present).1
    rw [found] at entry
    exact entry
  · rintro ⟨present, rfl⟩
    obtain ⟨gpi, found⟩ := Option.isSome_iff_exists.mp present
    have entry := @getD_gathered c infos h ∅ (present_iff.mp present).1
    rw [found] at entry ⊢
    exact congrArg some entry

theorem cid_add (text : PeerID → String) (gpi : GlobalPinInfo) (info : PinInfo) :
    (gpi.add text info).cid = info.cid ∨ (gpi.cid.defined = true ∧ (gpi.add text info).cid = gpi.cid) := by
  unfold add
  cases defined : gpi.cid.defined with
  | false => exact .inl rfl
  | true =>
    cases info.status.matchesFilter TrackerStatus.clusterError with
    | false => exact .inl rfl
    | true => exact .inr ⟨rfl, rfl⟩

theorem cid_addAll {text : PeerID → String} {gpi : GlobalPinInfo} (about : ∀ info ∈ infos, info.cid = h)
    (known : gpi.cid = h) : (infos.foldl (add text) gpi).cid = h := by
  induction infos generalizing gpi with
  | nil => exact known
  | cons info rest ih =>
    obtain ⟨here, later⟩ := forall_mem_cons.mp about
    refine ih later ?_
    rcases cid_add text gpi info with set | ⟨-, kept⟩
    · exact set.trans here
    · exact kept.trans known

theorem cid_merged (text : PeerID → String) (some_heard : heard infos h ≠ []) :
    (merged text (heard infos h)).cid = h := by
  have about (info : PinInfo) (member : info ∈ heard infos h) : info.cid = h :=
    of_decide_eq_true (mem_filter.mp member).2
  unfold merged
  cases list : heard infos h with
  | nil => exact (some_heard list).elim
  | cons info rest =>
    rw [list] at about
    obtain ⟨here, later⟩ := forall_mem_cons.mp about
    exact @cid_addAll rest h text (add text {} info) later here

end

section

variable {c : Collector} {order : MapOrder} {now : Clock} {listing : PeerID → List PinInfo × Option RpcError}
  {members : List PeerID}

def arrivals (order : MapOrder) (listing : PeerID → List PinInfo × Option RpcError) (members : List PeerID) :
    List PinInfo := order.visit [0] (members.flatMap fun p => (listing p).1)

theorem erroredPeers_eq_empty (succeeds : ∀ p, (listing p).2 = none) : erroredPeers listing members = ∅ := by
  unfold erroredPeers
  induction members with
  | nil => rfl
  | cons p rest ih =>
    rw [foldl_cons, succeeds p]
    exact ih

variable (listed : c.members = .ok members)

include listed

section

variable (succeeds : ∀ p, (listing p).2 = none)

include succeeds

theorem globalPinInfoStream_of_listed : c.globalPinInfoStream order now listing =
      ((order.visit [3] ((arrivals order listing members).foldl c.setPinInfo ∅).entries).map (fun entry => entry.2),
        none) := by
  have no_errors : order.visit [1] (erroredPeers listing members).entries = [] := by
    rw [erroredPeers_eq_empty succeeds]
    exact (order.visit_perm [1] _).eq_nil
  unfold globalPinInfoStream
  rw [listed]
  dsimp only
  rw [no_errors]
  rfl

theorem mem_globalPinInfoStream (gpi : GlobalPinInfo) :
    gpi ∈ (c.globalPinInfoStream order now listing).1 ↔ ∃ h : Cid, h.defined = true ∧
      heard (arrivals order listing members) h ≠ [] ∧ gpi = merged c.text (heard (arrivals order listing members) h) := by
  rw [globalPinInfoStream_of_listed listed succeeds, mem_map]
  simp only [← lookup_gathered, MapOrder.mem_visit]
  constructor
  · rintro ⟨entry, member, rfl⟩
    exact ⟨entry.1, mem_entries_iff.mp member⟩
  · rintro ⟨h, found⟩
    exact ⟨⟨h, gpi⟩, mem_entries_iff.mpr found, rfl⟩

theorem nodup_globalPinInfoStream : ((c.globalPinInfoStream order now listing).1.map (·.cid)).Nodup := by
  rw [globalPinInfoStream_of_listed listed succeeds, map_map]
  set fullMap := (arrivals order listing members).foldl c.setPinInfo ∅ with gathered
  have cids : (order.visit [3] fullMap.entries).map ((·.cid) ∘ fun entry => entry.2) =
      (order.visit [3] fullMap.entries).map Sigma.fst := by
    refine map_congr_left fun entry member => ?_
    rw [MapOrder.mem_visit, mem_entries_iff, gathered, lookup_gathered] at member
    obtain ⟨-, some_heard, same⟩ := member
    change entry.2.cid = entry.1
    rw [same, cid_merged c.text some_heard]
  rw [cids, ((order.visit_perm [3] fullMap.entries).map Sigma.fst).nodup_iff]
  exact fullMap.nodupKeys

end

end

theorem globalPinInfoCid_succeeds {c : Collector} {now : Clock} {consensus : Consensus}
    {answers : ℕ → Except RpcError PinInfo} {h : Cid} {members : List PeerID} (listed : c.members = .ok members)
    (read : ∀ err, (Cluster.pinGet consensus h).1 = .error err → err = .notFound) :
    ∃ gpin, c.globalPinInfoCid now consensus answers h = .ok gpin := by
  cases stored : (Cluster.pinGet consensus h).1 with
  | error err =>
    obtain rfl := read err stored
    unfold globalPinInfoCid
    rw [stored, listed]
    exact ⟨_, rfl⟩
  | ok pin =>
    have asked : ∃ peers, c.requestPeers pin = .ok peers := by
      unfold Collector.members at listed
      unfold requestPeers
      cases follower : c.followerMode with
      | true => exact ⟨_, rfl⟩
      | false =>
        rw [follower, if_neg Bool.false_ne_true] at listed
        rw [listed, if_neg Bool.false_ne_true]
        cases pin.isPinEverywhere with
        | true | false => exact ⟨_, rfl⟩
    obtain ⟨⟨dests, remote⟩, asked⟩ := asked
    exact ⟨_, globalPinInfoCid_of_pinned stored asked⟩

end IpfsCluster.Proofs.Cluster
