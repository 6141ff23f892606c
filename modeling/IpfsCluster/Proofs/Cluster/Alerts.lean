import IpfsCluster.Model.Cluster.Alerts

/-! # What one alert does

The cache of a distance checker only holds the hashes that would be computed anew. An alert that reaches the loop over
the listed pins repins those of the alerting peer that this peer is closest to, in the order of the listing; any other
repins nothing.
-/

namespace IpfsCluster.Proofs.Cluster

open Model Model.Api AlertsHandler DistanceChecker

theorem xor_comm (a b : Distance) : Model.xor a b = Model.xor b a := by
  rw [Model.xor, Vector.zipWith_comm]
  simp only [BitVec.xor_comm, Model.xor]

theorem xor_left_cancel {point a b : Distance} (same : xor point a = xor point b) : a = b := by
  refine Vector.ext fun i bound => ?_
  have entry : (xor point a)[i] = (xor point b)[i] := by rw [same]
  simpa only [Model.xor, Vector.getElem_zipWith, BitVec.xor_right_inj] using entry

section

variable (blake2b : String → Distance)

def Remembers (dc : DistanceChecker) : Prop := ∀ id hash, dc.cache.lookup id = some hash → hash = blake2b id

/-- The same peers, and again a cache of hashes. -/
structure SamePeers (dc dc' : DistanceChecker) : Prop where
  localPeer : dc'.localPeer = dc.localPeer
  otherPeers : dc'.otherPeers = dc.otherPeers
  remembers : Remembers blake2b dc'

variable {blake2b} {dc : DistanceChecker}

theorem convertPeerID_fst (remembers : Remembers blake2b dc) (id : PeerID) :
    (dc.convertPeerID blake2b id).1 = blake2b id := by
  unfold convertPeerID
  split
  next hash found => exact remembers id hash found
  · rfl

theorem convertPeerID_snd (remembers : Remembers blake2b dc) (id : PeerID) :
    SamePeers blake2b dc (dc.convertPeerID blake2b id).2 := by
  unfold convertPeerID
  split
  · exact ⟨rfl, rfl, remembers⟩
  · refine ⟨rfl, rfl, fun other hash found => ?_⟩
    by_cases same : other = id
    · subst same
      exact (Option.some.inj ((AList.lookup_insert _).symm.trans found)).symm
    · exact remembers other hash ((AList.lookup_insert_ne same).symm.trans found)

theorem noneCloser_spec (ciHash myDistance : Distance) (peers : List PeerID) (remembers : Remembers blake2b dc) :
    ((dc.noneCloser blake2b ciHash myDistance peers).1 = true ↔
      ∀ p ∈ peers, compare myDistance (xor (blake2b p) ciHash) ≠ .gt) ∧
    SamePeers blake2b dc (dc.noneCloser blake2b ciHash myDistance peers).2 := by
  induction peers generalizing dc with
  | nil => exact ⟨by simp [noneCloser], rfl, rfl, remembers⟩
  | cons p rest ih =>
    have hashed := convertPeerID_fst remembers p
    obtain ⟨localPeer, otherPeers, next⟩ := convertPeerID_snd remembers p
    obtain ⟨answer, kept⟩ := ih next
    rw [noneCloser]
    dsimp only
    rw [hashed]
    split
    next closer => exact ⟨by simp [closer], localPeer, otherPeers, next⟩
    next notCloser =>
      refine ⟨answer.trans ?_, kept.localPeer.trans localPeer, kept.otherPeers.trans otherPeers, kept.remembers⟩
      rw [List.forall_mem_cons]
      exact (and_iff_right notCloser).symm

theorem isClosest_spec (remembers : Remembers blake2b dc) (ci : Cid) :
    ((dc.isClosest blake2b ci).1 = true ↔ ∀ p ∈ dc.otherPeers,
      (compare (xor (blake2b ci.bytes) (blake2b dc.localPeer)) (xor (blake2b ci.bytes) (blake2b p))).isLE) ∧
    SamePeers blake2b dc (dc.isClosest blake2b ci).2 := by
  have hashed := convertPeerID_fst remembers dc.localPeer
  obtain ⟨localPeer, otherPeers, next⟩ := convertPeerID_snd remembers dc.localPeer
  obtain ⟨answer, kept⟩ := noneCloser_spec (blake2b ci.bytes)
    (xor (blake2b ci.bytes) (blake2b dc.localPeer)) dc.otherPeers next
  rw [isClosest]
  dsimp only
  rw [hashed, otherPeers]
  refine ⟨answer.trans ?_, kept.localPeer.trans localPeer, kept.otherPeers.trans otherPeers, kept.remembers⟩
  simp only [xor_comm _ (blake2b ci.bytes), Ordering.isLE_iff_ne_gt]

theorem isClosest_eq_of_samePeers {dc' : DistanceChecker} (remembers : Remembers blake2b dc)
    (same : SamePeers blake2b dc dc') (ci : Cid) : (dc'.isClosest blake2b ci).1 = (dc.isClosest blake2b ci).1 := by
  rw [Bool.eq_iff_iff, (isClosest_spec same.remembers ci).1, (isClosest_spec remembers ci).1, same.localPeer,
    same.otherPeers]

theorem remembers_empty (localPeer : PeerID) (otherPeers : List PeerID) :
    Remembers blake2b { localPeer, otherPeers } := by
  intro id hash found
  cases found

theorem answers_eq_map (remembers : Remembers blake2b dc) (queries : List Cid) :
    dc.answers blake2b queries = queries.map fun ci =>
      (isClosest blake2b { localPeer := dc.localPeer, otherPeers := dc.otherPeers } ci).1 := by
  induction queries generalizing dc with
  | nil => rfl
  | cons ci rest ih =>
    have fresh := @remembers_empty blake2b dc.localPeer dc.otherPeers
    have kept := (isClosest_spec remembers ci).2
    have seen : SamePeers blake2b { localPeer := dc.localPeer, otherPeers := dc.otherPeers } dc :=
      ⟨rfl, rfl, remembers⟩
    have others := ih kept.remembers
    rw [kept.localPeer, kept.otherPeers] at others
    exact congrArg₂ List.cons (isClosest_eq_of_samePeers fresh seen ci) others

end

theorem mem_getTrustedPeers {c : PeerView} {peers : List PeerID} (listed : c.peers = .ok peers) (exclude : PeerID) :
    ∃ trusted, c.getTrustedPeers exclude = .ok trusted ∧
      ∀ p, p ∈ trusted ↔ p ∈ peers ∧ p ≠ c.id ∧ p ≠ exclude ∧ c.isTrustedPeer p = true := by
  refine ⟨_, by rw [PeerView.getTrustedPeers, listed]; rfl, fun p => ?_⟩
  simp [List.mem_filter, Bool.not_or, Bool.not_not, Bool.and_eq_true, beq_eq_false_iff_ne, and_assoc]

section

variable {p : AlertsPeer} {view : AlertView} {peer : PeerID}

def toRepin (p : AlertsPeer) (distance : DistanceChecker) (peer : PeerID) (pin : Pin) : Bool :=
  pin.allocations.contains peer && (distance.isClosest p.blake2b pin.cid).1

theorem repinListed_repinned {distance dc : DistanceChecker} (remembers : Remembers p.blake2b distance)
    (same : SamePeers p.blake2b distance dc) (n : ℕ) (pins : List Pin) (h : AlertsHandler) :
    (repinListed p view peer n pins dc h).repinned =
      h.repinned ++ (pins.filter (toRepin p distance peer)).map fun pin => (peer, pin) := by
  induction pins generalizing n dc h with
  | nil => exact (List.append_nil _).symm
  | cons pin rest ih =>
    have answer := isClosest_eq_of_samePeers remembers same pin.cid
    have kept := (isClosest_spec same.remembers pin.cid).2
    have later : SamePeers p.blake2b distance (dc.isClosest p.blake2b pin.cid).2 :=
      ⟨kept.localPeer.trans same.localPeer, kept.otherPeers.trans same.otherPeers, kept.remembers⟩
    rw [repinListed, List.filter_cons, toRepin, ← answer]
    dsimp only
    cases pin.allocations.contains peer with
    | false => exact ih same (n + 1) h
    | true =>
      cases (dc.isClosest p.blake2b pin.cid).1 with
      | false => exact ih later (n + 1) h
      | true =>
        rw [if_pos rfl, if_pos rfl, Bool.and_self, if_pos rfl, ih later, List.map_cons, List.append_assoc]
        rfl

theorem repinListed_frame (dc : DistanceChecker) (n : ℕ) (pins : List Pin) (h : AlertsHandler) :
    (repinListed p view peer n pins dc h).alerts = h.alerts ∧
      (repinListed p view peer n pins dc h).returned = h.returned := by
  induction pins generalizing n dc h with
  | nil => exact ⟨rfl, rfl⟩
  | cons pin rest ih =>
    rw [repinListed]
    dsimp only
    split
    · split <;> exact ih _ _ _
    · exact ih _ _ _

variable {h : AlertsHandler} {alrt : Alert}

/-- The alert does not end the loop: it is not handled, or repinning is enabled and the state and the
peers are found. -/
def Survives (p : AlertsPeer) (h : AlertsHandler) (alrt : Alert) (view : AlertView) : Prop :=
  p.cluster.config.followerMode = true ∨ alrt.name ≠ pingMetricName ∨
    (p.disableRepinning = false ∧ (∃ st, h.consensus.getState.1 = .ok st) ∧ ∃ members, view.peers.peers = .ok members)

structure Handled (p : AlertsPeer) (h : AlertsHandler) (alrt : Alert) (view : AlertView) (next : AlertsHandler) :
    Prop where
  recorded : p.cluster.config.followerMode = false → next.alerts.getLast? = some alrt
  repinned : p.cluster.config.followerMode = false → p.disableRepinning = false → alrt.name = pingMetricName →
    ∀ st distance, h.consensus.getState.1 = .ok st → view.peers.distances alrt.peer = .ok distance →
      next.repinned = h.repinned ++
        ((listed view st).filter (toRepin p distance alrt.peer)).map fun pin => (alrt.peer, pin)

theorem distances_eq_ok {distance : DistanceChecker} {exclude : PeerID} {c : PeerView}
    (found : c.distances exclude = .ok distance) : (∃ members, c.peers = .ok members)
    ∧ ∀ blake2b, Remembers blake2b distance := by
  unfold PeerView.distances PeerView.getTrustedPeers at found
  cases listed : c.peers with
  | error err =>
    rw [listed] at found
    cases found
  | ok members =>
    rw [listed] at found
    obtain rfl := Except.ok.inj found
    exact ⟨⟨members, rfl⟩, fun blake2b => remembers_empty _ _⟩

theorem distances_eq_error {err : Error} {exclude : PeerID} {c : PeerView} (failed : c.distances exclude = .error err) :
    ∀ members, c.peers ≠ .ok members := by
  intro members listed
  unfold PeerView.distances PeerView.getTrustedPeers at failed
  rw [listed] at failed
  cases failed

theorem getLast?_record : (h.record alrt).alerts.getLast? = some alrt := List.getLast?_concat

/-- The ways through an iteration: the alert is skipped, recorded only, ends the loop, or is handled. -/
theorem alertsHandler_cases (p : AlertsPeer) (view : AlertView) (h : AlertsHandler) (alrt : Alert) :
    (p.cluster.config.followerMode = true ∧ h.alertsHandler p view alrt = h) ∨
      (p.cluster.config.followerMode = false ∧ alrt.name ≠ pingMetricName ∧
        h.alertsHandler p view alrt = h.record alrt) ∨
      (p.cluster.config.followerMode = false ∧ alrt.name = pingMetricName ∧
        (p.disableRepinning = true ∨ (∀ st, h.consensus.getState.1 ≠ .ok st) ∨
          ∀ members, view.peers.peers ≠ .ok members) ∧ (h.alertsHandler p view alrt).alerts = (h.record alrt).alerts ∧
        (h.alertsHandler p view alrt).returned = true) ∨
      (p.cluster.config.followerMode = false ∧ alrt.name = pingMetricName ∧ p.disableRepinning = false ∧
        ∃ st distance, h.consensus.getState.1 = .ok st ∧ view.peers.distances alrt.peer = .ok distance ∧
          h.alertsHandler p view alrt = repinListed p view alrt.peer 0 (listed view st) distance
            { h.record alrt with consensus := h.consensus.getState.2 }) := by
  unfold alertsHandler
  cases follower : p.cluster.config.followerMode with
  | true => exact .inl ⟨rfl, rfl⟩
  | false =>
    by_cases ping : alrt.name = pingMetricName
    · rw [if_neg Bool.false_ne_true]
      dsimp only
      rw [if_neg (not_not.mpr ping)]
      cases disabled : p.disableRepinning with
      | true => exact .inr (.inr (.inl ⟨rfl, ping, .inl rfl, rfl, rfl⟩))
      | false =>
        rw [if_neg Bool.false_ne_true]
        have same : (h.record alrt).consensus = h.consensus := rfl
        rw [same]
        obtain ⟨found, next⟩ := h.consensus.getState
        cases found with
        | error err =>
          exact .inr (.inr (.inl ⟨rfl, ping, .inr (.inl fun _ found => nomatch found), rfl, rfl⟩))
        | ok st =>
          cases looked : view.peers.distances alrt.peer with
          | error err =>
            exact .inr (.inr (.inl ⟨rfl, ping, .inr (.inr (distances_eq_error looked)), rfl, rfl⟩))
          | ok distance => exact .inr (.inr (.inr ⟨rfl, ping, rfl, st, distance, rfl, rfl, rfl⟩))
    · exact .inr (.inl ⟨rfl, ping, by rw [if_neg Bool.false_ne_true]; exact if_pos ping⟩)

theorem alertsHandler_handled : Handled p h alrt view (h.alertsHandler p view alrt) := by
  rcases alertsHandler_cases p view h alrt with ⟨follower, -⟩ | ⟨-, notPing, same⟩ | ⟨-, ping, failed, recorded, -⟩ |
    ⟨-, ping, enabled, st, distance, found, looked, same⟩
  · constructor
    · intro leads
      cases leads.symm.trans follower
    · intro leads
      cases leads.symm.trans follower
  · constructor
    · intro _
      rw [same]
      exact getLast?_record
    · intro _ _ ping
      exact (notPing ping).elim
  · constructor
    · intro _
      rw [recorded]
      exact getLast?_record
    · intro _ enabled _ st distance found looked
      rcases failed with disabled | noState | noPeers
      · cases enabled.symm.trans disabled
      · exact (noState st found).elim
      · obtain ⟨⟨members, listed⟩, -⟩ := distances_eq_ok looked
        exact (noPeers members listed).elim
  · constructor
    · intro _
      rw [same, (repinListed_frame distance 0 _ _).1]
      exact getLast?_record
    · intro _ _ _ st' distance' found' looked'
      obtain rfl := Except.ok.inj (found.symm.trans found')
      obtain rfl := Except.ok.inj (looked.symm.trans looked')
      have remembers := (distances_eq_ok looked).2 p.blake2b
      rw [same, repinListed_repinned remembers ⟨rfl, rfl, remembers⟩]
      rfl

theorem alertsHandler_returned_iff (running : h.returned = false) :
    (h.alertsHandler p view alrt).returned = false ↔ Survives p h alrt view := by
  rcases alertsHandler_cases p view h alrt with ⟨follower, same⟩ | ⟨-, notPing, same⟩ |
    ⟨leads, ping, failed, -, returned⟩ | ⟨-, -, enabled, st, distance, found, looked, same⟩
  · rw [same]
    exact iff_of_true running (.inl follower)
  · rw [same]
    exact iff_of_true running (.inr (.inl notPing))
  · rw [returned]
    refine iff_of_false Bool.noConfusion ?_
    rintro (follower | notPing | ⟨enabled, ⟨st, found⟩, members, listed⟩)
    · cases leads.symm.trans follower
    · exact notPing ping
    · rcases failed with disabled | noState | noPeers
      · cases enabled.symm.trans disabled
      · exact noState st found
      · exact noPeers members listed
  · rw [same, (repinListed_frame distance 0 _ _).2]
    exact iff_of_true running (.inr (.inr ⟨enabled, ⟨st, found⟩, (distances_eq_ok looked).1⟩))

end

end IpfsCluster.Proofs.Cluster
