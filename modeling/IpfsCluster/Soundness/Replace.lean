import IpfsCluster.Model.Api.Handlers
import IpfsCluster.Soundness.Pinset

/-! # Replacing a pin

A request that replaces a pin pins the new CID as an update of the old one, and then unpins the old
one. When both are the same CID, the pin request is an ordinary one, and the unpin removes what it has
pinned, while the request is answered with success.
-/

namespace IpfsCluster.Soundness

open Model Model.Api Golang Proofs.Api Proofs.Cluster

/-- The new CID is in the pinset, and the old one is not unless it is the same. -/
def Replaced (old new : Cid) (st : DsState) : Prop :=
  (st.store.lookup new).isSome = true ∧ (old ≠ new → st.store.lookup old = none)

section

variable {α : Type} {c : Cluster} {blocks : BlockSource} {order : MapOrder} {now : Clock} {consensus : Consensus}
  {old new : Cid} {object : Pin} {answer : Except Error Pin → α} {success : α}

def pinThenUnpin (c : Cluster) (blocks : BlockSource) (order : MapOrder) (now : Clock) (consensus : Consensus)
    (object : Pin) (old : Cid) (answer : Except Error Pin → α) : α × Consensus :=
  match c.pin order (fun n => now (n + 1)) consensus object [] with
  | ((_, _, some err), consensus) => (answer (.error err), consensus)
  | ((pinObj, _, none), consensus) =>
    match c.unpin blocks order (now 3) consensus old with
    | ((_, some err), consensus) => (answer (.error err), consensus)
    | ((_, none), consensus) => (answer (.ok pinObj), consensus)

theorem pinThenUnpin_replaced_iff (isCid : old.defined = true) (isNew : object.cid = new) (isOld : object.pinUpdate = old)
    (answered : (pinThenUnpin c blocks order now consensus object old answer).1 = success)
    (failed : ∀ err, answer (.error err) ≠ success) :
    Replaced old new (pinThenUnpin c blocks order now consensus object old answer).2.state ↔ old ≠ new := by
  subst isNew isOld
  have outcome := pin_outcome c order (fun n => now (n + 1)) consensus object []
  unfold pinThenUnpin at answered ⊢
  generalize c.pin order (fun n => now (n + 1)) consensus object [] = result at outcome answered ⊢
  obtain ⟨⟨pinObj, submitted, _ | err⟩, next⟩ := result
  · dsimp only at answered ⊢
    cases unpinned : c.unpin blocks order (now 3) next object.pinUpdate with
    | mk removal last =>
      rw [unpinned] at answered
      obtain ⟨oldPin, _ | err⟩ := removal
      · have removes := congrArg (·.1.2) unpinned
        rw [show last = (c.unpin blocks order (now 3) next object.pinUpdate).2 by rw [unpinned]]
        constructor
        · rintro ⟨present, -⟩ same
          rw [← same, unpin_removes removes] at present
          cases present
        · intro other
          rcases outcome with ⟨failed, -⟩ | ⟨-, effect⟩
          · exact (failed rfl).elim
          · rw [if_pos ⟨isCid, other⟩] at effect
            obtain ⟨existing, found, data, added⟩ := effect
            have kept : next.state.get object.pinUpdate = .ok existing := by
              rw [added]
              refine Eq.trans (get_add_of_ne consensus.state ?_) found
              exact other
            refine ⟨?_, fun _ => unpin_removes removes⟩
            rw [unpin_data kept data removes, lookup_rm, if_neg (Ne.symm other), added, lookup_add]
            change (if object.cid = object.cid then some _ else _ : Option Pb.Pin).isSome = true
            rw [if_pos rfl]
            rfl
      · exact (failed err answered).elim
  · exact (failed err answered).elim

end

def addPinAnswer : Except Error Pin → Option Response
  | .error err => some (.failed (Cluster.errorText err))
  | .ok pinObj => some (.success [pinObj.cid])

def pinUpdateAnswer (old : Cid) : Except Error Pin → Response
  | .error err => .failed (Cluster.errorText err)
  | .ok pinObj => .success [old, pinObj.cid]

/-- A replace request that is answered with success has replaced the old CID by the new one exactly when
they are different CIDs. -/
theorem replaced_iff_ne (c : Cluster) (blocks : BlockSource) (order : MapOrder) (now : Clock) (consensus : Consensus)
    (old new : Cid) (isCid : old.defined = true) : (∀ pin pins, pin.cid = new →
      (addPin c blocks order now (.ok pin) (some (.ok old)) consensus).1 = some (.success pins) →
      (Replaced old new (addPin c blocks order now (.ok pin) (some (.ok old)) consensus).2.state ↔ old ≠ new)) ∧
    ∀ paths source target rest pFrom pTo unpinArg pins, paths.pathOrCidPath source = .ok pFrom →
      paths.pathOrCidPath target = .ok pTo → paths.resolve pFrom = .ok old → paths.resolve pTo = .ok new →
      unpinArg ≠ "false" →
      (pinUpdateHandler c blocks order now paths (source :: target :: rest) unpinArg consensus).1 = .success pins →
      (Replaced old new
        (pinUpdateHandler c blocks order now paths (source :: target :: rest) unpinArg consensus).2.state ↔
          old ≠ new) := by
  constructor
  · rintro pin pins rfl answered
    have isPin : pin.cid.defined = true := by
      by_contra undefined
      simp [addPin, Bool.eq_false_of_not_eq_true undefined] at answered
    have isRequest : addPin c blocks order now (.ok pin) (some (.ok old)) consensus =
        pinThenUnpin c blocks order now consensus (pinWithOpts pin.cid
          { pin with mode := PinMode.recursive, pinUpdate := old } (now 0)) old addPinAnswer := by
      simp only [addPin, isPin, svcPinToClusterPin, parseRequestIDOrFail, isCid, Bool.not_true, Bool.and_self, ↓reduceIte]
      rfl
    rw [isRequest] at answered ⊢
    exact pinThenUnpin_replaced_iff isCid rfl rfl answered fun _ failed => by cases failed
  · intro paths source target rest pFrom pTo unpinArg pins parsedFrom parsedTo resolvedFrom resolvedTo unpins answered
    have isRequest : pinUpdateHandler c blocks order now paths (source :: target :: rest) unpinArg consensus =
        pinThenUnpin c blocks order now consensus (pinWithOpts new { pinUpdate := old } (now 0)) old
          (pinUpdateAnswer old) := by
      simp only [pinUpdateHandler, parsedFrom, parsedTo, resolvedFrom, Cluster.pinPath, resolvedTo, if_pos unpins]
      rw [pinThenUnpin]
      obtain ⟨⟨pinObj, submitted, _ | err⟩, next⟩ :=
        c.pin order (fun n => now (n + 1)) consensus (pinWithOpts new { pinUpdate := old } (now 0)) [] <;> rfl
    rw [isRequest] at answered ⊢
    exact pinThenUnpin_replaced_iff isCid rfl rfl answered fun _ failed => by cases failed

def cidPaths : Paths where
  pathOrCidPath path := .ok path
  resolve path := .ok ⟨path⟩

def noBlocks : BlockSource where
  blockGet _ := .error (.text "block not found")

def onePin : Consensus := reached {} [pinData ⟨"old"⟩ PinMode.recursive]

theorem replaced_iff_ne_other : Replaced ⟨"old"⟩ ⟨"new"⟩
        (addPin threePeers noBlocks .stored noon (.ok { cid := ⟨"new"⟩ }) (some (.ok ⟨"old"⟩)) onePin).2.state ∧
      Replaced ⟨"old"⟩ ⟨"new"⟩
        (pinUpdateHandler threePeers noBlocks .stored noon cidPaths ["old", "new"] "" onePin).2.state := by
  obtain ⟨service, proxy⟩ :=
    replaced_iff_ne threePeers noBlocks .stored noon onePin ⟨"old"⟩ ⟨"new"⟩ (by decide)
  refine ⟨(service { cid := ⟨"new"⟩ } [⟨"new"⟩] rfl rfl).mpr (by decide), ?_⟩
  exact (proxy cidPaths "old" "new" [] "old" "new" "" [⟨"old"⟩, ⟨"new"⟩] rfl rfl rfl rfl (by decide) rfl).mpr (by decide)

theorem replace_same_removes : ((onePin.state.store.lookup ⟨"old"⟩).isSome = true ∧
      (addPin threePeers noBlocks .stored noon (.ok { cid := ⟨"old"⟩ }) (some (.ok ⟨"old"⟩)) onePin).1 =
        some (.success [⟨"old"⟩]) ∧
      (addPin threePeers noBlocks .stored noon (.ok { cid := ⟨"old"⟩ }) (some (.ok ⟨"old"⟩)) onePin).2.state.store.lookup
        ⟨"old"⟩ = none) ∧ (pinUpdateHandler threePeers noBlocks .stored noon cidPaths ["old", "old"] "" onePin).1 =
        .success [⟨"old"⟩, ⟨"old"⟩] ∧
      (pinUpdateHandler threePeers noBlocks .stored noon cidPaths ["old", "old"] "" onePin).2.state.store.lookup
        ⟨"old"⟩ = none :=
  ⟨⟨rfl, rfl, rfl⟩, rfl, rfl⟩

end IpfsCluster.Soundness
