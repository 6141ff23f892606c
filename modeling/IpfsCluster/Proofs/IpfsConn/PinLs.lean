import IpfsCluster.Model.IpfsConn.PinLs

/-! # Listings of a truthful daemon

A daemon that answers truthfully lists all pins of a type, and answers for one CID by the type or by an
error that says that the CID is not pinned. The connector then finds the recursive pins by the listing,
and the pins of the wanted mode by their CID.
-/

namespace IpfsCluster.Proofs.IpfsConn

open Model Model.Api Model.IpfsConn List PinMode Connector

structure IPFSPinset where
  recursive : List Cid := []
  direct : List Cid := []

def IPFSPinset.ofType (pinset : IPFSPinset) (type : String) : List Cid :=
  if type = "direct" then pinset.direct else if type = "recursive" then pinset.recursive else []

def IPFSPinset.inMode (pinset : IPFSPinset) (mode : PinMode) : List Cid := pinset.ofType (string mode)

/-- The daemon tells what it pins, in both forms of the request. -/
structure Truthful (ipfs : Connector) (pinset : IPFSPinset) : Prop where
  list : ∀ mode, ipfs.postCtxStreamResponse (.list (string mode)) =
    .ok ((pinset.inMode mode).map fun c => .ok ⟨c, string mode⟩)
  pinned : ∀ mode, ∀ c ∈ pinset.inMode mode, ipfs.postCtxStreamResponse (.arg c (string mode)) =
    .ok [.ok ⟨c, string mode⟩]
  unpinned : ∀ mode, ∀ c ∉ pinset.inMode mode, ∃ err,
    ipfs.postCtxStreamResponse (.arg c (string mode)) = .error err ∧ isUnpinnedError err = true

def daemon (pinset : IPFSPinset) : Connector where
  postCtxStreamResponse
    | .list type => .ok ((pinset.ofType type).map fun c => .ok ⟨c, type⟩)
    | .arg c type =>
      if c ∈ pinset.ofType type then .ok [.ok ⟨c, type⟩]
      else .error { text := "IPFS error", ipfsMessage := some "path is not pinned" }

theorem daemon_truthful (pinset : IPFSPinset) : Truthful (daemon pinset) pinset where
  list _ := rfl
  pinned _ _ pinned := if_pos pinned
  unpinned _ _ absent := ⟨_, if_neg absent, by decide⟩

def modeStatus (mode : PinMode) : IPFSPinStatus := if mode = direct then .direct else .recursive

theorem fromString_string (mode : PinMode) : IPFSPinStatus.fromString (string mode) = modeStatus mode := by
  unfold string modeStatus
  split <;> decide

theorem inMode_toPinMode (pinset : IPFSPinset) (depth : PinDepth) :
    pinset.inMode (PinDepth.toPinMode depth) = if depth = 0 then pinset.direct else pinset.recursive := by
  unfold PinDepth.toPinMode
  split <;> rfl

theorem readPins_of_ok (raws : List RawPin) : readPins (raws.map .ok) = (raws.map RawPin.decode, none) := by
  induction raws with
  | nil => rfl
  | cons raw rest ih => rw [map_cons, readPins, ih, map_cons]

section

variable {ipfs : Connector} {pinset : IPFSPinset}

theorem pinLs_of_truthful (truthful : Truthful ipfs pinset) :
    ipfs.pinLs ["recursive", "direct"] = (pinset.recursive.map fun c => ⟨c, .recursive⟩, none) := by
  have answered : ipfs.postCtxStreamResponse (.list "recursive") =
      .ok ((pinset.recursive.map fun c => (⟨c, "recursive"⟩ : RawPin)).map .ok) := by
    rw [map_map]
    exact truthful.list recursive
  have decoded (c : Cid) : RawPin.decode ⟨c, "recursive"⟩ = ⟨c, .recursive⟩ :=
    congrArg (IPFSPinInfo.mk c) (fromString_string recursive)
  rw [pinLs, answered]
  dsimp only
  rw [readPins_of_ok, map_map]
  simp only [Function.comp_def, decoded]

theorem pinLsCid_of_truthful (truthful : Truthful ipfs pinset) {pin : Pin} (defined : pin.defined = true) :
    ipfs.pinLsCid pin = (if pin.cid ∈ pinset.inMode (PinDepth.toPinMode pin.maxDepth) then
        modeStatus (PinDepth.toPinMode pin.maxDepth) else .unpinned, none) := by
  unfold pinLsCid
  rw [defined, Bool.not_true, if_neg Bool.false_ne_true]
  by_cases pinned : pin.cid ∈ pinset.inMode (PinDepth.toPinMode pin.maxDepth)
  · rw [truthful.pinned _ _ pinned, if_pos pinned, ← fromString_string]
    rfl
  · obtain ⟨err, failed, unpinned⟩ := truthful.unpinned _ _ pinned
    rw [failed, if_neg pinned]
    dsimp only
    rw [if_pos unpinned]

end

section

variable {post : ℕ → PinLsRequest → Except PostError Body} {ipfsPinCount : ℤ}

theorem decodeStream_ok (raws : List RawPin) (ls : Listing) : decodeStream (raws.map .ok) ls =
      (.breakNextFilter, ⟨ls.sent ++ raws.map RawPin.decode, some .eof, ls.totalPinCount + raws.length⟩) := by
  induction raws generalizing ls with
  | nil => simp [decodeStream]
  | cons raw raws ih =>
    rw [map_cons, decodeStream, ih, map_cons, append_assoc, length_cons]
    simp [Nat.cast_add, Nat.cast_one, add_assoc, add_comm (1 : ℤ)]

theorem pinLsCounting_cons {typeFilter : String} {rest : List String} {raws : List RawPin}
    (answered : post 0 (.list typeFilter) = .ok (raws.map .ok)) :
    pinLsCounting post ipfsPinCount (typeFilter :: rest) = (raws.map RawPin.decode, none, ipfsPinCount) := by
  rw [pinLsCounting, filterLoop, answered]
  simp [decodeStream_ok]

def StreamExit.error : StreamExit → Option String
  | .breakNextFilter => none
  | .returned err => some err

theorem decodeStream_readPins (body : Body) (ls : Listing) :
    (decodeStream body ls).2.sent = ls.sent ++ (readPins body).1 ∧
      StreamExit.error (decodeStream body ls).1 = (readPins body).2 := by
  induction body generalizing ls with
  | nil => exact ⟨(append_nil _).symm, rfl⟩
  | cons object rest ih =>
    cases object with
    | error err => exact ⟨(append_nil _).symm, rfl⟩
    | ok raw =>
      obtain ⟨sent, err⟩ := ih ⟨ls.sent ++ [raw.decode], none, ls.totalPinCount + 1⟩
      rw [decodeStream, readPins]
      refine ⟨?_, err⟩
      rw [sent, append_assoc, singleton_append]

theorem pinLsCounting_pinLs (ipfs : Connector) (typeFilters : List String) :
    (pinLsCounting (fun _ => ipfs.postCtxStreamResponse) ipfsPinCount typeFilters).1 = (ipfs.pinLs typeFilters).1 ∧
      (pinLsCounting (fun _ => ipfs.postCtxStreamResponse) ipfsPinCount typeFilters).2.1 =
        (ipfs.pinLs typeFilters).2 := by
  cases typeFilters with
  | nil => exact ⟨rfl, rfl⟩
  | cons typeFilter rest =>
    rw [pinLsCounting, filterLoop, pinLs]
    cases ipfs.postCtxStreamResponse (.list typeFilter) with
    | error err => exact ⟨rfl, rfl⟩
    | ok body =>
      obtain ⟨sent, err⟩ := decodeStream_readPins body {}
      dsimp only at sent ⊢
      cases exit : decodeStream body {} with
      | mk how ls =>
        rw [exit] at sent err
        cases how with
        | breakNextFilter | returned => exact ⟨sent, err⟩

end

end IpfsCluster.Proofs.IpfsConn
