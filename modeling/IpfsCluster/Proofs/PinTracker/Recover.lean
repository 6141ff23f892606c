import IpfsCluster.Proofs.PinTracker.Status
import IpfsCluster.Proofs.PinTracker.Runs

/-! # Runs of `RecoverAll`

The pinset is split into the pins that were dealt with, those whose statuses wait on the channel, and those not
reported. A restart only touches the operation of its own CID, so that the statuses are the ones before the recovery.
Every step lowers a rank.
-/

namespace IpfsCluster.Proofs.PinTracker

open Model Model.Api Model.PinTracker Model.IpfsConn Golang Proofs.IpfsConn List Option Tracker TrackerStatus

def restart (status : TrackerStatus) : Option OperationType :=
  if status = pinError ∨ status = unexpectedlyUnpinned then some .pin
  else if status = unpinError then some .unpin
  else none

def restarts (info : Pin → PinInfo) (ps : List Pin) : List (OperationType × Cid) :=
  ps.filterMap fun p => (restart (info p).status).map fun typ => (typ, p.cid)

section

variable {info : Pin → PinInfo} {ps : List Pin} {p : Pin} {typ : OperationType} {c : Cid}

theorem mem_restarts_iff : (typ, c) ∈ restarts info ps ↔ ∃ p ∈ ps, restart (info p).status = some typ ∧ p.cid = c := by
  unfold restarts
  rw [mem_filterMap]
  simp only [map_eq_some_iff, Prod.mk.injEq]
  constructor
  · rintro ⟨p, member, typ, failed, rfl, rfl⟩
    exact ⟨p, member, failed, rfl⟩
  · rintro ⟨p, member, failed, rfl⟩
    exact ⟨p, member, typ, failed, rfl, rfl⟩

theorem restarts_of_failed (failed : restart (info p).status = some typ) :
    restarts info (ps ++ [p]) = restarts info ps ++ [(typ, p.cid)] := by
  unfold restarts
  rw [filterMap_append, filterMap_cons, failed]
  rfl

theorem restarts_of_fine (fine : restart (info p).status = none) : restarts info (ps ++ [p]) = restarts info ps := by
  unfold restarts
  rw [filterMap_append, filterMap_cons, fine]
  exact append_nil _

theorem mem_cids_of_mem_restarts (member : c ∈ (restarts info ps).map Prod.snd) : c ∈ ps.map Pin.cid := by
  obtain ⟨⟨typ, c'⟩, restarted, rfl⟩ := mem_map.mp member
  obtain ⟨p, listed, -, rfl⟩ := mem_restarts_iff.mp restarted
  exact mem_map_of_mem listed

end

structure SameHost (before after : Tracker) : Prop where
  peerID : after.peerID = before.peerID
  peerName : after.peerName = before.peerName
  done : after.done = before.done
  pid : after.optracker.pid = before.optracker.pid
  trackerName : after.optracker.peerName = before.optracker.peerName

theorem SameHost.refl (spt : Tracker) : SameHost spt spt := ⟨rfl, rfl, rfl, rfl, rfl⟩

theorem SameHost.trans {spt spt' spt'' : Tracker} (first : SameHost spt spt') (second : SameHost spt' spt'') :
    SameHost spt spt'' where
  peerID := second.peerID.trans first.peerID
  peerName := second.peerName.trans first.peerName
  done := second.done.trans first.done
  pid := second.pid.trans first.pid
  trackerName := second.trackerName.trans first.trackerName

theorem sameHost_enqueue (spt : Tracker) (pin : Pin) (typ : OperationType) (now : Time) :
    SameHost spt (spt.enqueue pin typ now) := by
  have tracker : (spt.optracker.trackNewOperation pin typ .queued now).2.pid = spt.optracker.pid ∧
      (spt.optracker.trackNewOperation pin typ .queued now).2.peerName = spt.optracker.peerName := by
    unfold OperationTracker.trackNewOperation
    split
    · exact ⟨rfl, rfl⟩
    · split <;> exact ⟨rfl, rfl⟩
  exact ⟨rfl, rfl, rfl, tracker.1, tracker.2⟩

theorem statusOf_of_sameHost {before after : Tracker} {ipfsid : IPFSID} {pins : IPFSPins} {p : Pin}
    (host : SameHost before after) (found : after.optracker.find p.cid = before.optracker.find p.cid) :
    after.statusOf ipfsid pins p = before.statusOf ipfsid pins p := by
  unfold statusOf OperationTracker.getExists
  rw [found]
  cases before.optracker.find p.cid with
  | none => simp only [map_none, getD_none, statePinInfo, host.peerID, host.peerName]
  | some entry =>
    simp [OperationTracker.unsafePinInfo, host.pid, host.trackerName]

section

inductive EnqueueAt (ref : OpRef) : OperationType → Pc → Prop
  | readAttempts (pin : Pin) : EnqueueAt ref .pin (.readAttempts ref pin)
  | setPriority (isPriorityPin : Bool) : EnqueueAt ref .pin (.setPriority ref isPriorityPin)
  | send (ch : OpChannel) : EnqueueAt ref ch.opType (.send ref (some ch))

/-- How many steps `enqueue` takes from here when there is room. -/
def pcRank : Pc → ℕ
  | .readAttempts _ _ => 3
  | .setPriority _ _ => 2
  | .send _ _ => 1
  | _ => 0

section

variable {ref : OpRef} {typ : OperationType} {pc : Pc} (stage : EnqueueAt ref typ pc)

include stage

theorem EnqueueAt.goesOn : RecoverAll.hasReturned pc = false := by
  cases stage <;> rfl

theorem EnqueueAt.rank_pos : 0 < pcRank pc := by
  cases stage <;> exact Nat.succ_pos _

end

theorem enqueueAt_start (ref : OpRef) (pin : Pin) {typ : OperationType} (known : typ = .pin ∨ typ = .unpin) :
    EnqueueAt ref typ (enqueueStart pin typ ref) ∧ pcRank (enqueueStart pin typ ref) ≤ 3 := by
  rcases known with rfl | rfl
  · exact ⟨.readAttempts pin, Nat.le_refl 3⟩
  · exact ⟨.send .unpinCh, show 1 ≤ 3 by decide⟩

/-- A step of `enqueue` when there is room: on to the next section, or done with the operation on its channel. -/
inductive EnqueueStep (spt : Tracker) (ref : OpRef) (typ : OperationType) (pc : Pc) (effect : Tracker.Effect) : Prop
  | stay (next : EnqueueAt ref typ effect.next) (lower : pcRank effect.next < pcRank pc) (chan : effect.chan = none)
      (action : effect.action = .skip ∨ ∃ p, effect.action = .setPriorityPin ref p)
  | sent (ch : OpChannel) (filled : Chan OpRef) (typed : ch.opType = typ)
      (sends : (spt.chans ch).trySend ref = some filled)
      (last : effect = { chan := some (ch, filled), next := .returned })
      (noError : RecoverAll.enqueueError pc = none)

variable {spt : Tracker} {ref : OpRef} {typ : OperationType} {pc : Pc} {input : Input} {effect : Tracker.Effect}

theorem enqueueStep_of_pcStep (stage : EnqueueAt ref typ pc)
    (room : ∀ ch, OpChannel.opType ch = typ → ((spt.chans ch).trySend ref).isSome = true)
    (stepped : spt.pcStep input pc = some effect) : EnqueueStep spt ref typ pc effect := by
  cases stage with
  | readAttempts pin =>
    obtain ⟨op, -, rfl⟩ := map_eq_some_iff.mp stepped
    exact .stay (.setPriority _) (Nat.lt_succ_self 2) rfl (.inl rfl)
  | setPriority isPriorityPin =>
    cases stepped
    refine .stay ?_ (Nat.lt_succ_self 1) rfl (.inr ⟨isPriorityPin, rfl⟩)
    cases isPriorityPin with
    | true => exact .send .priorityPinCh
    | false => exact .send .pinCh
  | send ch =>
    obtain ⟨filled, sends⟩ := isSome_iff_exists.mp (room ch rfl)
    simp only [pcStep, sends] at stepped
    exact .sent ch filled rfl sends (some.inj stepped).symm rfl

theorem pcStep_isSome (stage : EnqueueAt ref typ pc) {op : Operation} (present : spt.optracker.heap[ref]? = some op) :
    (spt.pcStep input pc).isSome = true := by
  cases stage with
  | readAttempts pin => rw [pcStep, present, map_some, isSome_some]
  | setPriority isPriorityPin => rfl
  | send ch =>
    simp only [pcStep]
    cases (spt.chans ch).trySend ref <;> rfl

end

inductive StatusAt (st : DsState) (pins : IPFSPins) (info : Pin → PinInfo) : StatusPc → List Pin → Bool → Prop
  | start : StatusAt st pins info .start st.list false
  | next (rest : List Pin) : StatusAt st pins info (.next pins rest) rest false
  | trySend (p : Pin) (rest : List Pin) : StatusAt st pins info (.trySend (info p) pins rest) (p :: rest) false
  | returned : StatusAt st pins info .returned [] true

theorem StatusAt.unread_of_closed {st : DsState} {pins : IPFSPins} {info : Pin → PinInfo} {pc : StatusPc}
    {unread : List Pin} (statuses : StatusAt st pins info pc unread true) : unread = [] := by
  cases statuses
  rfl

inductive RecoverAt (before spt : Tracker) (info : Pin → PinInfo) : RecoverPc → List Pin → List Pin → Prop
  | receive (dealt rest : List Pin) (sent : Sent before spt (restarts info dealt)) :
      RecoverAt before spt info .receive dealt rest
  | enqueue (dealt rest : List Pin) (p : Pin) (typ : OperationType) (g : ℕ) (pc : Pc) (ref : OpRef)
      (failed : restart (info p).status = some typ) (here : spt.goroutines[g]? = some pc)
      (stage : EnqueueAt ref typ pc) (tracked : spt.optracker.operations.lookup p.cid = some ref)
      (sent : Sent before spt (restarts info dealt)) :
      RecoverAt before spt info (.enqueue p.cid g) (dealt ++ [p]) rest
  | returned (dealt : List Pin) (sent : Sent before spt (restarts info dealt)) :
      RecoverAt before spt info (.returned none) dealt []

/-- The state of a recovery: the pins it has received, those on the channel, and the unreported ones. -/
structure Recovering (before : Tracker) (st : DsState) (pins : IPFSPins)
    (info : Pin → PinInfo) (s : RecoverAll) (dealt queued unread : List Pin) : Prop where
  split : st.list = dealt ++ (queued ++ unread)
  buffer : s.statusesCh.buffer = queued.map info
  capacity : s.statusesCh.capacity = 1024
  statuses : StatusAt st pins info s.statuses unread s.statusesCh.closed
  host : SameHost before s.spt
  renewed : Renewed before.optracker s.spt.optracker (restarts info dealt)
  recover : RecoverAt before s.spt info s.recover dealt (queued ++ unread)

def statusRank (st : DsState) : StatusPc → ℕ
  | .start => 6 * st.list.length + 2
  | .next _ rest => 6 * rest.length + 1
  | .trySend _ _ rest => 6 * rest.length + 6
  | .returned => 0

def recoverRank (spt : Tracker) : RecoverPc → ℕ
  | .receive => 1
  | .enqueue _ g => 1 + ((spt.goroutines[g]?).map pcRank).getD 0
  | .returned _ => 0

def rank (st : DsState) (s : RecoverAll) : ℕ :=
  statusRank st s.statuses + 4 * s.statusesCh.buffer.length + recoverRank s.spt s.recover

section

variable {before : Tracker} {st : DsState} {ipfs : Connector} {pinset : IPFSPinset} {ipfsid : IPFSID} {s next : RecoverAll}
  {dealt queued unread : List Pin} {pins : IPFSPins}

theorem Recovering.fresh {info : Pin → PinInfo} {p : Pin} (inv : Recovering before st pins info s dealt queued unread)
    (member : p ∈ queued ++ unread) : p.cid ∉ (restarts info dealt).map Prod.snd := by
  intro restarted
  obtain ⟨q, earlier, same⟩ := mem_map.mp (mem_cids_of_mem_restarts restarted)
  have distinct := list_pairwise st
  rw [inv.split, pairwise_append] at distinct
  exact distinct.2.2 q earlier p member same

theorem Recovering.statusOf {p : Pin}
    (inv : Recovering before st pins (before.statusOf ipfsid pins) s dealt queued unread) (member : p ∈ queued ++ unread) :
    s.spt.statusOf ipfsid pins p = before.statusOf ipfsid pins p :=
  statusOf_of_sameHost inv.host (inv.renewed.untouched p.cid (inv.fresh member))

theorem Recovering.statusStep (truthful : Truthful ipfs pinset) (running : before.done = false) {select : Select}
    (inv : Recovering before st (listing pinset) (before.statusOf ipfsid (listing pinset)) s dealt queued unread)
    (stepped : s.statusStep ⟨.ok st, ipfs, ipfsid⟩ select = some next) :
    ∃ queued' unread', Recovering before st (listing pinset) (before.statusOf ipfsid (listing pinset)) next dealt queued'
      unread' ∧ rank st next < rank st s := by
  have same (p : Pin) (rest : List Pin) (isUnread : unread = p :: rest) :=
    inv.statusOf (p := p) (mem_append_right _ (isUnread ▸ mem_cons_self))
  obtain ⟨spt, statuses, statusesCh, recover, out⟩ := s
  obtain ⟨split, buffer, capacity, statusAt, host, renewed, recoverAt⟩ := inv
  dsimp only at *
  generalize closed : statusesCh.closed = isClosed at statusAt
  cases statusAt with
  | start =>
    simp only [RecoverAll.statusStep, pinLs_of_truthful truthful] at stepped
    cases stepped
    refine ⟨queued, st.list, ⟨split, buffer, capacity, ?_, host, renewed, recoverAt⟩, ?_⟩
    · dsimp only
      rw [closed]
      exact .next _
    · simp only [rank, statusRank]
      omega
  | next =>
    cases unread with
    | nil =>
      cases stepped
      refine ⟨queued, [], ⟨split, buffer, capacity, .returned, host, renewed, recoverAt⟩, ?_⟩
      simp only [rank, RecoverAll.returnStatuses, statusRank, Chan.close]
      omega
    | cons p rest =>
      simp only [RecoverAll.statusStep, statusOfPin_undefined, same p rest rfl] at stepped
      cases stepped
      refine ⟨queued, p :: rest, ⟨split, buffer, capacity, ?_, host, renewed, recoverAt⟩, ?_⟩
      · dsimp only
        rw [closed]
        exact .trySend p rest
      · simp only [rank, statusRank, length_cons]
        omega
  | trySend p rest =>
    have sends : ∃ filled, statusesCh.trySend (before.statusOf ipfsid (listing pinset) p) = some filled ∧
        next = ⟨spt, .next (listing pinset) rest, filled, recover, out⟩ := by
      simp only [RecoverAll.statusStep, host.done, running] at stepped
      cases select with
      | done => cases stepped
      | prio | normal | default =>
        obtain ⟨filled, sends, rfl⟩ := map_eq_some_iff.mp stepped
        exact ⟨filled, sends, rfl⟩
    obtain ⟨filled, sends, rfl⟩ := sends
    obtain ⟨added, notClosed, sameCapacity⟩ := Chan.trySend_eq_some sends
    refine ⟨queued ++ [p], rest, ⟨?_, ?_, ?_, ?_, host, renewed, ?_⟩, ?_⟩
    · rw [split, append_assoc queued, singleton_append]
    · rw [added, buffer, map_append, map_singleton]
    · rw [sameCapacity, capacity]
    · dsimp only
      rw [notClosed]
      exact .next _
    · rwa [append_assoc queued, singleton_append]
    · simp only [rank, statusRank, added, length_append, length_singleton]
      omega
  | returned => cases stepped

end

/-- Every channel is open and has room for the restarts of its type. -/
def Room (spt : Tracker) (items : List (OperationType × Cid)) : Prop :=
  ∀ ch, (spt.chans ch).closed = false ∧
    (spt.chans ch).buffer.length + items.countP (·.1 = OpChannel.opType ch) ≤ (spt.chans ch).capacity

variable {typ : OperationType}

theorem Sent.trySend_isSome {before spt : Tracker} {items rest : List (OperationType × Cid)} {c : Cid}
    (sent : Sent before spt items) (room : Room before (items ++ (typ, c) :: rest)) (ref : OpRef) (ch : OpChannel)
    (typed : ch.opType = typ) : ((spt.chans ch).trySend ref).isSome = true := by
  obtain ⟨added, buffer, count, -⟩ := sent.added ch
  obtain ⟨capacity, closed⟩ := sent.limits ch
  obtain ⟨notClosed, enough⟩ := room ch
  rw [countP_append, countP_cons, typed, decide_eq_true rfl, if_pos rfl] at enough
  rw [typed] at count
  rw [Chan.trySend_isSome_iff, buffer, length_append, capacity, closed]
  exact ⟨by omega, notClosed⟩

theorem phase_of_restart {op : Operation} (failed : restart op.toTrackerStatus = some typ) : op.phase = .error := by
  obtain ⟨opType, pin, phase, attempts, priority, error, ts, canceled⟩ := op
  cases opType with
  | pin | unpin =>
    cases phase with
    | error => rfl
    | queued | inProgress | done =>
      simp only [Operation.toTrackerStatus] at failed
      exact absurd failed (by decide +revert)
  | remote | shard | unknown =>
    simp only [Operation.toTrackerStatus] at failed
    exact absurd failed (by decide +revert)

theorem restart_eq_some {status : TrackerStatus} (failed : restart status = some typ) :
    ((status = pinError ∨ status = unexpectedlyUnpinned) ∧ typ = .pin) ∨ (status = unpinError ∧ typ = .unpin) := by
  unfold restart at failed
  split_ifs at failed with isPin isUnpin
  · exact .inl ⟨isPin, (some.inj failed).symm⟩
  · exact .inr ⟨isUnpin, (some.inj failed).symm⟩

section

variable {before spt : Tracker} {ipfsid : IPFSID} {pins : IPFSPins} {p pin : Pin}
  {typ : OperationType} {items : List (OperationType × Cid)}

theorem enqueue_of_failed (renewed : Renewed before.optracker spt.optracker items) (sent : Sent before spt items)
    (fresh : p.cid ∉ items.map Prod.snd) (failed : restart (before.statusOf ipfsid pins p).status = some typ)
    (same : pin.cid = p.cid) (now : Time) :
    ∃ ref, (spt.enqueue pin typ now).goroutines = spt.goroutines ++ [enqueueStart pin typ ref] ∧
      (spt.enqueue pin typ now).optracker.operations.lookup p.cid = some ref ∧
      Renewed before.optracker (spt.enqueue pin typ now).optracker (items ++ [(typ, p.cid)]) ∧
      Sent before (spt.enqueue pin typ now) items := by
  obtain ⟨pointer, optracker, tracks, isRequest⟩ := request_tracks spt pin typ .queued now (enqueueStart pin typ)
  have isNew : ∃ ref, pointer = some ref := by
    cases tracks with
    | first _ pointer | replace _ _ _ _ _ pointer => exact ⟨_, pointer⟩
    | rewrite ref op tracked present ongoing =>
      have found := find_of_lookup tracked present
      rw [same, renewed.untouched p.cid fresh] at found
      rw [statusOf, OperationTracker.getExists, found] at failed
      change restart op.toTrackerStatus = some typ at failed
      rw [OperationTracker.sameOngoing, phase_of_restart failed] at ongoing
      simp at ongoing
  obtain ⟨ref, rfl⟩ := isNew
  rw [← same] at fresh ⊢
  rw [enqueue, isRequest]
  obtain ⟨attempts, present, tracked⟩ := tracks.new rfl
  refine ⟨ref, rfl, tracked, renewed.tracks tracks rfl fresh, sent.of_optracker rfl ?_ ?_⟩
  · intro at' op old
    obtain ⟨op', present', sameType, sameCid, -⟩ := tracks.frame old
    exact ⟨op', present', sameType, sameCid⟩
  · intro item member
    exact tracks.lookup_of_ne fun clash => fresh (clash ▸ mem_map_of_mem member)

variable {all : List (OperationType × Cid)} {ref : OpRef} {c : Cid} {effect : Tracker.Effect}

section

variable (g : ℕ) (renewed : Renewed before.optracker spt.optracker all) (sent : Sent before spt items) (tracked : spt.optracker.operations.lookup c = some ref) (mine : (typ, c) ∈ all)

include g renewed sent tracked mine

theorem commit_of_stay (chan : effect.chan = none)
    (action : effect.action = .skip ∨ ∃ p, effect.action = .setPriorityPin ref p) :
    SameHost spt (spt.commit g effect) ∧ Renewed before.optracker (spt.commit g effect).optracker all ∧
      (spt.commit g effect).optracker.operations.lookup c = some ref ∧ Sent before (spt.commit g effect) items := by
  have chans : (spt.commit g effect).chans = spt.chans := by simp only [commit, chan]
  have kept : SameHost spt (spt.commit g effect) ∧ Renewed before.optracker (spt.commit g effect).optracker all ∧
      (spt.commit g effect).optracker.operations = spt.optracker.operations := by
    simp only [commit]
    rcases action with skip | ⟨isPriorityPin, setPriority⟩
    · rw [skip]
      exact ⟨⟨rfl, rfl, rfl, rfl, rfl⟩, renewed, rfl⟩
    · rw [setPriority]
      exact ⟨⟨rfl, rfl, rfl, rfl, rfl⟩, renewed.setPriorityPin tracked (mem_map_of_mem mine), rfl⟩
  obtain ⟨host, renewed', operations⟩ := kept
  refine ⟨host, renewed', operations ▸ tracked, sent.of_optracker chans (fun at' op present => ?_) fun item _ => by
    rw [operations]⟩
  rw [commit, heap_apply, present]
  refine ⟨_, rfl, ?_, ?_⟩
  · split <;> simp
  · split <;> simp [Operation.cid]

theorem commit_of_sent {ch : OpChannel} {filled : Chan OpRef} (typed : ch.opType = typ)
    (sends : (spt.chans ch).trySend ref = some filled) :
    Sent before (spt.commit g { chan := some (ch, filled), next := .returned }) (items ++ [(typ, c)]) := by
  obtain ⟨at', op, found, rfl, -⟩ := renewed.renewed (typ, c) mine
  obtain ⟨tracked', present, rfl⟩ := spt.optracker.find_eq_some found
  obtain rfl := mem_unique tracked tracked'
  exact sent.send sends rfl rfl present typed tracked

end

variable {st : DsState} {ipfs : Connector} {s next : RecoverAll} {dealt queued unread : List Pin}

theorem recoverWithPinInfo_of_failed {p : Pin} {info : PinInfo} {typ : OperationType} (member : p ∈ st.list)
    (isCid : info.cid = p.cid) (failed : restart info.status = some typ) (now : Time) :
    ∃ pin, pin.cid = p.cid ∧ s.recoverWithPinInfo ⟨.ok st, ipfs, ipfsid⟩ info now =
      s.enqueue ⟨.ok st, ipfs, ipfsid⟩ pin typ now := by
  rcases restart_eq_some failed with ⟨isPin, rfl⟩ | ⟨isUnpin, rfl⟩
  · refine ⟨p, rfl, ?_⟩
    simp only [RecoverAll.recoverWithPinInfo, if_pos isPin, isCid, get_of_mem_list member]
  · refine ⟨pinCid info.cid now, isCid, ?_⟩
    simp only [RecoverAll.recoverWithPinInfo, isUnpin]
    rw [if_neg (by decide)]
    rfl

theorem recoverWithPinInfo_of_fine {info : PinInfo} (fine : restart info.status = none) (now : Time) :
    s.recoverWithPinInfo ⟨.ok st, ipfs, ipfsid⟩ info now = { s with recover := .receive } := by
  unfold restart at fine
  split_ifs at fine with notPin notUnpin
  simp only [RecoverAll.recoverWithPinInfo, if_neg notPin, if_neg notUnpin]

theorem Recovering.receive {p : Pin} {rest : Chan PinInfo} (now : Time) (receiving : s.recover = .receive)
    (inv : Recovering before st pins (before.statusOf ipfsid pins) s dealt (p :: queued) unread)
    (buffer : rest.buffer = queued.map (before.statusOf ipfsid pins)) (closed : rest.closed = s.statusesCh.closed)
    (capacity : rest.capacity = s.statusesCh.capacity)
    (received : next = { s with statusesCh := rest }.recoverWithPinInfo ⟨.ok st, ipfs, ipfsid⟩
      (before.statusOf ipfsid pins p) now) :
    Recovering before st pins (before.statusOf ipfsid pins) next (dealt ++ [p]) queued unread ∧
      rank st next < rank st s := by
  have fresh := inv.fresh (mem_append_left unread (mem_cons_self (a := p)))
  obtain ⟨split, wasBuffer, wasCapacity, statusAt, host, renewed, recoverAt⟩ := inv
  rw [receiving] at recoverAt
  cases recoverAt with
  | receive _ _ sent
  have length : s.statusesCh.buffer.length = rest.buffer.length + 1 := by
    rw [wasBuffer, buffer, length_map, length_map, length_cons]
  have member : p ∈ st.list := by
    rw [split]
    exact mem_append_right _ mem_cons_self
  rw [cons_append, ← singleton_append, ← append_assoc] at split
  rw [← closed] at statusAt
  rw [← capacity] at wasCapacity
  cases failed : restart (before.statusOf ipfsid pins p).status with
  | none =>
    rw [recoverWithPinInfo_of_fine failed] at received
    rw [← restarts_of_fine failed] at renewed sent
    subst received
    refine ⟨⟨split, buffer, wasCapacity, statusAt, host, renewed, .receive _ _ sent⟩, ?_⟩
    simp only [rank, receiving, recoverRank, length]
    omega
  | some typ =>
    obtain ⟨pin, sameCid, isEnqueue⟩ := @recoverWithPinInfo_of_failed ipfsid st ipfs { s with statusesCh := rest } p _ typ
      member statusOf_cid failed now
    obtain ⟨ref, goroutines, tracked, renewed', sent'⟩ := enqueue_of_failed renewed sent fresh failed sameCid now
    have started : (s.spt.enqueue pin typ now).goroutines.length ≠ s.spt.goroutines.length := by
      rw [goroutines, length_append, length_singleton]
      omega
    have here : (s.spt.enqueue pin typ now).goroutines[s.spt.goroutines.length]? = some (enqueueStart pin typ ref) := by
      rw [goroutines]
      exact getElem?_concat_length
    obtain ⟨stage, low⟩ := enqueueAt_start ref pin ((restart_eq_some failed).imp And.right And.right)
    rw [isEnqueue, RecoverAll.enqueue, if_neg started, sameCid] at received
    rw [← restarts_of_failed failed] at renewed'
    subst received
    refine ⟨⟨split, buffer, wasCapacity, statusAt, host.trans (sameHost_enqueue ..), renewed',
      .enqueue _ _ p typ _ _ ref failed here stage tracked sent'⟩, ?_⟩
    simp only [rank, receiving, recoverRank, length, here, map_some, getD_some]
    omega

theorem Recovering.enqueue {c : Cid} {g : ℕ} {pc : Pc} {input : Input} {effect : Tracker.Effect}
    (room : Room before (restarts (before.statusOf ipfsid pins) st.list)) (enqueuing : s.recover = .enqueue c g)
    (inv : Recovering before st pins (before.statusOf ipfsid pins) s dealt queued unread)
    (here : s.spt.goroutines[g]? = some pc) (stepped : s.spt.pcStep input pc = some effect)
    (isNext : next = if RecoverAll.hasReturned effect.next then
      { s with spt := s.spt.commit g effect }.recovered ⟨.ok st, ipfs, ipfsid⟩ c input.now (RecoverAll.enqueueError pc)
      else { s with spt := s.spt.commit g effect }) :
    Recovering before st pins (before.statusOf ipfsid pins) next dealt queued unread ∧ rank st next < rank st s := by
  obtain ⟨split, buffer, capacity, statusAt, host, renewed, recoverAt⟩ := inv
  rw [enqueuing] at recoverAt
  cases recoverAt with
  | enqueue dealt _ p typ _ pc' ref failed here' stage tracked sent
  obtain rfl := mem_unique here' here
  have enough : Room before (restarts (before.statusOf ipfsid pins) dealt ++ (typ, p.cid) ::
      restarts (before.statusOf ipfsid pins) (queued ++ unread)) := by
    rw [split, restarts, filterMap_append, ← restarts, restarts_of_failed failed, append_assoc] at room
    exact room
  have mine : (typ, p.cid) ∈ restarts (before.statusOf ipfsid pins) (dealt ++ [p]) := by
    rw [restarts_of_failed failed]
    exact mem_append_right _ (mem_singleton_self _)
  cases enqueueStep_of_pcStep stage (sent.trySend_isSome enough ref) stepped with
  | stay stage' lower chan action =>
    rw [stage'.goesOn, if_neg Bool.false_ne_true] at isNext
    have here' : (s.spt.commit g effect).goroutines[g]? = some effect.next :=
      List.getElem?_set_self (List.getElem?_eq_some_iff.mp here).1
    obtain ⟨sameHost, renewed', tracked', sent'⟩ := commit_of_stay g renewed sent tracked mine chan action
    subst isNext
    refine ⟨⟨split, buffer, capacity, statusAt, host.trans sameHost, renewed', ?_⟩, ?_⟩
    · dsimp only
      rw [enqueuing]
      exact .enqueue _ _ p typ _ _ ref failed here' stage' tracked' sent'
    · simp only [rank, enqueuing, recoverRank, here, here', map_some, getD_some]
      omega
  | sent ch filled typed sends last noError =>
    subst last
    rw [noError] at isNext
    have sent' := commit_of_sent g renewed sent tracked mine typed sends
    rw [← restarts_of_failed failed] at sent'
    subst isNext
    refine ⟨⟨split, buffer, capacity, statusAt, host.trans ⟨rfl, rfl, rfl, rfl, rfl⟩, renewed, .receive _ _ sent'⟩, ?_⟩
    have left := stage.rank_pos
    simp only [rank, RecoverAll.hasReturned, RecoverAll.recovered, enqueuing, recoverRank, here, if_pos, map_some,
      getD_some]
    omega

theorem Recovering.recoverStep (running : before.done = false)
    (room : Room before (restarts (before.statusOf ipfsid pins) st.list)) {input : Input}
    (inv : Recovering before st pins (before.statusOf ipfsid pins) s dealt queued unread)
    (stepped : s.recoverStep ⟨.ok st, ipfs, ipfsid⟩ input = some next) :
    ∃ dealt' queued', Recovering before st pins (before.statusOf ipfsid pins) next dealt' queued' unread ∧
      rank st next < rank st s := by
  unfold RecoverAll.recoverStep at stepped
  split at stepped
  next receiving =>
    split at stepped
    · cases stepped
    next rest received =>
      cases stepped
      obtain ⟨empty, closed⟩ := Chan.tryReceive_eq_closed received
      obtain ⟨split, buffer, capacity, statusAt, host, renewed, recoverAt⟩ := inv
      rw [receiving] at recoverAt
      cases recoverAt with
      | receive _ _ sent
      obtain rfl := map_eq_nil_iff.mp (buffer.symm.trans empty)
      obtain rfl := StatusAt.unread_of_closed (closed ▸ statusAt)
      refine ⟨dealt, [], ⟨split, buffer, capacity, statusAt, host, renewed, .returned _ sent⟩, ?_⟩
      simp only [rank, receiving, recoverRank]
      omega
    next info rest received =>
      rw [inv.host.done, running, if_neg Bool.false_ne_true] at stepped
      obtain ⟨items, closed, capacity⟩ := Chan.tryReceive_eq_item received
      rw [inv.buffer] at items
      obtain ⟨p, queued, rfl, rfl, buffer⟩ := map_eq_cons_iff.mp items
      exact ⟨dealt ++ [p], queued, inv.receive input.now receiving buffer.symm closed capacity (some.inj stepped).symm⟩
  next c g enqueuing =>
    obtain ⟨pc, here, stepped⟩ := bind_eq_some_iff.mp stepped
    obtain ⟨effect, stepped, isNext⟩ := map_eq_some_iff.mp stepped
    exact ⟨dealt, queued, inv.enqueue room enqueuing here stepped isNext.symm⟩
  · cases stepped

theorem statusStep_isSome {env : Surroundings} (notReturned : s.statuses ≠ .returned)
    (room : s.statusesCh.buffer.length < s.statusesCh.capacity ∧ s.statusesCh.closed = false) :
    (s.statusStep env .default).isSome = true := by
  unfold RecoverAll.statusStep
  split
  · split
    · rfl
    · split <;> rfl
  · rfl
  · split <;> rfl
  · dsimp only
    rw [isSome_map]
    exact Chan.trySend_isSome_iff.mpr room
  next returned => exact (notReturned returned).elim

theorem recoverStep_isSome {env : Surroundings} (receiving : s.recover = .receive) {answer : Option PinInfo × Chan PinInfo}
    (received : s.statusesCh.tryReceive = some answer) (input : Input) : (s.recoverStep env input).isSome = true := by
  obtain ⟨_ | info, rest⟩ := answer
  · simp [RecoverAll.recoverStep, receiving, received]
  · simp only [RecoverAll.recoverStep, receiving, received]
    split <;> rfl

theorem Recovering.progress (inv : Recovering before st pins (before.statusOf ipfsid pins) s dealt queued unread)
    (notReturned : ∀ err, s.recover ≠ .returned err) (env : Surroundings) :
    ∃ event, ((recoverAll env).step s event).isSome = true := by
  obtain ⟨split, buffer, capacity, statusAt, host, renewed, recoverAt⟩ := inv
  cases pc : s.recover with
  | receive =>
    cases received : s.statusesCh.tryReceive with
    | some answer => exact ⟨.recover {}, recoverStep_isSome pc received {}⟩
    | none =>
      obtain ⟨empty, notClosed⟩ := Chan.tryReceive_eq_none received
      refine ⟨.statuses .default, statusStep_isSome ?_ ⟨?_, notClosed⟩⟩
      · intro returned
        rw [returned, notClosed] at statusAt
        cases statusAt
      · rw [empty, capacity]
        decide
  | enqueue c g =>
    rw [pc] at recoverAt
    cases recoverAt with
    | enqueue dealt _ p typ _ pc' ref failed here stage tracked sent
    obtain ⟨op, present, -⟩ := s.spt.optracker.resolves _ _ tracked
    refine ⟨.recover {}, ?_⟩
    change (s.recoverStep env {}).isSome = true
    simp only [RecoverAll.recoverStep, pc, here, bind_some, isSome_map]
    exact pcStep_isSome stage present
  | returned err => exact (notReturned err pc).elim

end

theorem recovering_start (before : Tracker) (st : DsState) (pins : IPFSPins) (info : Pin → PinInfo) :
    Recovering before st pins info { spt := before } [] [] st.list where
  split := rfl
  buffer := rfl
  capacity := rfl
  statuses := .start
  host := .refl before
  renewed := .refl _
  recover := .receive _ _ (.refl before)

section

variable {before : Tracker} {st : DsState} {ipfs : Connector} {pinset : IPFSPinset} {ipfsid : IPFSID}

def InRecovery (before : Tracker) (st : DsState) (pins : IPFSPins) (info : Pin → PinInfo)
    (s : RecoverAll) : Prop :=
  ∃ dealt queued unread, Recovering before st pins info s dealt queued unread

theorem InRecovery.step {s next : RecoverAll} {event : RecoverEvent} (truthful : Truthful ipfs pinset)
    (running : before.done = false) (room : Room before (restarts (before.statusOf ipfsid (listing pinset)) st.list))
    (inv : InRecovery before st (listing pinset) (before.statusOf ipfsid (listing pinset)) s)
    (stepped : (recoverAll ⟨.ok st, ipfs, ipfsid⟩).step s event = some next) :
    InRecovery before st (listing pinset) (before.statusOf ipfsid (listing pinset)) next ∧ rank st next < rank st s := by
  obtain ⟨dealt, queued, unread, inv⟩ := inv
  cases event with
  | statuses select =>
    obtain ⟨queued', unread', inv', lower⟩ := inv.statusStep truthful running stepped
    exact ⟨⟨dealt, queued', unread', inv'⟩, lower⟩
  | recover input =>
    obtain ⟨dealt', queued', inv', lower⟩ := inv.recoverStep running room stepped
    exact ⟨⟨dealt', queued', unread, inv'⟩, lower⟩

end

end IpfsCluster.Proofs.PinTracker
