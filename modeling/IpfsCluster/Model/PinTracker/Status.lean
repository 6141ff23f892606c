import IpfsCluster.Model.IpfsConn.PinLs
import IpfsCluster.Model.PinTracker.Stateless
import IpfsCluster.Model.State.DsState

/-! # Statuses of the stateless tracker

The status of a CID is the one of its operation, or is found by comparing the pinset with the pins of the IPFS daemon,
on a fixed snapshot.

`RecoverAll` starts `StatusAll` in a goroutine, which sends a status for each pin of the pinset on a bounded channel,
and restarts the failed operations while the statuses arrive. Nothing else runs meanwhile, so that the pinset and the
daemon are fixed, and only the context of the tracker may be canceled. The caller takes all that is sent to it.
-/

namespace IpfsCluster.Model.PinTracker

open Api IpfsConn Golang TrackerStatus

abbrev IPFSPins := AList fun _ : Cid => IPFSPinStatus

def Operation.toTrackerStatus (op : Operation) : TrackerStatus :=
  match op.opType with
  | .pin =>
    match op.phase with
    | .error => pinError
    | .queued => pinQueued
    | .inProgress => pinning
    | .done => pinned
  | .unpin =>
    match op.phase with
    | .error => unpinError
    | .queued => unpinQueued
    | .inProgress => unpinning
    | .done => unpinned
  | .remote => remote
  | .shard => sharded
  | .unknown => undefined

namespace OperationTracker

variable (t : OperationTracker)

def unsafePinInfo (op : Operation) (ipfs : IPFSID) : PinInfo where
  cid := op.cid
  name := op.pin.name
  peer := t.pid
  allocations := op.pin.allocations
  origins := op.pin.origins
  created := op.pin.timestamp
  metadata := op.pin.metadata
  peerName := t.peerName
  ipfs := ipfs.id
  ipfsAddresses := ipfs.addresses
  status := op.toTrackerStatus
  ts := op.ts
  attemptCount := op.attemptCount
  priorityPin := op.priority
  error := op.error

def getExists (c : Cid) (ipfs : IPFSID) : Option PinInfo :=
  (t.find c).map fun (_, op) => t.unsafePinInfo op ipfs

def tracked : List Operation := t.operations.entries.filterMap fun entry => t.heap[entry.2]?

def getAllChannel (filter : TrackerStatus) (ipfs : IPFSID) : List PinInfo :=
  (t.tracked.map fun op => t.unsafePinInfo op ipfs).filter fun info => info.status.matchesFilter filter

end OperationTracker

namespace Tracker

variable (spt : Tracker)

def errUnexpectedlyUnpinned : String := "the item should be pinned but it is not"

/-- The pins in IPFS by their CID; a later entry replaces an earlier one. -/
def ipfsPins (pins : List IPFSPinInfo) : IPFSPins :=
  pins.foldl (fun acc info => acc.insert info.cid info.type) ∅

def statePinInfo (ipfsid : IPFSID) (ipfsRecursivePins : IPFSPins) (p : Pin) : PinInfo :=
  let info : PinInfo := {
    cid := p.cid
    name := p.name
    peer := spt.peerID
    allocations := p.allocations
    origins := p.origins
    created := p.timestamp
    metadata := p.metadata
    peerName := spt.peerName
    ipfs := ipfsid.id
    ipfsAddresses := ipfsid.addresses
    ts := p.timestamp }
  if p.type = PinType.metaType then { info with status := sharded }
  else if p.isRemotePin spt.peerID then { info with status := remote }
  else
    match ipfsRecursivePins.lookup p.cid with
    | some ipfsStatus => { info with status := ipfsStatus.toTrackerStatus }
    | none => { info with status := unexpectedlyUnpinned, error := errUnexpectedlyUnpinned }

/-- What `StatusAll` sends for a pin in the state: the operation if it matches the filter, and otherwise
the status found by comparison if that one does. -/
def statusOfPin (ipfsid : IPFSID) (ipfsRecursivePins : IPFSPins) (filter : TrackerStatus)
    (p : Pin) : Option PinInfo :=
  let fromState :=
    let info := spt.statePinInfo ipfsid ipfsRecursivePins p
    if filter.matchesFilter info.status then some info else none
  match spt.optracker.getExists p.cid ipfsid with
  | some info => if filter.matchesFilter info.status then some info else fromState
  | none => fromState

/-- What is sent, and the error. -/
def statusAll (getState : Except String DsState) (ipfs : Connector) (ipfsid : IPFSID) (filter : TrackerStatus) :
    List PinInfo × Option String :=
  if !filter.matchesFilter (pinned ||| unexpectedlyUnpinned |||
      sharded ||| remote) then
    (spt.optracker.getAllChannel filter ipfsid, none)
  else
    match getState with
    | .error err => ([], some err)
    | .ok st =>
      if filter.matchesFilter (pinned ||| unexpectedlyUnpinned) then
        match ipfs.pinLs ["recursive", "direct"] with
        | (_, some err) => ([], some ("could not get pinset from IPFS: " ++ err))
        | (pins, none) => (st.list.filterMap (spt.statusOfPin ipfsid (ipfsPins pins) filter), none)
      else (st.list.filterMap (spt.statusOfPin ipfsid ∅ filter), none)

def addError (pinInfo : PinInfo) (err : String) : PinInfo :=
  { pinInfo with error := err, status := clusterError }

def status (getState : Except String DsState) (ipfs : Connector) (ipfsid : IPFSID) (now : Time) (c : Cid) : PinInfo :=
  match spt.optracker.getExists c ipfsid with
  | some oppi => oppi
  | none =>
    let pinInfo : PinInfo := {
      cid := c
      peer := spt.peerID
      peerName := spt.peerName
      ipfs := ipfsid.id
      ipfsAddresses := ipfsid.addresses
      ts := now }
    match getState with
    | .error err => addError pinInfo err
    | .ok st =>
      match st.get c with
      | .error .notFound => { pinInfo with status := unpinned }
      | .error (.text err) => addError pinInfo err
      | .ok gpin =>
        let pinInfo := { pinInfo with
          name := gpin.name
          ts := gpin.timestamp
          allocations := gpin.allocations
          origins := gpin.origins
          created := gpin.timestamp
          metadata := gpin.metadata }
        if gpin.type = PinType.metaType then { pinInfo with status := sharded }
        else if gpin.isRemotePin spt.peerID then { pinInfo with status := remote }
        else
          match ipfs.pinLsCid gpin with
          | (_, some err) => addError pinInfo err
          | (ips, none) =>
            if ips.toTrackerStatus = unpinned then
              { pinInfo with status := unexpectedlyUnpinned, error := errUnexpectedlyUnpinned }
            else { pinInfo with status := ips.toTrackerStatus }

end Tracker

structure Surroundings where
  getState : Except String DsState
  ipfs : Connector
  ipfsid : IPFSID

/-- Where `StatusAll` is, with the map of the pins in IPFS and the pins it has not looked at. -/
inductive StatusPc where
  | start
  | next (ipfsRecursivePins : IPFSPins) (statePins : List Pin)
  | trySend (info : PinInfo) (ipfsRecursivePins : IPFSPins) (statePins : List Pin)
  | returned

/-- Where `RecoverAll` is: at the channel, in `enqueue` for a CID, or back with an error if any. -/
inductive RecoverPc where
  | receive
  | enqueue (c : Cid) (g : ℕ)
  | returned (err : Option String)
deriving DecidableEq

structure RecoverAll where
  spt : Tracker
  statuses : StatusPc := .start
  statusesCh : Chan PinInfo := .make 1024
  recover : RecoverPc := .receive
  out : List PinInfo := []

namespace RecoverAll

variable (s : RecoverAll) (env : Surroundings)

/-- `StatusAll` closes its channel when it returns. -/
def returnStatuses : RecoverAll := { s with statuses := .returned, statusesCh := s.statusesCh.close }

/-- A step of `StatusAll` for all statuses. Sending blocks while the channel is full, unless the tracker
is shut down. -/
def statusStep (select : Select) : Option RecoverAll :=
  match s.statuses with
  | .start =>
    match env.getState with
    | .error _ => some s.returnStatuses
    | .ok st =>
      match env.ipfs.pinLs ["recursive", "direct"] with
      | (_, some _) => some s.returnStatuses
      | (pins, none) => some { s with statuses := .next (Tracker.ipfsPins pins) st.list }
  | .next _ [] => some s.returnStatuses
  | .next pins (p :: rest) =>
    match s.spt.statusOfPin env.ipfsid pins undefined p with
    | none => some { s with statuses := .next pins rest }
    | some info => some { s with statuses := .trySend info pins rest }
  | .trySend info pins rest =>
    match select with
    | .done => if s.spt.done then some s.returnStatuses else none
    | _ => (s.statusesCh.trySend info).map fun filled => { s with statuses := .next pins rest, statusesCh := filled }
  | .returned => none

def recoverError (err : String) : String := "RecoverAll error: " ++ err

/-- The error after a shutdown, which wraps the one of the request, that is nil. -/
def errAborted : String := "RecoverAll aborted: %!w(<nil>)"

/-- Back from `recoverWithPinInfo` for a CID: an error ends the recovery, and otherwise the new status is
sent if it is defined. -/
def recovered (c : Cid) (now : Time) (err : Option String) : RecoverAll :=
  match err with
  | some err => { s with recover := .returned (some (recoverError err)) }
  | none =>
    let p := s.spt.status env.getState env.ipfs env.ipfsid now c
    { s with recover := .receive, out := s.out ++ if p.cid.defined then [p] else [] }

/-- Call `enqueue`, which is done when the operation exists. -/
def enqueue (pin : Pin) (typ : OperationType) (now : Time) : RecoverAll :=
  let spt := s.spt.enqueue pin typ now
  if spt.goroutines.length = s.spt.goroutines.length then { s with spt := spt }.recovered env pin.cid now none
  else { s with spt := spt, recover := .enqueue pin.cid s.spt.goroutines.length }

def recoverWithPinInfo (pi : PinInfo) (now : Time) : RecoverAll :=
  match env.getState with
  | .error err => s.recovered env pi.cid now (some err)
  | .ok st =>
    if pi.status = pinError ∨ pi.status = unexpectedlyUnpinned then
      match st.get pi.cid with
      | .error _ => s.recovered env pi.cid now none
      | .ok pin => s.enqueue env pin .pin now
    else if pi.status = unpinError then s.enqueue env (pinCid pi.cid now) .unpin now
    else { s with recover := .receive }

/-- The error of `enqueue` when its goroutine returns from here. -/
def enqueueError : Pc → Option String
  | .cancelFull _ => some Tracker.errFullQueue
  | _ => none

def hasReturned : Pc → Bool
  | .returned => true
  | _ => false

def recoverStep (input : Input) : Option RecoverAll :=
  match s.recover with
  | .receive =>
    match s.statusesCh.tryReceive with
    | none => none
    | some (none, _) => some { s with recover := .returned none }
    | some (some pi, rest) =>
      if s.spt.done then some { s with statusesCh := rest, recover := .returned (some errAborted) }
      else some ({ s with statusesCh := rest }.recoverWithPinInfo env pi input.now)
  | .enqueue c g =>
    (s.spt.goroutines[g]?).bind fun pc =>
      (s.spt.pcStep input pc).map fun effect =>
        let next := { s with spt := s.spt.commit g effect }
        if hasReturned effect.next then next.recovered env c input.now (enqueueError pc) else next
  | .returned _ => none

end RecoverAll

/-- The goroutine that takes the next step, and what the environment decides in it. -/
inductive RecoverEvent where
  | statuses (select : Select)
  | recover (input : Input)

/-- `RecoverAll` under any interleaving with the goroutine it starts. -/
def recoverAll (env : Surroundings) : Machine.LabeledMachine RecoverAll RecoverEvent where
  step s
    | .statuses select => s.statusStep env select
    | .recover input => s.recoverStep env input

end IpfsCluster.Model.PinTracker
