import IpfsCluster.Golang.Chan
import IpfsCluster.Machine.Run
import IpfsCluster.Model.Api.Types

/-! # The stateless pin tracker

The operation tracker keeps at most one operation per CID. Operations are shared by pointer with the goroutines that
work on them, so a pointer is a position in the heap of all operations ever created. That a tracked pointer leads to an
operation for its CID is part of the type.

Callers of `Track`, `Untrack` and `Recover` create operations and put them on channels; workers take them off, call the
IPFS daemon and update the operation tracker. Every goroutine is a program counter that holds its variables: each
section under a mutex, each select and each call to the daemon is one step. A call to the daemon for a canceled
operation fails without effect. Requests and successful calls are recorded as history.
-/

namespace IpfsCluster.Model.PinTracker

open Api Golang

inductive OperationType where
  | unknown | pin | unpin | remote | shard
deriving DecidableEq, Repr

inductive Phase where
  | error | queued | inProgress | done
deriving DecidableEq, Repr

/-- An operation on a CID; `canceled` is the state of its own context. -/
structure Operation where
  opType : OperationType
  pin : Pin
  phase : Phase
  attemptCount : ℕ := 0
  priority : Bool := false
  error : String := ""
  ts : Time
  canceled : Bool := false

def Operation.cid (op : Operation) : Cid := op.pin.cid

abbrev OpRef := ℕ

structure Counters where
  pinning : ℤ := 0
  pinError : ℤ := 0
  pinQueued : ℤ := 0
deriving DecidableEq

/-- Only pin operations are counted, and not once they are done. -/
def Counters.recordMetric (counts : Counters) (op : Operation) (val : ℤ) : Counters :=
  if op.opType = .pin then
    match op.phase with
    | .error => { counts with pinError := counts.pinError + val }
    | .queued => { counts with pinQueued := counts.pinQueued + val }
    | .inProgress => { counts with pinning := counts.pinning + val }
    | .done => counts
  else counts

structure OperationTracker where
  pid : PeerID := ""
  peerName : String := ""
  heap : List Operation := []
  operations : AList (fun _ : Cid => OpRef) := ∅
  counts : Counters := {}
  resolves : ∀ c ref, operations.lookup c = some ref → ∃ op, heap[ref]? = some op ∧ op.cid = c

namespace OperationTracker

def new (pid : PeerID) (peerName : String) : OperationTracker where
  pid := pid
  peerName := peerName
  resolves _ _ found := by cases found

variable (t : OperationTracker)

def modify (ref : OpRef) (f : Operation → Operation) (keeps : ∀ op, t.heap[ref]? = some op → (f op).cid = op.cid) :
    OperationTracker :=
  { t with
    heap := t.heap.modify ref f
    resolves := by
      intro c at' found
      obtain ⟨op, present, same⟩ := t.resolves c at' found
      by_cases here : ref = at'
      · subst here
        exact ⟨f op, by rw [List.getElem?_modify, present]; simp, (keeps op present).trans same⟩
      · exact ⟨op, by rw [List.getElem?_modify, present]; simp [here], same⟩ }

def cancel (ref : OpRef) : OperationTracker :=
  t.modify ref (fun op => { op with canceled := true }) fun _ _ => rfl

def incAttempt (ref : OpRef) : OperationTracker :=
  t.modify ref (fun op => { op with attemptCount := op.attemptCount + 1 }) fun _ _ => rfl

def setPriorityPin (ref : OpRef) (p : Bool) : OperationTracker :=
  t.modify ref (fun op => { op with priority := p }) fun _ _ => rfl

/-- Change the phase, taking the operation out of one gauge and into another. -/
def setPhase (ref : OpRef) (ph : Phase) (now : Time) : OperationTracker :=
  match t.heap[ref]? with
  | none => t
  | some op =>
    let changed := { op with phase := ph, ts := now }
    { t.modify ref (fun op => { op with phase := ph, ts := now }) (fun _ _ => rfl) with
      counts := (t.counts.recordMetric op (-1)).recordMetric changed 1 }

def setError (ref : OpRef) (err : String) (now : Time) : OperationTracker :=
  match t.heap[ref]? with
  | none => t
  | some op =>
    let changed := { op with phase := .error, error := err, ts := now }
    { t.modify ref (fun op => { op with phase := .error, error := err, ts := now }) (fun _ _ => rfl) with
      counts := (t.counts.recordMetric op (-1)).recordMetric changed 1 }

/-- Allocate an operation and track it for its CID. -/
def push (op : Operation) : OperationTracker :=
  { t with
    heap := t.heap ++ [op]
    operations := t.operations.insert op.cid t.heap.length
    counts := t.counts.recordMetric op 1
    resolves := by
      intro c ref found
      by_cases here : c = op.cid
      · subst here
        rw [AList.lookup_insert] at found
        cases found
        exact ⟨op, List.getElem?_concat_length, rfl⟩
      · rw [AList.lookup_insert_ne here] at found
        obtain ⟨old, present, same⟩ := t.resolves c ref found
        exact ⟨old, by rw [List.getElem?_append_left (List.getElem?_eq_some_iff.mp present).1, present], same⟩ }

/-- Whether a tracked operation is ongoing and of the requested type. -/
def sameOngoing (op : Operation) (typ : OperationType) : Bool :=
  op.opType = typ && op.phase ≠ .error && op.phase ≠ .done

def find (c : Cid) : Option (OpRef × Operation) :=
  (t.operations.lookup c).bind fun ref => (t.heap[ref]?).map fun op => (ref, op)

theorem find_eq_some {c : Cid} {ref : OpRef} {op : Operation} (found : t.find c = some (ref, op)) :
    t.operations.lookup c = some ref ∧ t.heap[ref]? = some op ∧ op.cid = c := by
  obtain ⟨at', tracked, present⟩ := Option.bind_eq_some_iff.mp found
  obtain ⟨op', here, same⟩ := Option.map_eq_some_iff.mp present
  obtain ⟨rfl, rfl⟩ := Prod.mk.inj same
  obtain ⟨again, sameRef, sameCid⟩ := t.resolves c at' tracked
  obtain rfl := Option.mem_unique here sameRef
  exact ⟨tracked, here, sameCid⟩

/-- Track a request. An ongoing operation of the same type only gets the new pin object and no pointer
is returned; any other operation is canceled and replaced. -/
def trackNewOperation (pin : Pin) (typ : OperationType) (ph : Phase) (now : Time) : Option OpRef × OperationTracker :=
  let op2 : Operation := { opType := typ, pin := pin, phase := ph, ts := now }
  match found : t.find pin.cid with
  | none => (some t.heap.length, t.push op2)
  | some (ref, op) =>
    if sameOngoing op typ then
      (none, t.modify ref (fun op => { op with pin := pin }) fun old present => by
        obtain ⟨-, here, same⟩ := t.find_eq_some found
        obtain rfl := Option.mem_unique here present
        exact same.symm)
    else
      let canceled := { t.cancel ref with counts := t.counts.recordMetric op (-1) }
      let carried := if op.opType = typ then { op2 with attemptCount := op.attemptCount } else op2
      (some t.heap.length, canceled.push carried)

/-- Stop tracking an operation if it is the tracked one. -/
def clean (ref : OpRef) : OperationTracker :=
  match t.heap[ref]? with
  | none => t
  | some op =>
    if t.operations.lookup op.cid = some ref then
      { t with
        operations := t.operations.erase op.cid
        resolves := by
          intro c at' found
          by_cases here : c = op.cid
          · rw [here, AList.lookup_erase] at found
            cases found
          · rw [AList.lookup_erase_ne here] at found
            exact t.resolves c at' found }
    else t

def pinQueueSize : ℤ := t.counts.pinQueued

end OperationTracker

structure Config where
  maxPinQueueSize : ℕ
  concurrentPins : ℕ := 10
  priorityPinMaxAge : ℤ := 0
  priorityPinMaxRetries : ℕ := 5

inductive OpChannel where
  | priorityPinCh | pinCh | unpinCh
deriving DecidableEq, Repr

/-- The function of a worker, which is also the method it calls on the daemon. -/
inductive PinF where
  | pin | unpin
deriving DecidableEq, Repr

/-- The channel that a worker looks at first. -/
def PinF.prioCh : PinF → OpChannel
  | .pin => .priorityPinCh
  | .unpin => .unpinCh

/-- The other channel of a worker, nil for unpinning. -/
def PinF.normalCh : PinF → Option OpChannel
  | .pin => some .pinCh
  | .unpin => none

/-- Where a goroutine is, with the operation it works on. -/
inductive Pc where
  -- opWorker and applyPinF
  | pollPriority (pinF : PinF)
  | pollAll (pinF : PinF)
  | checkCanceled (pinF : PinF) (op : OpRef)
  | setInProgress (pinF : PinF) (op : OpRef)
  | incAttempt (pinF : PinF) (op : OpRef)
  | readPin (pinF : PinF) (op : OpRef)
  | calling (pinF : PinF) (op : OpRef) (pin : Pin)
  | checkFailure (pinF : PinF) (op : OpRef) (err : String)
  | setError (pinF : PinF) (op : OpRef) (err : String)
  | cancelFailed (pinF : PinF) (op : OpRef)
  | setDone (pinF : PinF) (op : OpRef)
  | cancelDone (pinF : PinF) (op : OpRef)
  | clean (pinF : PinF) (op : OpRef)
  -- enqueue, once the operation is tracked
  | readAttempts (op : OpRef) (pin : Pin)
  | setPriority (op : OpRef) (isPriorityPin : Bool)
  | send (op : OpRef) (ch : Option OpChannel)
  | setFull (op : OpRef)
  | cancelFull (op : OpRef)
  -- Track of a remote pin, once the operation is tracked
  | remoteReadPin (op : OpRef)
  | remoteCalling (op : OpRef) (pin : Pin)
  | remoteCancel (op : OpRef) (result : Except String Unit)
  | remoteSetError (op : OpRef) (err : String)
  | remoteSetDone (op : OpRef)
  | remoteClean (op : OpRef)
  | returned

inductive Select where
  | prio | normal | done | default
deriving DecidableEq, Repr

/-- What the environment decides in a step: the case of a select, the clock, the answer of a call. -/
structure Input where
  select : Select := .default
  now : Time := Time.zero
  answer : Except String Unit := .ok ()

inductive Action where
  | skip
  | setPhase (op : OpRef) (ph : Phase) (now : Time)
  | setError (op : OpRef) (err : String) (now : Time)
  | incAttempt (op : OpRef)
  | setPriorityPin (op : OpRef) (p : Bool)
  | cancel (op : OpRef)
  | clean (op : OpRef)

def OperationTracker.apply (t : OperationTracker) : Action → OperationTracker
  | .skip => t
  | .setPhase op ph now => t.setPhase op ph now
  | .setError op err now => t.setError op err now
  | .incAttempt op => t.incAttempt op
  | .setPriorityPin op p => t.setPriorityPin op p
  | .cancel op => t.cancel op
  | .clean op => t.clean op

structure Tracker where
  config : Config
  peerID : PeerID
  peerName : String
  optracker : OperationTracker
  done : Bool := false
  chans : OpChannel → Chan OpRef
  goroutines : List Pc
  requests : List (OperationType × Pin) := []
  calls : List (PinF × Pin) := []

namespace Tracker

/-- A tracker with its workers and nothing to do. -/
def new (config : Config) (pid : PeerID) (peerName : String) : Tracker where
  config := config
  peerID := pid
  peerName := peerName
  optracker := .new pid peerName
  chans _ := .make config.maxPinQueueSize
  goroutines := List.replicate config.concurrentPins (.pollPriority .pin) ++ [.pollPriority .unpin]

variable (spt : Tracker)

def canceled (op : OpRef) : Bool := spt.done || ((spt.optracker.heap[op]?).map (·.canceled)).getD true

/-- Receive an operation; the channels of operations are never closed. -/
def receive (ch : OpChannel) : Option (OpRef × Chan OpRef) :=
  match (spt.chans ch).tryReceive with
  | some (some op, next) => some (op, next)
  | some (none, _) | none => none

/-- What a goroutine does in one step: a section on the tracker, a change of a channel, a successful
call, and where it goes next. -/
structure Effect where
  action : Action := .skip
  chan : Option (OpChannel × Chan OpRef) := none
  call : Option (PinF × Pin) := none
  next : Pc

def takeFrom (pinF : PinF) (ch : OpChannel) : Option Effect :=
  (spt.receive ch).map fun (op, rest) => { chan := some (ch, rest), next := .checkCanceled pinF op }

def errFullQueue : String := "pin/unpin operation queue is full. Try increasing max_pin_queue_size"

/-- The error of a call whose context is canceled. -/
def errCanceled : String := "context canceled"

/-- The answer to a call for an operation, which fails once the operation is canceled. -/
def callResult (op : OpRef) (input : Input) : Except String Unit :=
  if spt.canceled op then .error errCanceled else input.answer

/-- The next step of a goroutine, if it is not blocked. The first select of a worker prefers the priority
channel and the second one blocks; `enqueue` fails the operation when its channel has no room. -/
def pcStep (input : Input) : Pc → Option Effect
  | .pollPriority pinF =>
    match input.select with
    | .prio => spt.takeFrom pinF pinF.prioCh
    | .done => if spt.done then some { next := .returned } else none
    | .default =>
      if spt.done || (spt.receive pinF.prioCh).isSome then none else some { next := .pollAll pinF }
    | .normal => none
  | .pollAll pinF =>
    match input.select with
    | .prio => spt.takeFrom pinF pinF.prioCh
    | .normal => pinF.normalCh.bind (spt.takeFrom pinF)
    | .done => if spt.done then some { next := .returned } else none
    | .default => none
  | .checkCanceled pinF op =>
    some { next := if spt.canceled op then .pollPriority pinF else .setInProgress pinF op }
  | .setInProgress pinF op =>
    some { action := .setPhase op .inProgress input.now, next := .incAttempt pinF op }
  | .incAttempt pinF op => some { action := .incAttempt op, next := .readPin pinF op }
  | .readPin pinF op => (spt.optracker.heap[op]?).map fun o => { next := .calling pinF op o.pin }
  | .calling pinF op pin =>
    match spt.callResult op input with
    | .error err => some { next := .checkFailure pinF op err }
    | .ok () => some { call := some (pinF, pin), next := .setDone pinF op }
  | .checkFailure pinF op err =>
    some { next := if spt.canceled op then .pollPriority pinF else .setError pinF op err }
  | .setError pinF op err => some { action := .setError op err input.now, next := .cancelFailed pinF op }
  | .cancelFailed pinF op => some { action := .cancel op, next := .pollPriority pinF }
  | .setDone pinF op => some { action := .setPhase op .done input.now, next := .cancelDone pinF op }
  | .cancelDone pinF op => some { action := .cancel op, next := .clean pinF op }
  | .clean pinF op => some { action := .clean op, next := .pollPriority pinF }
  | .readAttempts op pin =>
    (spt.optracker.heap[op]?).map fun o =>
      let isPriorityPin := input.now.before ⟨pin.timestamp.nanos + spt.config.priorityPinMaxAge⟩ &&
        o.attemptCount ≤ spt.config.priorityPinMaxRetries
      { next := .setPriority op isPriorityPin }
  | .setPriority op isPriorityPin =>
    some {
      action := .setPriorityPin op isPriorityPin
      next := .send op (some (if isPriorityPin then .priorityPinCh else .pinCh)) }
  | .send op none => some { next := .setFull op }
  | .send op (some ch) =>
    match (spt.chans ch).trySend op with
    | some filled => some { chan := some (ch, filled), next := .returned }
    | none => some { next := .setFull op }
  | .setFull op => some { action := .setError op errFullQueue input.now, next := .cancelFull op }
  | .cancelFull op => some { action := .cancel op, next := .returned }
  | .remoteReadPin op => (spt.optracker.heap[op]?).map fun o => { next := .remoteCalling op o.pin }
  | .remoteCalling op pin =>
    match spt.callResult op input with
    | .error err => some { next := .remoteCancel op (.error err) }
    | .ok () => some { call := some (.unpin, pin), next := .remoteCancel op (.ok ()) }
  | .remoteCancel op (.error err) => some { action := .cancel op, next := .remoteSetError op err }
  | .remoteCancel op (.ok ()) => some { action := .cancel op, next := .remoteSetDone op }
  | .remoteSetError op err => some { action := .setError op err input.now, next := .returned }
  | .remoteSetDone op => some { action := .setPhase op .done input.now, next := .remoteClean op }
  | .remoteClean op => some { action := .clean op, next := .returned }
  | .returned => none

def commit (g : ℕ) (effect : Effect) : Tracker :=
  { spt with
    optracker := spt.optracker.apply effect.action
    chans := match effect.chan with
      | none => spt.chans
      | some (ch, next) => Function.update spt.chans ch next
    goroutines := spt.goroutines.set g effect.next
    calls := spt.calls ++ effect.call.toList }

/-- Track a request; when it needs work, a goroutine goes on with it. -/
def request (pin : Pin) (typ : OperationType) (ph : Phase) (now : Time) (start : OpRef → Pc) : Tracker :=
  let (op, optracker) := spt.optracker.trackNewOperation pin typ ph now
  { spt with
    optracker := optracker
    goroutines := spt.goroutines ++ (op.map start).toList
    requests := spt.requests ++ [(typ, pin)] }

/-- How `enqueue` goes on, by the type of the operation; other types have a nil channel. -/
def enqueueStart (pin : Pin) (typ : OperationType) (op : OpRef) : Pc :=
  match typ with
  | .pin => .readAttempts op pin
  | .unpin => .send op (some .unpinCh)
  | _ => .send op none

def enqueue (pin : Pin) (typ : OperationType) (now : Time) : Tracker :=
  spt.request pin typ .queued now (enqueueStart pin typ)

/-- Meta pins are ignored, and a pin for other peers is unpinned. -/
def track (pin : Pin) (now : Time) : Tracker :=
  if pin.type = PinType.metaType then spt
  else if pin.isRemotePin spt.peerID then spt.request pin .remote .inProgress now .remoteReadPin
  else spt.enqueue pin .pin now

def untrack (c : Cid) (now : Time) : Tracker := spt.enqueue (pinCid c now) .unpin now

/-- Restart a failed operation, by the status that was found and the pin in the state, if any. -/
def recoverWithPinInfo (c : Cid) (status : TrackerStatus) (found : Option Pin) (now : Time) : Tracker :=
  if status = TrackerStatus.pinError ∨ status = TrackerStatus.unexpectedlyUnpinned then
    match found with
    | none => spt
    | some pin => spt.enqueue { pin with cid := c } .pin now
  else if status = TrackerStatus.unpinError then spt.enqueue (pinCid c now) .unpin now
  else spt

end Tracker

/-- What can happen next. The status and the pin that `Recover` has read may be outdated. -/
inductive Event where
  | track (pin : Pin) (now : Time)
  | untrack (c : Cid) (now : Time)
  | recover (c : Cid) (status : TrackerStatus) (found : Option Pin) (now : Time)
  | enqueue (pin : Pin) (typ : OperationType) (now : Time)
  | shutdown
  | run (g : ℕ) (input : Input)

def stateless : Machine.LabeledMachine Tracker Event where
  step spt
    | .track pin now => some (spt.track pin now)
    | .untrack c now => some (spt.untrack c now)
    | .recover c status found now => some (spt.recoverWithPinInfo c status found now)
    | .enqueue pin typ now => some (spt.enqueue pin typ now)
    | .shutdown => some { spt with done := true }
    | .run g input => (spt.goroutines[g]?).bind fun pc => (spt.pcStep input pc).map (spt.commit g)

end IpfsCluster.Model.PinTracker
