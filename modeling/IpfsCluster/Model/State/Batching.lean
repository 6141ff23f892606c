import IpfsCluster.Golang.Mutex
import IpfsCluster.Model.State.Scylla

/-! # Batches that commit themselves

A batching state collects statements and executes them together when it is committed; an auto-commit batcher commits it
when the batch is large or old enough. Both lock a mutex of their own in every method, and have one client here: a call
without outcome waits forever. The statements that the session executed are kept for comparison.
-/

namespace IpfsCluster.Model.Scyllastate.Batching

open Api Golang Machine

inductive Statement where
  | insertPin (key : PartitionedKey) (row : PinRow)
  | deletePin (key : PartitionedKey)
  | deletePlacement (key : PartitionedKey)

structure ScyllaBatchingState where
  batch : Option (List Statement)
  executed : List (List Statement) := []
  mu : Bool := false

def newBatching (closed : Bool) : Except Error ScyllaBatchingState :=
  if closed then .error (.text "ScyllaState is closed") else .ok { batch := some [] }

section

variable (codecs : TextCodecs)

/-- The row of a pin, which expires if it has a time after the zero one. -/
def batchRow (pin : Pin) (now : Time) : PinRow :=
  { toRow codecs pin now now with
    ttl := if Time.zero.nanos < pin.expireAt.nanos then some (unixMilli pin.expireAt) else none }

def addStatements (pin : Pin) (now : Time) : List Statement :=
  [.insertPin (cidToPartitionedKey pin.cid) (batchRow codecs pin now)]

def rmStatements (cid : Cid) : List Statement :=
  [.deletePin (cidToPartitionedKey cid), .deletePlacement (cidToPartitionedKey cid)]

end

namespace ScyllaBatchingState

def pending (bs : ScyllaBatchingState) : List Statement := bs.batch.getD []

def mutex : Mutex ScyllaBatchingState where
  locked bs := bs.mu
  set held bs := { bs with mu := held }
  locked_set _ _ := rfl

def append (statements : List Statement) : ScyllaBatchingState → Option (Option Error × ScyllaBatchingState) :=
  mutex.sync fun bs =>
    match bs.batch with
    | none => some (some (.text "batch is not initialized"), bs)
    | some entries => some (none, { bs with batch := some (entries ++ statements) })

def add (codecs : TextCodecs) (pin : Pin) (now : Time) := append (addStatements codecs pin now)

def rm (cid : Cid) := append (rmStatements cid)

/-- Execute the batch and start a new one; a batch that fails stays. -/
def commit (fault : Option String) : ScyllaBatchingState → Option (Option Error × ScyllaBatchingState) :=
  mutex.sync fun bs =>
    match bs.batch with
    | none => some (some (.text "batch is not initialized"), bs)
    | some entries =>
      if entries = [] then some (none, bs)
      else match fault with
        | some err => some (some (.text ("failed to commit batch: " ++ err)), bs)
        | none => some (none, { bs with batch := some [], executed := bs.executed ++ [entries] })

def batchSize : ScyllaBatchingState → Option (ℕ × ScyllaBatchingState) :=
  mutex.sync fun bs => some (bs.pending.length, bs)

def clear : ScyllaBatchingState → Option (Option Error × ScyllaBatchingState) :=
  mutex.sync fun bs => some (none, { bs with batch := bs.batch.map fun _ => [] })

/-- Commit what is pending and drop the batch. An error of the commit is only logged. -/
def close (fault : Option String) : ScyllaBatchingState → Option (Option Error × ScyllaBatchingState) :=
  mutex.sync fun bs =>
    if bs.pending = [] then some (none, { bs with batch := none })
    else (bs.commit fault).map fun outcome => (none, { outcome.2 with batch := none })

end ScyllaBatchingState

structure AutoCommitBatcher where
  base : ScyllaBatchingState
  maxBatchSize : ℤ
  maxBatchTime : ℤ
  lastCommit : Time
  mu : Bool := false

def newAutoCommitBatcher (closed : Bool) (maxBatchSize maxBatchTime : ℤ) (now : Time) :
    Except Error AutoCommitBatcher :=
  match newBatching closed with
  | .error err => .error err
  | .ok base => .ok { base, maxBatchSize, maxBatchTime, lastCommit := now }

/-- What a call reads from the clock and gets from the database: when the statement is made, when the age of the
batch is checked, when the commit is over, and the error of the commit. -/
structure Moment where
  made : Time
  checked : Time
  committed : Time
  fault : Option String := none

namespace AutoCommitBatcher

def mutex : Mutex AutoCommitBatcher where
  locked acb := acb.mu
  set held acb := { acb with mu := held }
  locked_set _ _ := rfl

/-- A call of the batching state inside. -/
def onBase {α : Type} (call : ScyllaBatchingState → Option (α × ScyllaBatchingState)) (acb : AutoCommitBatcher) :
    Option (α × AutoCommitBatcher) :=
  (call acb.base).map fun outcome => (outcome.1, { acb with base := outcome.2 })

/-- Commit, and remember when if there was no error. -/
def commitBase (moment : Moment) (acb : AutoCommitBatcher) : Option (Option Error × AutoCommitBatcher) :=
  (acb.onBase (·.commit moment.fault)).map fun outcome =>
    if outcome.1 = none then (none, { outcome.2 with lastCommit := moment.committed }) else outcome

/-- Commit a batch that is not empty if it is too large or the last commit was too long ago. -/
def checkAutoCommit (moment : Moment) (acb : AutoCommitBatcher) : Option (Option Error × AutoCommitBatcher) :=
  (acb.onBase (·.batchSize)).bind fun (batchSize, acb) =>
    let timeSinceLastCommit := moment.checked.nanos - acb.lastCommit.nanos
    if (acb.maxBatchSize ≤ batchSize ∨ acb.maxBatchTime ≤ timeSinceLastCommit) ∧ 0 < batchSize then
      acb.commitBase moment
    else some (none, acb)

/-- Make a call of the batching state and check whether to commit. -/
def batched (call : ScyllaBatchingState → Option (Option Error × ScyllaBatchingState)) (moment : Moment) :
    AutoCommitBatcher → Option (Option Error × AutoCommitBatcher) :=
  mutex.sync fun acb =>
    (acb.onBase call).bind fun (err, acb) =>
      if err = none then acb.checkAutoCommit moment else some (err, acb)

def add (codecs : TextCodecs) (pin : Pin) (moment : Moment) := batched (·.add codecs pin moment.made) moment

def rm (cid : Cid) (moment : Moment) := batched (·.rm cid) moment

def forceCommit (moment : Moment) : AutoCommitBatcher → Option (Option Error × AutoCommitBatcher) :=
  mutex.sync fun acb => acb.commitBase moment

def close (fault : Option String) : AutoCommitBatcher → Option (Option Error × AutoCommitBatcher) :=
  mutex.sync fun acb => acb.onBase (·.close fault)

end AutoCommitBatcher

section

variable (codecs : TextCodecs)

inductive BatchingCall where
  | add (pin : Pin) (now : Time)
  | rm (cid : Cid)
  | commit (fault : Option String)
  | batchSize
  | clear
  | close (fault : Option String)

def BatchingCall.perform (bs : ScyllaBatchingState) : BatchingCall → Option (Option Error × ScyllaBatchingState)
  | .add pin now => bs.add codecs pin now
  | .rm cid => bs.rm cid
  | .commit fault => bs.commit fault
  | .batchSize => bs.batchSize.map fun outcome => (none, outcome.2)
  | .clear => bs.clear
  | .close fault => bs.close fault

inductive WriteCall where
  | add (pin : Pin) (moment : Moment)
  | rm (cid : Cid) (moment : Moment)
  | forceCommit (moment : Moment)

def WriteCall.perform (acb : AutoCommitBatcher) : WriteCall → Option (Option Error × AutoCommitBatcher)
  | .add pin moment => acb.add codecs pin moment
  | .rm cid moment => acb.rm cid moment
  | .forceCommit moment => acb.forceCommit moment

def WriteCall.statements : WriteCall → List Statement
  | .add pin moment => addStatements codecs pin moment.made
  | .rm cid _ => rmStatements cid
  | .forceCommit _ => []

inductive BatcherCall where
  | write (call : WriteCall)
  | base (call : BatchingCall)
  | close (fault : Option String)

def BatcherCall.perform (acb : AutoCommitBatcher) : BatcherCall → Option (Option Error × AutoCommitBatcher)
  | .write call => call.perform codecs acb
  | .base call => acb.onBase (call.perform codecs ·)
  | .close fault => acb.close fault

def batchingMachine : LabeledMachine ScyllaBatchingState BatchingCall where
  step bs call := (call.perform codecs bs).map Prod.snd

def writeMachine : LabeledMachine AutoCommitBatcher WriteCall where
  step acb call := (call.perform codecs acb).map Prod.snd

def batcherMachine : LabeledMachine AutoCommitBatcher BatcherCall where
  step acb call := (call.perform codecs acb).map Prod.snd

end

end IpfsCluster.Model.Scyllastate.Batching
