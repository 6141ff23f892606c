import IpfsCluster.Golang.Chan
import IpfsCluster.Golang.Timer
import IpfsCluster.Machine.Run
import IpfsCluster.Model.Api.Types

/-! # Batching in the CRDT consensus

`LogPin` and `LogUnpin` hand an item to one goroutine, which puts it on a channel and acknowledges it; a second
goroutine takes items off the channel, applies them to the batching state and commits when the batch is full or old.
Selects, channel operations, timer operations and calls to the batching state are one step each; a select may take any
case that is ready. The acknowledged items and the calls to the batching state are recorded as history.
-/

namespace IpfsCluster.Model.Crdt

open Api Golang

/-- The batching options, with batching enabled. -/
structure BatchingConfig where
  maxBatchSize : ℕ
  maxBatchAge : ℤ
  maxQueueSize : ℕ
  enabled : 0 < maxBatchSize ∧ 0 < maxBatchAge

/-- An item to batch. Its `batched` channel is the one of a caller, and nil in the zero value. -/
structure BatchItem where
  isPin : Bool := false
  pin : Pin := {}
  batched : Option ℕ := none
deriving DecidableEq

inductive StateCall where
  | add (pin : Pin)
  | rm (c : Cid)
deriving DecidableEq

def BatchItem.call (item : BatchItem) : StateCall := if item.isPin then .add item.pin else .rm item.pin.cid

inductive CallerPc where
  | sending
  | waiting
  -- the batched channel is closed, so that the receive yields nil
  | acknowledged
  | returned (err : Option String)
deriving DecidableEq, Repr

structure Caller where
  item : BatchItem
  pc : CallerPc

inductive SenderPc where
  | select
  | push (item : BatchItem)
  | ack (item : BatchItem)
  | full (item : BatchItem)
  | closing
  | rejecting
  | reject (item : BatchItem)
deriving DecidableEq

inductive WorkerPc where
  | newTimer
  | stopNew
  | receiveNew
  | select
  | gotItem (item : BatchItem)
  | addItem (item : BatchItem)
  | sizeCommit
  | stopTimer
  | receiveTick
  | ageCommit
  | drain
  | drainItem (item : BatchItem)
  | shutdownCommit
  | exited
deriving DecidableEq

structure Batching where
  config : BatchingConfig
  timerChan : TimerChan
  done : Bool := false
  callers : List Caller := []
  sender : SenderPc := .select
  batchItemCh : Chan BatchItem
  worker : WorkerPc := .newTimer
  batchCurSize : ℕ := 0
  batchTimer : Timer := {}
  acked : List BatchItem := []
  calls : List StateCall := []

/-- The case of the select of `sendToBatchWorker`, with the caller it receives from. -/
inductive SenderInput where
  | done
  | receive (k : ℕ)
  | proceed
deriving DecidableEq, Repr

/-- The case of the select of `batchWorker`. -/
inductive WorkerSelect where
  | done | item | tick
deriving DecidableEq, Repr

/-- What the environment decides in a step of `batchWorker`: the case of the select, the answer of the
batching state. -/
structure WorkerInput where
  select : WorkerSelect := .item
  answer : Except String Unit := .ok ()

namespace Batching

def new (config : BatchingConfig) (timerChan : TimerChan) : Batching where
  config := config
  timerChan := timerChan
  batchItemCh := .make config.maxQueueSize

def errMaxQueueSizeReached : String :=
  "error batching item: batching max_queue_size reached. Too many operations are waiting to be batched. " ++
    "Try increasing the max_queue_size or adjusting the batching options"

def errShuttingDown : String := "shutting down. Pin could not be batched"

variable (b : Batching)

def log (isPin : Bool) (pin : Pin) : Batching :=
  { b with
    callers := b.callers ++ [{ item := { isPin := isPin, pin := pin, batched := some b.callers.length }, pc := .sending }] }

def handOver (k : ℕ) (next : BatchItem → SenderPc) : Option Batching :=
  match b.callers[k]? with
  | some ⟨item, .sending⟩ => some { b with callers := b.callers.set k ⟨item, .waiting⟩, sender := next item }
  | _ => none

/-- Send on or close the `batched` channel of an item. -/
def answer (item : BatchItem) (pc : CallerPc) : List Caller :=
  match item.batched with
  | some k => b.callers.modify k fun caller => { caller with pc := pc }
  | none => b.callers

/-- A step of `sendToBatchWorker`. After the shutdown it stays to reject every item. -/
def sendToBatchWorker (input : SenderInput) : Option Batching :=
  match b.sender with
  | .select =>
    match input with
    | .done => if b.done then some { b with sender := .closing } else none
    | .receive k => b.handOver k .push
    | .proceed => none
  | .push item =>
    match b.batchItemCh.trySend item with
    | some filled => some { b with batchItemCh := filled, sender := .ack item }
    | none => some { b with sender := .full item }
  | .ack item =>
    some { b with callers := b.answer item .acknowledged, sender := .select, acked := b.acked ++ [item] }
  | .full item =>
    some { b with callers := b.answer item (.returned (some errMaxQueueSizeReached)), sender := .select }
  | .closing => some { b with batchItemCh := b.batchItemCh.close, sender := .rejecting }
  | .rejecting =>
    match input with
    | .receive k => b.handOver k .reject
    | .done | .proceed => none
  | .reject item =>
    some { b with callers := b.answer item (.returned (some errShuttingDown)), sender := .rejecting }

/-- A step of `batchWorker`. A receive from the closed and empty channel yields the zero item in the
select, and ends the range loop that drains the channel. The zero item has no context, and starting a
span without one panics in the batching state; here the worker goes on with any answer. -/
def batchWorker (input : WorkerInput) : Option Batching :=
  match b.worker with
  | .newTimer => some { b with batchTimer := .newTimer, worker := .stopNew }
  | .stopNew =>
    let (stopped, timer) := b.batchTimer.stop b.timerChan
    some { b with batchTimer := timer, worker := if stopped then .select else .receiveNew }
  | .receiveNew => b.batchTimer.receive.map fun timer => { b with batchTimer := timer, worker := .select }
  | .select =>
    match input.select with
    | .done => if b.done then some { b with worker := .drain } else none
    | .item =>
      b.batchItemCh.tryReceive.map fun (item, rest) =>
        { b with batchItemCh := rest, worker := .gotItem (item.getD {}) }
    | .tick => b.batchTimer.receive.map fun timer => { b with batchTimer := timer, worker := .ageCommit }
  | .gotItem item =>
    let timer := if b.batchCurSize = 0 then b.batchTimer.reset b.timerChan else b.batchTimer
    some { b with batchTimer := timer, worker := .addItem item }
  | .addItem item =>
    match input.answer with
    | .error _ => some { b with calls := b.calls ++ [item.call], worker := .select }
    | .ok () =>
      let size := b.batchCurSize + 1
      some { b with
        calls := b.calls ++ [item.call]
        batchCurSize := size
        worker := if size < b.config.maxBatchSize then .select else .sizeCommit }
  | .sizeCommit =>
    match input.answer with
    | .error _ => some { b with worker := .select }
    | .ok () => some { b with worker := .stopTimer }
  | .stopTimer =>
    let (stopped, timer) := b.batchTimer.stop b.timerChan
    if stopped then some { b with batchTimer := timer, batchCurSize := 0, worker := .select }
    else some { b with batchTimer := timer, worker := .receiveTick }
  | .receiveTick =>
    b.batchTimer.receive.map fun timer => { b with batchTimer := timer, batchCurSize := 0, worker := .select }
  | .ageCommit =>
    match input.answer with
    | .error _ => some { b with worker := .select }
    | .ok () => some { b with batchCurSize := 0, worker := .select }
  | .drain =>
    b.batchItemCh.tryReceive.map fun (item, rest) =>
      { b with batchItemCh := rest, worker := (item.map WorkerPc.drainItem).getD .shutdownCommit }
  | .drainItem item =>
    match input.answer with
    | .error _ => some { b with calls := b.calls ++ [item.call], worker := .drain }
    | .ok () => some { b with calls := b.calls ++ [item.call], batchCurSize := b.batchCurSize + 1, worker := .drain }
  | .shutdownCommit => some { b with worker := .exited }
  | .exited => none

/-- The caller whose `batched` channel is closed returns nil. -/
def resume (k : ℕ) : Option Batching :=
  match b.callers[k]? with
  | some ⟨item, .acknowledged⟩ => some { b with callers := b.callers.set k ⟨item, .returned none⟩ }
  | _ => none

end Batching

inductive BatchEvent where
  | logPin (pin : Pin)
  | logUnpin (pin : Pin)
  | resume (k : ℕ)
  | shutdown
  | sendToBatchWorker (input : SenderInput)
  | batchWorker (input : WorkerInput)
  | fire

def batching : Machine.LabeledMachine Batching BatchEvent where
  step b
    | .logPin pin => some (b.log true pin)
    | .logUnpin pin => some (b.log false pin)
    | .resume k => b.resume k
    | .shutdown => some { b with done := true }
    | .sendToBatchWorker input => b.sendToBatchWorker input
    | .batchWorker input => b.batchWorker input
    | .fire => b.batchTimer.fire.map fun timer => { b with batchTimer := timer }

end IpfsCluster.Model.Crdt
