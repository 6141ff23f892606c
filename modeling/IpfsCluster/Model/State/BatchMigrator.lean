import IpfsCluster.Model.Api.Types

/-! # Migration in batches

A goroutine puts the pins of a stream into batches and queues them. Workers add the pins of a batch to a batching state
and commit it; the migrator sums up their results. The errors of the additions and of the commit are inputs of a batch.
The pins that a commit writes are returned for comparison. A send to the queue waits for room, or finds the context done,
which is an input.
-/

namespace IpfsCluster.Model.Scyllastate.BatchMigration

open Api

/-- A batch with the errors of the additions, by their position, and of the commit. -/
structure PinBatch where
  id : ℤ := 0
  pins : List Pin
  addErr : ℕ → Option String := fun _ => none
  commitErr : Option String := none

/-- The state of the goroutine that makes batches, with the batches that it has queued and its counters. -/
structure BatchCreator where
  batchQueue : List PinBatch := []
  currentBatch : PinBatch := { pins := [] }
  totalPins : ℤ := 0
  totalBatches : ℤ := 0

section

variable (batchSize : ℕ) (done : ℕ → Bool)

/-- Queue the current batch, unless the context is done at this send. -/
def BatchCreator.send (c : BatchCreator) : Option BatchCreator :=
  if done c.batchQueue.length then none
  else some { c with batchQueue := c.batchQueue ++ [c.currentBatch], totalBatches := c.totalBatches + 1 }

/-- The loop over the pins; the error is the state in which the goroutine returns early. -/
def createLoop : List Pin → BatchCreator → Except BatchCreator BatchCreator
  | [], c => .ok c
  | pin :: rest, c =>
    let c := { c with
      currentBatch := { c.currentBatch with pins := c.currentBatch.pins ++ [pin] }
      totalPins := c.totalPins + 1 }
    if batchSize ≤ c.currentBatch.pins.length then
      match c.send done with
      | none => .error c
      | some c => createLoop rest { c with currentBatch := { id := c.currentBatch.id + 1, pins := [] } }
    else createLoop rest c

def createBatches (pins : List Pin) : BatchCreator :=
  match createLoop batchSize done pins {} with
  | .error c => c
  | .ok c => if 0 < c.currentBatch.pins.length then (c.send done).getD c else c

end

structure BatchResult where
  batchID : ℤ
  success : Bool := false
  processedPins : ℕ := 0
  failedPins : ℕ := 0
  error : Option String := none

structure Counts where
  processedCount : ℕ := 0
  failedCount : ℕ := 0
  added : List Pin := []

def addPins : (ℕ → Option String) → List Pin → Counts → Counts
  | _, [], counts => counts
  | addErr, pin :: rest, counts =>
    addPins (fun i => addErr (i + 1)) rest <|
      match addErr 0 with
      | some _ => { counts with failedCount := counts.failedCount + 1 }
      | none => { counts with processedCount := counts.processedCount + 1, added := counts.added ++ [pin] }

def processBatch (batch : PinBatch) : BatchResult × List Pin :=
  let counts := addPins batch.addErr batch.pins {}
  match batch.commitErr with
  | some err =>
    ({ batchID := batch.id, failedPins := batch.pins.length
       error := some ("failed to commit batch " ++ toString batch.id ++ ": " ++ err) }, [])
  | none =>
    ({ batchID := batch.id, success := counts.failedCount == 0, processedPins := counts.processedCount
       failedPins := counts.failedCount }, counts.added)

structure BatchMigrator where
  totalPins : ℤ := 0
  processedBatches : ℤ := 0
  processedPins : ℤ := 0
  errorCount : ℤ := 0

def handleBatchResult (bm : BatchMigrator) (result : BatchResult) : BatchMigrator :=
  { bm with
    processedBatches := bm.processedBatches + 1
    processedPins := bm.processedPins + result.processedPins
    errorCount := if result.success then bm.errorCount else bm.errorCount + 1 }

structure MigrationMetrics where
  totalPins : ℤ
  processedPins : ℤ
  successfulPins : ℤ
  failedPins : ℤ

structure MigrationResult where
  success : Bool
  metrics : MigrationMetrics

def buildFinalResult (bm : BatchMigrator) : MigrationResult where
  success := bm.errorCount == 0
  metrics :=
    { totalPins := bm.totalPins
      processedPins := bm.processedPins
      successfulPins := bm.processedPins - bm.errorCount
      failedPins := bm.errorCount }

def migrated (totalPins : ℤ) (batches : List PinBatch) : MigrationResult :=
  buildFinalResult ((batches.map fun batch => (processBatch batch).1).foldl handleBatchResult { totalPins })

end IpfsCluster.Model.Scyllastate.BatchMigration
