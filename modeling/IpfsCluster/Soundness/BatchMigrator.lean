import IpfsCluster.Model.State.BatchMigrator

/-! # Soundness of a migration in batches

The batches that are queued are the stream of pins, cut into pieces. The migrator counts a failed batch as one pin, and
takes it from pins that it never counted. Its numbers are those of the pins as long as no batch fails.
-/

namespace IpfsCluster.Soundness

open Model.Api Model.Scyllastate.BatchMigration List

section

variable {batchSize : ℕ} {consumed : List Pin} {c : BatchCreator}

/-- The pins that were consumed are in full batches, in their order, or in the batch that is made. -/
structure Created (batchSize : ℕ) (consumed : List Pin) (c : BatchCreator) : Prop where
  full : ∀ batch ∈ c.batchQueue, batch.pins.length = batchSize
  ids : c.batchQueue.map PinBatch.id = (List.range c.batchQueue.length).map Int.ofNat
  next : c.currentBatch.id = c.batchQueue.length
  pins : c.batchQueue.flatMap PinBatch.pins ++ c.currentBatch.pins = consumed
  room : c.currentBatch.pins.length < batchSize
  totalPins : c.totalPins = consumed.length
  totalBatches : c.totalBatches = c.batchQueue.length

theorem ids_concat {batch : PinBatch} {queue : List PinBatch}
    (ids : queue.map PinBatch.id = (List.range queue.length).map Int.ofNat) (next : batch.id = queue.length) :
    (queue ++ [batch]).map PinBatch.id = (List.range (queue ++ [batch]).length).map Int.ofNat := by
  rw [map_append, ids, length_append, length_singleton, range_succ, map_append, map_singleton, map_singleton, next]
  rfl

theorem created_createLoop (created : Created batchSize consumed c) (pins : List Pin) :
    ∃ c', createLoop batchSize (fun _ => false) pins c = .ok c' ∧ Created batchSize (consumed ++ pins) c' := by
  induction pins generalizing c consumed with
  | nil => exact ⟨c, rfl, by rw [append_nil]; exact created⟩
  | cons pin rest ih =>
    rw [append_cons]
    have content : c.batchQueue.flatMap PinBatch.pins ++ (c.currentBatch.pins ++ [pin]) = consumed ++ [pin] := by
      rw [← append_assoc, created.pins]
    have counted : c.totalPins + 1 = ((consumed ++ [pin]).length : ℕ) := by
      rw [created.totalPins, length_append]
      rfl
    have room := created.room
    rw [createLoop]
    dsimp only
    split
    next reached =>
      rw [length_append, length_singleton] at reached
      refine ih ⟨?_, ids_concat created.ids created.next, ?_, ?_, Nat.zero_lt_of_lt room, counted, ?_⟩
      · intro batch member
        rcases mem_append.mp member with queued | last
        · exact created.full batch queued
        · rw [mem_singleton.mp last, length_append, length_singleton]
          omega
      · simp [created.next]
      · simpa using content
      · simp [created.totalBatches]
    next unfilled => exact ih { created with pins := content, room := not_le.mp unfilled, totalPins := counted }

/-- For every stream of pins and every batch size that is not zero, if the context is not done: the queued batches have
some pins, at most the batch size and exactly that but for the last one; they are numbered from zero; together they are
the stream; and the counters are the numbers of pins and of batches. -/
theorem createBatches_partition (some_size : 0 < batchSize) (pins : List Pin) :
    let c := createBatches batchSize (fun _ => false) pins
    (∀ batch ∈ c.batchQueue, batch.pins ≠ [] ∧ batch.pins.length ≤ batchSize) ∧
      (∀ batch ∈ c.batchQueue.dropLast, batch.pins.length = batchSize) ∧
      c.batchQueue.map PinBatch.id = (List.range c.batchQueue.length).map Int.ofNat ∧
      c.batchQueue.flatMap PinBatch.pins = pins ∧
      c.totalPins = pins.length ∧ c.totalBatches = c.batchQueue.length := by
  obtain ⟨c, ended, created⟩ := created_createLoop
    (show Created batchSize [] {} from ⟨nofun, rfl, rfl, rfl, some_size, rfl, rfl⟩) pins
  rw [nil_append] at created
  have nonempty (batch : PinBatch) (member : batch ∈ c.batchQueue) : batch.pins ≠ [] := by
    rw [← length_pos_iff, created.full batch member]
    exact some_size
  rw [createBatches, ended]
  dsimp only
  split
  next rest =>
    refine ⟨fun batch member => ?_, ?_, ids_concat created.ids created.next, ?_, created.totalPins, ?_⟩
    · rcases mem_append.mp member with queued | last
      · exact ⟨nonempty batch queued, (created.full batch queued).le⟩
      · rw [mem_singleton.mp last]
        exact ⟨length_pos_iff.mp rest, created.room.le⟩
    · change ∀ batch ∈ (c.batchQueue ++ [c.currentBatch]).dropLast, _
      rw [dropLast_concat]
      exact created.full
    · change (c.batchQueue ++ [c.currentBatch]).flatMap PinBatch.pins = pins
      rw [flatMap_append, flatMap_singleton]
      exact created.pins
    · simp [BatchCreator.send, created.totalBatches]
  next none =>
    have noRest : c.currentBatch.pins = [] := length_eq_zero_iff.mp (Nat.eq_zero_of_not_pos none)
    have content := created.pins
    rw [noRest, append_nil] at content
    exact ⟨fun batch member => ⟨nonempty batch member, (created.full batch member).le⟩,
      fun batch member => created.full batch (mem_of_mem_dropLast member), created.ids, content, created.totalPins,
      created.totalBatches⟩

theorem createBatches_partition_three :
    (createBatches 2 (fun _ => false) [{}, {}, {}]).batchQueue.map (fun batch => (batch.id, batch.pins.length)) =
        [(0, 2), (1, 1)] ∧
      (createBatches 2 (fun _ => false) [{}, {}, {}]).batchQueue.flatMap PinBatch.pins = [{}, {}, {}] :=
  ⟨rfl, (createBatches_partition Nat.two_pos [{}, {}, {}]).2.2.2.1⟩

end

/-- No addition of the batch fails, nor its commit. -/
def BatchClean (batch : PinBatch) : Prop :=
  (∀ i < batch.pins.length, batch.addErr i = none) ∧ batch.commitErr = none

def committedPins (batches : List PinBatch) : List Pin := batches.flatMap fun batch => (processBatch batch).2

structure AddedPins (addErr : ℕ → Option String) (pins : List Pin) (counts counts' : Counts) : Prop where
  added : counts'.added.length = counts'.processedCount
  total : counts'.processedCount + counts'.failedCount = counts.processedCount + counts.failedCount + pins.length
  grown : counts.failedCount ≤ counts'.failedCount
  clean : counts'.failedCount = counts.failedCount ↔ ∀ i < pins.length, addErr i = none

theorem addedPins_addPins (addErr : ℕ → Option String) (pins : List Pin) (counts : Counts)
    (added : counts.added.length = counts.processedCount) :
    AddedPins addErr pins counts (addPins addErr pins counts) := by
  induction pins generalizing addErr counts with
  | nil => exact ⟨added, rfl, le_rfl, by simp [addPins]⟩
  | cons pin rest ih =>
    rw [addPins]
    cases first : addErr 0 with
    | some err =>
      obtain ⟨added, total, grown, -⟩ :=
        ih (fun i => addErr (i + 1)) { counts with failedCount := counts.failedCount + 1 } added
      dsimp only at total grown ⊢
      refine ⟨added, by rw [total, length_cons]; omega, by omega, iff_of_false (by omega) fun clean => ?_⟩
      exact Option.some_ne_none err (first.symm.trans (clean 0 (Nat.succ_pos _)))
    | none =>
      obtain ⟨added, total, grown, clean⟩ := ih (fun i => addErr (i + 1))
        { counts with processedCount := counts.processedCount + 1, added := counts.added ++ [pin] } (by simp [added])
      dsimp only at total grown clean ⊢
      refine ⟨added, by rw [total, length_cons]; omega, grown, clean.trans ?_⟩
      rw [length_cons, Nat.forall_lt_succ_left]
      exact (and_iff_right first).symm

theorem processBatch_counts (batch : PinBatch) : (processBatch batch).2.length = (processBatch batch).1.processedPins ∧
    (processBatch batch).1.processedPins + (processBatch batch).1.failedPins = batch.pins.length ∧
    ((processBatch batch).1.success = true ↔ BatchClean batch) ∧
    ((processBatch batch).1.success = true → (processBatch batch).1.failedPins = 0) := by
  obtain ⟨added, total, -, clean⟩ := addedPins_addPins batch.addErr batch.pins {} rfl
  unfold processBatch BatchClean
  cases batch.commitErr with
  | some err => simp
  | none => exact ⟨added, by simpa using total, by simpa using clean, by simp⟩

theorem handled_counts (batches : List PinBatch) (bm : BatchMigrator) :
    ((batches.map fun batch => (processBatch batch).1).foldl handleBatchResult bm).processedPins =
      bm.processedPins + (committedPins batches).length ∧
    bm.errorCount ≤ ((batches.map fun batch => (processBatch batch).1).foldl handleBatchResult bm).errorCount ∧
    (((batches.map fun batch => (processBatch batch).1).foldl handleBatchResult bm).errorCount = bm.errorCount ↔
      ∀ batch ∈ batches, BatchClean batch) := by
  induction batches generalizing bm with
  | nil => simp [committedPins]
  | cons batch rest ih =>
    obtain ⟨committed, -, success, -⟩ := processBatch_counts batch
    obtain ⟨processed, grown, clean⟩ := ih (handleBatchResult bm (processBatch batch).1)
    rw [map_cons, foldl_cons, forall_mem_cons, ← success]
    refine ⟨?_, ?_⟩
    · rw [processed]
      simp [handleBatchResult, committedPins, committed, add_assoc]
    · by_cases succeeded : (processBatch batch).1.success = true
      · have same : (handleBatchResult bm (processBatch batch).1).errorCount = bm.errorCount := if_pos succeeded
        rw [same] at grown clean
        exact ⟨grown, clean.trans (and_iff_right succeeded).symm⟩
      · have more : (handleBatchResult bm (processBatch batch).1).errorCount = bm.errorCount + 1 := if_neg succeeded
        rw [more] at grown
        exact ⟨by omega, iff_of_false (by omega) fun clean => succeeded clean.1⟩

theorem committed_of_clean {batches : List PinBatch} (clean : ∀ batch ∈ batches, BatchClean batch) :
    (committedPins batches).length = (batches.map fun batch => batch.pins.length).sum ∧
    (batches.map fun batch => (processBatch batch).1.failedPins).sum = 0 := by
  induction batches with
  | nil => simp [committedPins]
  | cons batch rest ih =>
    obtain ⟨committed, total, success, none⟩ := processBatch_counts batch
    have noneFailed := none (success.mpr (clean batch (mem_cons_self ..)))
    obtain ⟨all, noneLater⟩ := ih fun batch member => clean batch (mem_cons_of_mem _ member)
    simp only [committedPins, flatMap_cons, length_append, map_cons, sum_cons] at all ⊢
    omega

/-- The final result counts the committed and the failed pins of its batches exactly when no batch failed. -/
theorem batchMigration_counts_iff (totalPins : ℤ) (batches : List PinBatch) :
    ((migrated totalPins batches).metrics.successfulPins = (committedPins batches).length ∧
      (migrated totalPins batches).metrics.failedPins =
        (batches.map fun batch => (processBatch batch).1.failedPins).sum ∧
      (migrated totalPins batches).metrics.successfulPins + (migrated totalPins batches).metrics.failedPins =
        (batches.map fun batch => batch.pins.length).sum) ↔ ∀ batch ∈ batches, BatchClean batch := by
  obtain ⟨processed, -, clean⟩ := handled_counts batches { totalPins }
  simp only [migrated, buildFinalResult, processed]
  rw [← clean]
  constructor
  · rintro ⟨successful, -⟩
    dsimp only at successful ⊢
    omega
  · intro none
    obtain ⟨all, noneFailed⟩ := committed_of_clean (clean.mp none)
    dsimp only at none ⊢
    rw [none, noneFailed, ← all]
    simp

def uncommitted : PinBatch := { pins := [{}, {}], commitErr := some "timeout" }

theorem batchMigration_counts_batches :
    (migrated 2 [uncommitted]).metrics.successfulPins = -1 ∧ (migrated 2 [uncommitted]).metrics.failedPins = 1 ∧
      (processBatch uncommitted).1.failedPins = 2 ∧ committedPins [uncommitted] = [] :=
  ⟨rfl, rfl, rfl, rfl⟩

end IpfsCluster.Soundness
