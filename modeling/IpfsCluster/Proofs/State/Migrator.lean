import IpfsCluster.Model.State.Migration

/-! # Runs of a migration

What a step of a reader can do, for the migration and for the validation. In a migration from a source whose list
closes the channel, the first worker can take every pin as soon as it is listed. Then a batch fails and the caller
returns before its pins count as processed, or the list ends and the reader closes the channel again.
-/

namespace IpfsCluster.Proofs.State

open Model Model.Api Model.Scyllastate Golang Machine List Option LabeledMachine

variable {config : MigratorConfig} {source : MigrationSource} {faults : MigrationFaults} {m : Migration}

/-- What a step of a reader does to itself and to the channel of errors, and whether it panics. -/
inductive ReaderMove (source : MigrationSource) : Feeder Pin → Chan String → Feeder Pin → Chan String → Bool → Prop
  | send {item rest ch sent errors} (wasOpen : ch.closed = false)
      (isOpen : sent.closed = false) (buffer : sent.buffer = ch.buffer ++ [item]) (capacity : sent.capacity = ch.capacity) :
      ReaderMove source ⟨.sending (item :: rest), ch⟩ errors ⟨.sending rest, sent⟩ errors false
  | finish {ch errors} :
      ReaderMove source ⟨.sending [], ch⟩ errors ⟨.ended, if source.closes then ch.close else ch⟩ errors false
  | pass {ch errors} : ReaderMove source ⟨.ended, ch⟩ errors ⟨.finished, ch⟩ errors false
  | report {err ch errors sent} (wasOpen : errors.closed = false)
      (isOpen : sent.closed = false) (buffer : sent.buffer = errors.buffer ++ [err])
      (capacity : sent.capacity = errors.capacity) : ReaderMove source ⟨.ended, ch⟩ errors ⟨.finished, ch⟩ sent false
  | crash {ch errors} (failed : source.listErr ≠ none) (closed : errors.closed = true) :
      ReaderMove source ⟨.ended, ch⟩ errors ⟨.ended, ch⟩ errors true
  | close {ch errors} (isOpen : ch.closed = false) :
      ReaderMove source ⟨.finished, ch⟩ errors ⟨.done, ch.close⟩ errors false
  | closeAgain {ch errors} (closed : ch.closed = true) :
      ReaderMove source ⟨.finished, ch⟩ errors ⟨.panicked, ch⟩ errors true

theorem readerMove_of_read {reader reader' : Feeder Pin} {errors errors' : Chan String} {panicked : Bool}
    (step : source.read reader errors = some (reader', errors', panicked)) :
    ReaderMove source reader errors reader' errors' panicked := by
  obtain ⟨stage, ch⟩ := reader
  cases stage with
  | sending rest =>
    cases rest with
    | nil =>
      cases step
      exact .finish
    | cons item rest =>
      obtain ⟨after, listed, same⟩ := map_eq_some_iff.mp step
      obtain ⟨sent, trySend, rfl⟩ := map_eq_some_iff.mp listed
      cases same
      obtain ⟨buffer, isOpen, capacity⟩ := Chan.trySend_eq_some trySend
      exact .send (Chan.trySend_isSome_iff.mp (by rw [trySend]; rfl)).2 isOpen buffer capacity
  | ended =>
    unfold MigrationSource.read at step
    dsimp only at step
    split at step
    · cases step
      exact .pass
    next err failed =>
      split at step
      next closed =>
        cases step
        exact .crash (by rw [failed]; exact some_ne_none _) closed
      · obtain ⟨sent, trySend, same⟩ := map_eq_some_iff.mp step
        cases same
        obtain ⟨buffer, isOpen, capacity⟩ := Chan.trySend_eq_some trySend
        exact .report (Chan.trySend_isSome_iff.mp (by rw [trySend]; rfl)).2 isOpen buffer capacity
  | finished =>
    unfold MigrationSource.read at step
    dsimp only at step
    cases closed : ch.closed with
    | true =>
      rw [Feeder.close_of_closed closed] at step
      cases step
      exact .closeAgain closed
    | false =>
      rw [Feeder.close_of_open closed] at step
      cases step
      exact .close closed
  | done => cases step
  | panicked => cases step

namespace ReaderMove

variable {reader reader' : Feeder Pin} {errors errors' : Chan String} {panicked : Bool}
  (move : ReaderMove source reader errors reader' errors' panicked)

include move

theorem alive (closesOpen : reader.stage = .finished → reader.ch.closed = false)
    (sendsOpen : reader.stage = .ended → source.listErr ≠ none → errors.closed = false) : panicked = false := by
  cases move with
  | crash failed closed => cases (sendsOpen rfl failed).symm.trans closed
  | closeAgain closed => cases (closesOpen rfl).symm.trans closed
  | _ => rfl

theorem kept {pin : Pin} (there : pin ∈ reader.ch.buffer ∨ pin ∈ reader.stage.unsent) :
    pin ∈ reader'.ch.buffer ∨ pin ∈ reader'.stage.unsent := by
  cases move with
  | send wasOpen isOpen buffer capacity =>
    dsimp only [FeederStage.unsent] at there ⊢
    rw [buffer]
    simp only [mem_cons, mem_append, not_mem_nil, or_false] at there ⊢
    tauto
  | finish => cases source.closes <;> exact there
  | _ => exact there

/-- A list that leaves the channel open leaves the closing to the last step of the reader. -/
theorem done_of_closed (leavesOpen : source.closes = false) (before : reader.ch.closed = true → reader.stage = .done)
    (isClosed : reader'.ch.closed = true) : reader'.stage = .done := by
  cases move with
  | send wasOpen isOpen => cases isOpen.symm.trans isClosed
  | finish =>
    rw [leavesOpen] at isClosed
    cases before isClosed
  | close => rfl
  | _ => cases before isClosed

theorem closed (isClosed : reader.ch.closed = true) : reader'.ch.closed = true := by
  cases move with
  | send wasOpen => cases wasOpen.symm.trans isClosed
  | finish => cases source.closes <;> first | exact isClosed | rfl
  | close => rfl
  | _ => exact isClosed

theorem drained (before : reader.ch.closed = true ∧ reader.ch.buffer = []) :
    reader'.ch.closed = true ∧ reader'.ch.buffer = [] := by
  obtain ⟨isClosed, isEmpty⟩ := before
  refine ⟨move.closed isClosed, ?_⟩
  cases move with
  | send wasOpen => cases wasOpen.symm.trans isClosed
  | finish => cases source.closes <;> exact isEmpty
  | _ => exact isEmpty

theorem errors_closed : errors'.closed = errors.closed := by
  cases move with
  | report wasOpen isOpen => exact isOpen.trans wasOpen.symm
  | _ => rfl

theorem errors_of_closed (isClosed : errors.closed = true) : errors' = errors := by
  cases move with
  | report wasOpen => cases wasOpen.symm.trans isClosed
  | _ => rfl

theorem errors_ne_nil (waiting : errors.buffer ≠ []) : errors'.buffer ≠ [] := by
  cases move with
  | report wasOpen isOpen buffer =>
    rw [buffer]
    exact append_ne_nil_of_left_ne_nil waiting _
  | _ => exact waiting

theorem capacity : reader'.ch.capacity = reader.ch.capacity ∧ errors'.capacity = errors.capacity := by
  cases move with
  | send wasOpen isOpen buffer capacity => exact ⟨capacity, rfl⟩
  | finish => cases source.closes <;> exact ⟨rfl, rfl⟩
  | report wasOpen isOpen buffer capacity => exact ⟨rfl, capacity⟩
  | _ => exact ⟨rfl, rfl⟩

theorem closed_of_done (isDone : reader'.stage = .done) : reader'.ch.closed = true := by
  cases move with
  | close => rfl
  | _ => cases isDone

theorem panicked_of_stage (isPanicked : reader'.stage = .panicked) : panicked = true := by
  cases move with
  | closeAgain => rfl
  | _ => cases isPanicked

end ReaderMove

variable {index : ℕ}

theorem mem_set_or_eq {α : Type} {items : List α} {old item : α} (found : items[index]? = some old) (replacement : α)
    (member : item ∈ items) : item ∈ items.set index replacement ∨ item = old := by
  obtain ⟨place, isItem⟩ := mem_iff_getElem?.mp member
  by_cases same : index = place
  · subst same
    exact .inr (mem_unique isItem found)
  · refine .inl (mem_iff_getElem?.mpr ⟨place, ?_⟩)
    rw [getElem?_set_ne same]
    exact isItem

section

variable {config : MigratorConfig} {faults : MigrationFaults} {m : Migration} {batch : List Pin}

/-- What a migration promises when it is over or has panicked. -/
def Migrated (config : MigratorConfig) (source : MigrationSource) (m : Migration) : Prop :=
  m.panicked = false ∧ ∀ success, m.collector = .returned success →
    (config.dryRun = false → success = true → m.errors = [] → ∀ pin ∈ source.pins, pin ∈ m.committed) ∧
      m.metrics.processedPins = m.metrics.successfulPins + m.metrics.failedPins

/-- Without an error every pin is added or counted as failed; an addition that ends a batch is counted. -/
theorem addPins_counts {failures : BatchFaults} {pins added added' : List Pin} {failed failed' : ℕ}
    {stopped : Option String} (ran : addPins config failures pins added failed = (added', failed', stopped)) :
    (stopped = none → added'.length + failed' = added.length + failed + pins.length) ∧ (stopped ≠ none → 0 < failed') := by
  induction pins generalizing added failed with
  | nil =>
    cases ran
    exact ⟨fun _ => rfl, fun absurd => (absurd rfl).elim⟩
  | cons pin rest ih =>
    rw [addPins] at ran
    rw [length_cons]
    split at ran
    · have counts := ih ran
      rw [length_append, length_singleton] at counts
      exact counts.imp_left fun all isNone => by have := all isNone; omega
    · split at ran
      · exact (ih ran).imp_left fun all isNone => by have := all isNone; omega
      · cases ran
        exact ⟨fun absurd => (some_ne_none _ absurd).elim, fun _ => failed.succ_pos⟩

/-- The counters never run ahead, and fall behind with every batch that fails. -/
theorem processBatch_counts (config : MigratorConfig) (faults : MigrationFaults) (m : Migration) (nonempty : batch ≠ [])
    (behind : m.metrics.processedPins ≤ m.metrics.successfulPins + m.metrics.failedPins) :
    ∃ err metrics committed batches, processBatch config faults m batch =
        (err, { m with metrics := metrics, committed := committed, batches := batches }) ∧
      metrics.processedPins ≤ metrics.successfulPins + metrics.failedPins ∧
      (err ≠ none → metrics.processedPins < metrics.successfulPins + metrics.failedPins) := by
  have size : 0 < batch.length := length_pos_of_ne_nil nonempty
  unfold processBatch
  split
  · refine ⟨none, _, m.committed, m.batches, rfl, ?_, fun absurd => (absurd rfl).elim⟩
    dsimp only
    omega
  · rcases ran : addPins config (faults m.batches) batch [] 0 with ⟨added, failed, stopped⟩
    obtain ⟨all, counts⟩ := addPins_counts ran
    dsimp only
    rw [ran]
    cases stopped with
    | some err =>
      have counted := counts (some_ne_none _)
      refine ⟨_, _, _, _, rfl, ?_, fun _ => ?_⟩ <;> dsimp only <;> omega
    | none =>
      have counted := all rfl
      rw [length_nil] at counted
      cases (faults m.batches).commit with
      | some err => refine ⟨_, _, _, _, rfl, ?_, fun _ => ?_⟩ <;> dsimp only <;> omega
      | none =>
        refine ⟨none, _, _, _, rfl, ?_, fun absurd => (absurd rfl).elim⟩
        dsimp only
        omega

/-- The first worker has taken all pins that were listed, and all its errors were collected. -/
structure Feeding (config : MigratorConfig) (rest : List Pin) (worker : Worker) (m : Migration) : Prop where
  alive : m.panicked = false
  reader : m.reader = .new (config.batchSize * 2) rest
  worker : m.workers[0]? = some worker
  errors : m.errorChan = .make config.workerCount
  collector : m.collector = .collecting
  behind : m.metrics.processedPins ≤ m.metrics.successfulPins + m.metrics.failedPins

variable {source : MigrationSource} {pin : Pin} {rest : List Pin} {worker : Worker} {err : String}

theorem feeding_start (someWorker : 0 < config.workerCount) :
    Feeding config source.pins (.collecting []) (migrateFromState config source) where
  alive := rfl
  reader := rfl
  worker := by rw [migrateFromState, getElem?_replicate, if_pos someWorker]
  errors := rfl
  collector := rfl
  behind := le_rfl

theorem step_read {reader : Feeder Pin} {errors : Chan String} {panicked : Bool} (alive : m.panicked = false)
    (read : source.read m.reader m.errorChan = some (reader, errors, panicked)) :
    (migrationMachine config source faults).step m .read =
      some { m with reader := reader, errorChan := errors, panicked := panicked } := by
  change (if m.panicked then none else m.read source) = _
  rw [alive, Migration.read, read]
  rfl

namespace Feeding

theorem set (feeding : Feeding config rest worker m) (next : Worker) :
    Feeding config rest next { m with workers := m.workers.set 0 next } := by
  have inRange : 0 < m.workers.length := (List.getElem?_eq_some_iff.mp feeding.worker).1
  exact { feeding with worker := getElem?_set_self inRange }

theorem finishBatch (feeding : Feeding config rest worker m) (nonempty : batch ≠ []) (context : String) :
    ∃ next, Feeding config rest next (Scyllastate.finishBatch config faults m 0 context batch (.collecting [])
        config.continueOnError) ∧ (next = .collecting [] ∨ ∃ err, next = .reporting err config.continueOnError ∧
        let metrics := (Scyllastate.finishBatch config faults m 0 context batch (.collecting [])
          config.continueOnError).metrics
        metrics.processedPins < metrics.successfulPins + metrics.failedPins) := by
  obtain ⟨err, metrics, committed, batches, processed, behind, failed⟩ :=
    processBatch_counts config faults m nonempty feeding.behind
  have kept : Feeding config rest worker
      { m with metrics := metrics, committed := committed, batches := batches } := { feeding with behind := behind }
  unfold Scyllastate.finishBatch
  rw [processed]
  cases err with
  | none => exact ⟨_, kept.set _, .inl rfl⟩
  | some err => exact ⟨_, kept.set _, .inr ⟨_, rfl, failed (some_ne_none _)⟩⟩

/-- The next pin is listed, and taken by the first worker. -/
theorem take (source : MigrationSource) (faults : MigrationFaults)
    (feeding : Feeding config (pin :: rest) (.collecting batch) m) (room : 0 < config.batchSize) :
    ∃ next worker, (migrationMachine config source faults).run m [.read, .work 0] = some next ∧
      Feeding config rest worker next ∧ ((∃ batch, worker = .collecting batch) ∨
        ∃ err, worker = .reporting err config.continueOnError ∧
          next.metrics.processedPins < next.metrics.successfulPins + next.metrics.failedPins) := by
  obtain ⟨sent, trySend, received, -⟩ := Chan.trySend_make (Nat.mul_pos room Nat.two_pos) pin
  have read : source.read m.reader m.errorChan = some (⟨.sending rest, sent⟩, m.errorChan, false) := by
    rw [feeding.reader]
    simp only [MigrationSource.read, Feeder.new, Feeder.list, trySend, Option.map_some]
  have taken : Feeding config rest (.collecting batch)
      { m with reader := .new (config.batchSize * 2) rest, panicked := false } := { feeding with alive := rfl, reader := rfl }
  have work : (migrationMachine config source faults).step
        { m with reader := ⟨.sending rest, sent⟩, panicked := false } (.work 0) =
      some (if config.batchSize ≤ (batch ++ [pin]).length then
        Scyllastate.finishBatch config faults { m with reader := .new (config.batchSize * 2) rest, panicked := false } 0
          " batch processing failed: " (batch ++ [pin]) (.collecting []) config.continueOnError
      else { m with
        reader := .new (config.batchSize * 2) rest, panicked := false
        workers := m.workers.set 0 (.collecting (batch ++ [pin])) }) := by
    rw [migrationMachine]
    simp only [Migration.work, feeding.worker, received, Bool.false_eq_true, if_false, ← apply_ite some]
    rfl
  have ran : (migrationMachine config source faults).run m [.read, .work 0] = some _ :=
    run_cons_eq_some.mpr
      ⟨_, step_read feeding.alive read, run_cons_eq_some.mpr ⟨_, work, rfl⟩⟩
  by_cases full : config.batchSize ≤ (batch ++ [pin]).length
  · rw [if_pos full] at ran
    obtain ⟨worker, kept, outcome⟩ := taken.finishBatch (append_ne_nil_of_right_ne_nil _ (cons_ne_nil pin []))
      " batch processing failed: "
    exact ⟨_, worker, ran, kept, outcome.imp_left fun isNext => ⟨[], isNext⟩⟩
  · rw [if_neg full] at ran
    exact ⟨_, _, ran, taken.set _, .inl ⟨_, rfl⟩⟩

/-- The error of a batch is collected, and the worker goes on or the caller returns. -/
theorem report (source : MigrationSource) (faults : MigrationFaults)
    (feeding : Feeding config rest (.reporting err config.continueOnError) m) (someWorker : 0 < config.workerCount)
    (behind : m.metrics.processedPins < m.metrics.successfulPins + m.metrics.failedPins) :
    ∃ next, (migrationMachine config source faults).run m [.work 0, .collect] = some next ∧
      (Feeding config rest (.collecting []) next ∨ ¬ Migrated config source next) := by
  obtain ⟨sent, trySend, received, -⟩ := Chan.trySend_make someWorker err
  have work : (migrationMachine config source faults).step m (.work 0) = some { m with
      errorChan := sent
      workers := m.workers.set 0 (if config.continueOnError then .collecting [] else .done) } := by
    rw [migrationMachine]
    simp only [feeding.alive, Migration.work, feeding.worker, feeding.errors, trySend]
    rfl
  have collect : (migrationMachine config source faults).step { m with
        errorChan := sent
        workers := m.workers.set 0 (if config.continueOnError then .collecting [] else .done) } .collect =
      some (if config.continueOnError then
        { m with
          errorChan := .make config.workerCount, errors := m.errors ++ [err], workers := m.workers.set 0 (.collecting []) }
      else { m with
        errorChan := .make config.workerCount, errors := m.errors ++ [err], workers := m.workers.set 0 .done
        collector := .returned false }) := by
    rw [migrationMachine]
    simp only [feeding.alive, Migration.collect, feeding.collector, received]
    cases config.continueOnError <;> rfl
  refine ⟨_, run_cons_eq_some.mpr ⟨_, work, run_cons_eq_some.mpr ⟨_, collect, rfl⟩⟩, ?_⟩
  by_cases goesOn : config.continueOnError = true
  · rw [if_pos goesOn]
    exact .inl { feeding.set (.collecting []) with errors := rfl }
  · rw [if_neg goesOn]
    exact .inr fun migrated => behind.ne (migrated.2 false rfl).2

/-- When the list has ended, it has closed the channel, and the reader closes it again. -/
theorem finish (feeding : Feeding config [] worker m) (someWorker : 0 < config.workerCount)
    (closes : source.closes = true) :
    ∃ next, (migrationMachine config source faults).run m [.read, .read, .read] = some next ∧ next.panicked = true := by
  have ended : source.read m.reader m.errorChan =
      some (⟨.ended, (Chan.make (config.batchSize * 2)).close⟩, m.errorChan, false) := by
    rw [feeding.reader]
    simp only [MigrationSource.read, Feeder.new, Feeder.list, closes, if_true, Option.map_some]
  have finished (ch : Chan Pin) :
      ∃ errors, source.read ⟨.ended, ch⟩ m.errorChan = some (⟨.finished, ch⟩, errors, false) := by
    cases listErr : source.listErr with
    | none => exact ⟨m.errorChan, by simp only [MigrationSource.read, listErr]⟩
    | some err =>
      obtain ⟨sent, trySend, -⟩ := Chan.trySend_make someWorker ("source listing failed: " ++ err)
      exact ⟨sent, by simp only [MigrationSource.read, listErr, feeding.errors, trySend]; rfl⟩
  obtain ⟨errors, finished⟩ := finished (Chan.make (config.batchSize * 2)).close
  exact ⟨_, run_cons_eq_some.mpr ⟨_, step_read feeding.alive ended, run_cons_eq_some.mpr ⟨_, step_read rfl finished,
      run_cons_eq_some.mpr ⟨_, step_read rfl rfl, rfl⟩⟩⟩, rfl⟩

/-- From every such state there is a run that breaks the promise. -/
theorem exists_not_migrated (feeding : Feeding config rest (.collecting batch) m) (someWorker : 0 < config.workerCount)
    (room : 0 < config.batchSize) (closes : source.closes = true) :
    ∃ events target, (migrationMachine config source faults).run m events = some target ∧
      ¬ Migrated config source target := by
  induction rest generalizing m batch with
  | nil =>
    obtain ⟨target, ran, panicked⟩ := feeding.finish someWorker closes
    exact ⟨_, target, ran, fun migrated => Bool.false_ne_true (migrated.1.symm.trans panicked)⟩
  | cons pin rest ih =>
    obtain ⟨next, worker, took, kept, ⟨batch, rfl⟩ | ⟨err, rfl, behind⟩⟩ := feeding.take source faults room
    · obtain ⟨events, target, ran, broken⟩ := ih kept
      exact ⟨_, target, run_trans took ran, broken⟩
    · obtain ⟨reported, ran, goesOn | broken⟩ := kept.report source faults someWorker behind
      · obtain ⟨events, target, later, broken⟩ := ih goesOn
        exact ⟨_, target, run_trans took (run_trans ran later), broken⟩
      · exact ⟨_, reported, run_trans took ran, broken⟩

end Feeding

end

end IpfsCluster.Proofs.State
