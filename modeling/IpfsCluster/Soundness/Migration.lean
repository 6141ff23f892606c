import IpfsCluster.Proofs.State.MigrationValidator

/-! # Soundness of migrations

A migration from a source whose list closes the channel is never sound: in some run the reader closes the channel
again, or a batch fails and the caller returns before its pins count as processed. In a validation, workers that stop at
the limit of issues leave pins unseen, and a different type is recorded without making the pin invalid.
-/

namespace IpfsCluster.Soundness

open Model Model.Api Model.Scyllastate Golang Machine Proofs.State

/-- For every pattern of failures, a source whose list closes the channel has a run that panics or returns with
counters that do not add up. -/
theorem migration_never_sound {config : MigratorConfig} {source : MigrationSource} (faults : MigrationFaults)
    (someWorker : 0 < config.workerCount) (room : 0 < config.batchSize) (closes : source.closes = true) :
    ¬ ∀ events target,
      (migrationMachine config source faults).run (migrateFromState config source) events = some target →
        Migrated config source target := by
  intro sound
  obtain ⟨events, target, ran, broken⟩ := (feeding_start someWorker).exists_not_migrated someWorker room closes
  exact broken (sound events target ran)

def oneByOne : MigratorConfig where
  batchSize := 1
  workerCount := 1
  validationEnabled := false
  continueOnError := false
  dryRun := false

def migratedPin : Pin := { cid := ⟨"A"⟩ }

def missingPin : Pin := { cid := ⟨"B"⟩ }

def closingSource (pins : List Pin) : MigrationSource where
  pins := pins
  closes := true

def noFaults : MigrationFaults := fun _ => {}

def noCommits : MigrationFaults := fun _ => { commit := some "timeout" }

theorem migration_panics : (∃ target, (migrationMachine oneByOne (closingSource []) noFaults).run
        (migrateFromState oneByOne (closingSource [])) [.read, .read, .read] = some target ∧ target.panicked = true) ∧
      ∃ target, (migrationMachine oneByOne (closingSource [migratedPin]) noCommits).run
          (migrateFromState oneByOne (closingSource [migratedPin])) [.read, .work 0, .work 0, .collect] = some target ∧
        target.collector = .returned false ∧
        target.metrics = { processedPins := 0, successfulPins := 0, failedPins := 1 } :=
  ⟨⟨_, rfl, rfl⟩, _, rfl, rfl, rfl⟩

theorem migration_never_sound_pair : (closingSource [migratedPin, missingPin]).closes = true ∧ ¬ ∀ events target,
      (migrationMachine oneByOne (closingSource [migratedPin, missingPin]) noFaults).run
          (migrateFromState oneByOne (closingSource [migratedPin, missingPin])) events = some target →
        Migrated oneByOne (closingSource [migratedPin, missingPin]) target :=
  ⟨rfl, migration_never_sound noFaults Nat.one_pos Nat.one_pos rfl⟩

/-- For a list that leaves the channel open, in a run in which no worker is at the limit of issues and a different type
is noticed by the checksum, nothing panics, the report comes after boundedly many steps, and success
means that every pin of the source is in the destination and that no critical or major issue was found. -/
theorem validation_sound {config : ValidationConfig} {tools : ChecksumTools} {source : MigrationSource}
    {dest : Destination} (full : 1 ≤ config.sampleRate) (someWorker : 0 < config.workerCount)
    (room : 0 < config.batchSize) (lists : ListsOpen config source) {events : List ValidationEvent} {target : Validation}
    (ran : (validationMachine config tools source dest).run (validateMigration config source) events = some target)
    (meets : (validationMachine config tools source dest).Meets (ValidatesFully config tools dest)
      (validateMigration config source) events) :
    target.panicked = false ∧ events.length ≤ validationRank (validateMigration config source) ∧
      (Quiet config tools source dest target → ∃ success, target.report = some success) ∧
      (target.report = some true → (∀ pin ∈ source.pins, dest.has pin.cid = .ok true) ∧
          ∀ issue ∈ target.found, issue.severity ≠ .critical ∧ issue.severity ≠ .major) := by
  have inv : ValidationInv config source dest target :=
    LabeledMachine.invariant_of_meets _ (fun _ _ _ kept guard step => validationInv_step kept full someWorker lists guard step)
      validationInv_start meets ran
  refine ⟨inv.alive, length_le_of_validation ran, reported_of_quiet inv room someWorker, fun success => ?_⟩
  obtain ⟨there, benign⟩ := inv.all_there someWorker success
  refine ⟨there, fun issue member => ?_⟩
  rcases benign issue member with minor | warning
  · rw [minor]
    exact ⟨nofun, nofun⟩
  · rw [warning]
    exact ⟨nofun, nofun⟩

def oneIssue : ValidationConfig where
  sampleRate := 1
  workerCount := 1
  batchSize := 1
  checksumValidation := false
  metadataValidation := false
  timestampTolerance := 5
  maxIssues := 1
  failFast := false

def plainTools : ChecksumTools where
  cidString c := c.bytes
  formatTime t := t.nanos.repr
  sum text := text

def holding (pin : Pin) : Destination where
  has c := .ok (c = pin.cid)
  get c := if c = pin.cid then .ok pin else .error "not found"

def retypedPin : Pin := { migratedPin with type := PinType.metaType }

theorem validation_panics :
    (∃ target, (validationMachine oneIssue plainTools (closingSource []) (holding migratedPin)).run
        (validateMigration oneIssue (closingSource [])) [.read, .read, .read] = some target ∧ target.panicked = true) ∧
      ∃ target, (validationMachine oneIssue plainTools (closingSource [migratedPin, missingPin])
            (holding retypedPin)).run (validateMigration oneIssue (closingSource [migratedPin, missingPin]))
          [.read, .check 0, .check 0, .wait, .collect] = some target ∧
        target.report = some true ∧ target.found.map ValidationIssue.severity = [.major] ∧
        (holding retypedPin).has missingPin.cid = .ok false :=
  ⟨⟨_, rfl, rfl⟩, _, rfl, rfl, rfl, rfl⟩

def openSource (pins : List Pin) : MigrationSource := { closingSource pins with closes := false }

def holdingAll : Destination := ⟨fun _ => .ok true, fun c => .ok { cid := c }⟩

def reportsBoth : List ValidationEvent :=
  [.read, .read, .check 0, .check 0, .check 0, .check 0, .read, .read, .read, .check 0, .wait, .collect]

theorem validation_sound_reportsBoth :
    ∃ target, (validationMachine oneIssue plainTools (openSource [migratedPin, missingPin]) holdingAll).run
        (validateMigration oneIssue (openSource [migratedPin, missingPin])) reportsBoth = some target ∧
      target.reader.stage = .done ∧ target.report = some true ∧ target.panicked = false ∧
      holdingAll.has missingPin.cid = .ok true := by
  refine ⟨_, rfl, rfl, rfl, ?_⟩
  have sound := validation_sound (show 1 ≤ oneIssue.sampleRate from le_rfl)
    (show 0 < oneIssue.workerCount from Nat.one_pos) (show 0 < oneIssue.batchSize from Nat.one_pos)
    (show ListsOpen oneIssue (openSource [migratedPin, missingPin]) from ⟨rfl, .inl rfl⟩)
    (show (validationMachine oneIssue plainTools (openSource [migratedPin, missingPin]) holdingAll).run _
      reportsBoth = some _ from rfl) (by decide)
  exact ⟨sound.1, (sound.2.2.2 rfl).1 missingPin (List.mem_cons_of_mem _ (List.mem_singleton_self _))⟩

section

variable {k : ℕ} {cidString : Cid → String} {dest : Destination}

theorem totalValidated_check (summary : ValidationSummary) (pin : Pin) :
    (summary.check cidString dest pin).totalValidated = summary.totalValidated + 1 := by
  unfold ValidationSummary.check
  dsimp only
  split <;> rfl

theorem totalValidated_validateMigration (rate : ℚ) (m : Migration) (pins : List Pin) :
    (m.validateMigration rate cidString dest pins).totalValidated =
      if m.shouldValidatePin rate then pins.length else 0 := by
  have total (summary : ValidationSummary) : (pins.foldl (fun summary pin =>
      if m.shouldValidatePin rate then summary.check cidString dest pin else summary) summary).totalValidated =
        summary.totalValidated + if m.shouldValidatePin rate then pins.length else 0 := by
    induction pins generalizing summary with
    | nil => simp
    | cons pin rest ih =>
      rw [List.foldl_cons, ih]
      split
      · rw [totalValidated_check, List.length_cons]
        omega
      · rfl
  exact (total {}).trans (Nat.zero_add _)

theorem shouldValidatePin_iff (some_k : 0 < k) (m : Migration) :
    m.shouldValidatePin (1 / k) = true ↔ k ∣ m.metrics.processedPins := by
  have positive : (0 : ℚ) < k := Nat.cast_pos.mpr some_k
  unfold Migration.shouldValidatePin
  split
  next all =>
    have one : k = 1 := by
      rw [le_div_iff₀ positive, one_mul] at all
      exact le_antisymm (by exact_mod_cast all) some_k
    rw [one]
    exact iff_of_true rfl (one_dvd _)
  · rw [if_neg (not_le.mpr (one_div_pos.mpr positive)), one_div_one_div, toInt64_of_nonneg positive.le,
      Int.floor_natCast, decide_eq_true_eq, ← Int.natCast_mod, Nat.dvd_iff_mod_eq_zero]
    exact_mod_cast Iff.rfl

/-- For every rate `1 / k`, whatever a migration has processed and whatever the source lists: the validation checks all
pins if `k` divides the number of processed pins, and none otherwise. So it never checks some pins and fewer than all. -/
theorem sample_all_or_none (some_k : 0 < k) (m : Migration) (pins : List Pin) :
    let summary := m.validateMigration (1 / k) cidString dest pins
    summary.totalValidated = (if k ∣ m.metrics.processedPins then pins.length else 0) ∧
      ¬ (1 ≤ summary.totalValidated ∧ summary.totalValidated < pins.length) := by
  have all : (m.validateMigration (1 / k) cidString dest pins).totalValidated =
      if k ∣ m.metrics.processedPins then pins.length else 0 := by
    simp only [totalValidated_validateMigration, shouldValidatePin_iff some_k]
  refine ⟨all, ?_⟩
  rw [all]
  split <;> omega

def processed (count : ℕ) : Migration :=
  { migrateFromState oneByOne (closingSource []) with metrics := { processedPins := count } }

def sameDestination : Destination := ⟨fun _ => .ok true, fun _ => .ok migratedPin⟩

theorem sample_none_of_three :
    ((processed 3).validateMigration (1 / 2) (·.bytes) sameDestination (.replicate 3 migratedPin)).totalValidated = 0 := by
  decide +kernel

theorem sample_all_of_two :
    ((processed 2).validateMigration (1 / (2 : ℕ)) (·.bytes) sameDestination [migratedPin, migratedPin]).totalValidated = 2 :=
  (sample_all_or_none Nat.two_pos (processed 2) [migratedPin, migratedPin]).1

end

end IpfsCluster.Soundness
