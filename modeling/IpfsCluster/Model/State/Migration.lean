import IpfsCluster.Golang.Chan
import IpfsCluster.Golang.Number
import IpfsCluster.Machine.Run
import IpfsCluster.Model.Api.Types

/-! # Migration from another state

A reader lists the pins of the source into a channel, workers collect them into batches and write those, a waiter closes
the channel of errors when all workers are done, and the caller collects the errors. A batch is one step of its worker,
since its counters are only added to; retries of an addition are one outcome. A panic in a goroutine ends the program. A
validation may follow, in which the caller checks the pins in a sample, which depends on the number of pins that the
migration has processed.

In the validation of its own, workers compare the pins that a reader lists with those of the destination and record
issues, up to a limit. A pin counts as invalid if it is missing, cannot be read, or a check of its data returns an
error; some checks record an issue without an error. Details and times of issues and progress reports are left out.
-/

namespace IpfsCluster.Model.Scyllastate

open Api Golang Machine

structure MigratorConfig where
  batchSize : ℕ
  workerCount : ℕ
  validationEnabled : Bool
  continueOnError : Bool
  dryRun : Bool

structure MigrationMetrics where
  processedPins : ℕ := 0
  successfulPins : ℕ := 0
  failedPins : ℕ := 0
deriving DecidableEq, Repr

/-- The state that is migrated: its pins, whether its list closes the channel, and how the list ends. -/
structure MigrationSource where
  pins : List Pin
  closes : Bool
  listErr : Option String := none

/-- A step of the goroutine that lists the source, in a migration and in a validation: the list, then its error, then
the deferred close. It is the reader after the step, the channel of errors, and whether it panics. -/
def MigrationSource.read (source : MigrationSource) (reader : Feeder Pin) (errors : Chan String) :
    Option (Feeder Pin × Chan String × Bool) :=
  match reader.stage with
  | .sending _ => (reader.list source.closes).map fun reader => (reader, errors, false)
  | .ended =>
    match source.listErr with
    | none => some ({ reader with stage := .finished }, errors, false)
    | some err =>
      -- a send on a closed channel panics
      if errors.closed then some (reader, errors, true)
      else (errors.trySend ("source listing failed: " ++ err)).map fun sent =>
        ({ reader with stage := .finished }, sent, false)
  | .finished => some (reader.close, errors, reader.close.stage = .panicked)
  | .done | .panicked => none

/-- Which additions of a batch fail after all retries, by the number of additions before, and whether it fails to
commit. -/
structure BatchFaults where
  add : ℕ → Option String := fun _ => none
  commit : Option String := none

/-- The failures of every batch, by the number of batches that were written before. -/
abbrev MigrationFaults := ℕ → BatchFaults

/-- A worker collects a batch, has to send an error and then goes on or stops, or is done. -/
inductive Worker where
  | collecting (batch : List Pin)
  | reporting (err : String) (continues : Bool)
  | done
deriving DecidableEq

/-- The caller collects errors until their channel is closed, or returns at the first one; then it may validate what
another reader lists. -/
inductive CallerStage where
  | collecting
  | validating (reader : Feeder Pin)
  | returned (success : Bool)

structure Migration where
  reader : Feeder Pin
  workers : List Worker
  errorChan : Chan String
  metrics : MigrationMetrics := {}
  /-- The pins of committed batches and the number of batches written, which no function of the source reads. -/
  committed : List Pin := []
  batches : ℕ := 0
  errors : List String := []
  collector : CallerStage := .collecting
  panicked : Bool := false

inductive MigrationEvent where
  | read
  | work (worker : ℕ)
  | wait
  | collect
  | validationRead
deriving DecidableEq, Repr

section

variable (config : MigratorConfig) (source : MigrationSource) (faults : MigrationFaults)

/-- The additions of a batch: which succeed and how many fail, and the error that ends them. -/
def addPins (faults : BatchFaults) : List Pin → List Pin → ℕ → List Pin × ℕ × Option String
  | [], added, failed => (added, failed, none)
  | pin :: rest, added, failed =>
    match faults.add (added.length + failed) with
    | none => addPins faults rest (added ++ [pin]) failed
    | some err =>
      if config.continueOnError then addPins faults rest added (failed + 1) else (added, failed + 1, some err)

def processBatch (m : Migration) (batch : List Pin) : Option String × Migration :=
  if config.dryRun then
    (none, { m with metrics := { m.metrics with
      processedPins := m.metrics.processedPins + batch.length
      successfulPins := m.metrics.successfulPins + batch.length } })
  else
    let faults := faults m.batches
    let (added, failed, stopped) := addPins config faults batch [] 0
    let metrics := { m.metrics with failedPins := m.metrics.failedPins + failed }
    let m := { m with batches := m.batches + 1 }
    match stopped with
    | some err => (some err, { m with metrics := metrics })
    | none =>
      match faults.commit with
      | some err =>
        (some ("failed to commit batch: " ++ err),
          { m with metrics := { metrics with failedPins := metrics.failedPins + added.length } })
      | none =>
        (none, { m with
          committed := m.committed ++ added
          metrics := { metrics with
            processedPins := metrics.processedPins + batch.length
            successfulPins := metrics.successfulPins + added.length } })

def finishBatch (m : Migration) (worker : ℕ) (context : String) (batch : List Pin) (next : Worker)
    (continues : Bool) : Migration :=
  match processBatch config faults m batch with
  | (none, m) => { m with workers := m.workers.set worker next }
  | (some err, m) => { m with
      workers := m.workers.set worker (.reporting ("worker " ++ worker.repr ++ context ++ err) continues) }

def Migration.read (m : Migration) : Option Migration :=
  (source.read m.reader m.errorChan).map fun (reader, errorChan, panicked) =>
    { m with reader := reader, errorChan := errorChan, panicked := panicked }

def Migration.work (m : Migration) (worker : ℕ) : Option Migration :=
  match m.workers[worker]? with
  | some (.collecting batch) =>
    match m.reader.ch.tryReceive with
    | none => none
    | some (some pin, ch) =>
      let m := { m with reader := { m.reader with ch := ch } }
      let batch := batch ++ [pin]
      if config.batchSize ≤ batch.length then
        some (finishBatch config faults m worker " batch processing failed: " batch (.collecting [])
          config.continueOnError)
      else some { m with workers := m.workers.set worker (.collecting batch) }
    | some (none, _) =>
      if batch = [] then some { m with workers := m.workers.set worker .done }
      else some (finishBatch config faults m worker " final batch processing failed: " batch .done false)
  | some (.reporting err continues) =>
    if m.errorChan.closed then some { m with panicked := true }
    else (m.errorChan.trySend err).map fun errorChan =>
      { m with errorChan := errorChan, workers := m.workers.set worker (if continues then .collecting [] else .done) }
  | _ => none

/-- The waiter closes the channel of errors once, when all workers are done. -/
def Migration.wait (m : Migration) : Option Migration :=
  if m.workers.all (· = .done) ∧ m.errorChan.closed = false then
    some { m with errorChan := m.errorChan.close }
  else none

def Migration.success (m : Migration) : Bool :=
  m.errors = [] ∨ config.continueOnError = true ∧ 0 < m.metrics.successfulPins

def Migration.collect (m : Migration) : Option Migration :=
  match m.collector with
  | .returned _ => none
  | .collecting =>
    match m.errorChan.tryReceive with
    | none => none
    | some (some err, errorChan) =>
      let m := { m with errorChan := errorChan, errors := m.errors ++ [err] }
      some (if config.continueOnError then m else { m with collector := .returned false })
    | some (none, _) =>
      some { m with collector :=
        if config.validationEnabled && !config.dryRun then .validating (.new config.batchSize source.pins)
        else .returned (m.success config) }
  | .validating reader =>
    match reader.ch.tryReceive with
    | none => none
    | some (some _, ch) => some { m with collector := .validating { reader with ch := ch } }
    | some (none, _) => some { m with collector := .returned (m.success config) }

/-- A step of the reader of the validation, whose error is only logged. -/
def Migration.validationRead (m : Migration) : Option Migration :=
  match m.collector with
  | .validating reader =>
    match reader.stage with
    | .sending _ => (reader.list source.closes).map fun reader => { m with collector := .validating reader }
    | .ended => some { m with collector := .validating { reader with stage := .finished } }
    | .finished =>
      let reader := reader.close
      some { m with collector := .validating reader, panicked := reader.stage = .panicked }
    | .done | .panicked => none
  | _ => none

def migrationMachine : LabeledMachine Migration MigrationEvent where
  step m event :=
    if m.panicked then none
    else match event with
      | .read => m.read source
      | .work worker => m.work config faults worker
      | .wait => m.wait
      | .collect => m.collect config source
      | .validationRead => m.validationRead source

def migrateFromState : Migration where
  reader := .new (config.batchSize * 2) source.pins
  workers := .replicate config.workerCount (.collecting [])
  errorChan := .make config.workerCount

end

structure ValidationConfig where
  sampleRate : ℚ
  workerCount : ℕ
  batchSize : ℕ
  checksumValidation : Bool
  metadataValidation : Bool
  timestampTolerance : ℤ
  maxIssues : ℕ
  failFast : Bool

inductive ValidationIssueType where
  | missing | mismatch | corrupted | metadata | checksum | timestamp
deriving DecidableEq, Repr

inductive ValidationSeverity where
  | critical | major | minor | warning
deriving DecidableEq, Repr

structure ValidationIssue where
  type : ValidationIssueType
  severity : ValidationSeverity
  cid : Cid
  description : String
deriving DecidableEq

structure Destination where
  has : Cid → Except String Bool
  get : Cid → Except String Pin

structure ChecksumTools where
  cidString : Cid → String
  formatTime : Time → String
  sum : String → String

/-- The difference of two instants, as far as a duration can hold it. -/
def durationBetween (t u : Time) : ℤ := max (-2 ^ 63) (min (2 ^ 63 - 1) (t.nanos - u.nanos))

def absDuration (d : ℤ) : ℤ := if d < 0 ∧ d ≠ -2 ^ 63 then -d else d

def ValidationConfig.tolerance (config : ValidationConfig) : ℤ := Int.bmod (config.timestampTolerance * 10 ^ 9) (2 ^ 64)

section

variable (config : ValidationConfig) (tools : ChecksumTools)

/-- Issues of the name and the expiry, which are minor. -/
def validatePinMetadata (sourcePin destPin : Pin) : List ValidationIssue :=
  (if sourcePin.name ≠ destPin.name then [⟨.metadata, .minor, sourcePin.cid, "Pin name mismatch"⟩] else []) ++
  (if (!sourcePin.expireAt.isZero || !destPin.expireAt.isZero) = true ∧
      config.tolerance < absDuration (durationBetween sourcePin.expireAt destPin.expireAt) then
    [⟨.timestamp, .minor, sourcePin.cid, "Expiration time mismatch"⟩] else [])

def validatePinTimestamp (sourcePin destPin : Pin) : List ValidationIssue :=
  if (!sourcePin.timestamp.isZero && !destPin.timestamp.isZero) = true ∧
      config.tolerance < absDuration (durationBetween sourcePin.timestamp destPin.timestamp) then
    [⟨.timestamp, .warning, sourcePin.cid, "Timestamp mismatch within tolerance"⟩] else []

def generatePinChecksum (pin : Pin) : String :=
  tools.sum (tools.cidString pin.cid ++ pin.type.toNat.repr ++ pin.replicationFactorMin.repr ++ pin.name ++
    if pin.expireAt.isZero then "" else tools.formatTime pin.expireAt)

/-- Compare the data of two pins: the issues, and whether a check returned an error. -/
def validatePinData (sourcePin destPin : Pin) : List ValidationIssue × Bool :=
  if sourcePin.cid ≠ destPin.cid then
    ([⟨.mismatch, .critical, sourcePin.cid, "CID mismatch between source and destination"⟩], true)
  else
    let issues :=
      (if sourcePin.type ≠ destPin.type then [⟨.mismatch, .major, sourcePin.cid, "Pin type mismatch"⟩] else []) ++
      (if sourcePin.replicationFactorMin ≠ destPin.replicationFactorMin then
        [⟨.mismatch, .minor, sourcePin.cid, "Replication factor mismatch"⟩] else []) ++
      (if config.metadataValidation then validatePinMetadata config sourcePin destPin else []) ++
      validatePinTimestamp config sourcePin destPin
    if config.checksumValidation = true ∧ generatePinChecksum tools sourcePin ≠ generatePinChecksum tools destPin then
      (issues ++ [⟨.checksum, .critical, sourcePin.cid, "Pin data checksum mismatch"⟩], true)
    else (issues, false)

/-- What validating a pin does: the error it returns, its issues, and whether the pin is valid. -/
inductive PinVerdict where
  | failed (err : String)
  | invalid (issues : List ValidationIssue)
  | valid (issues : List ValidationIssue)
deriving DecidableEq

def validatePin (dest : Destination) (sourcePin : Pin) : PinVerdict :=
  match dest.has sourcePin.cid with
  | .error err => .failed ("failed to check pin existence: " ++ err)
  | .ok false => .invalid [⟨.missing, .critical, sourcePin.cid, "Pin missing in destination"⟩]
  | .ok true =>
    match dest.get sourcePin.cid with
    | .error err =>
      .invalid [⟨.corrupted, .critical, sourcePin.cid, "Failed to retrieve pin from destination: " ++ err⟩]
    | .ok destPin =>
      match validatePinData config tools sourcePin destPin with
      | (issues, true) => .invalid issues
      | (issues, false) => .valid issues

/-- Whether a pin is in the sample, by the number of pins seen. -/
def shouldValidatePin (totalPins : ℕ) : Bool :=
  if 1 ≤ config.sampleRate then true
  else if config.sampleRate ≤ 0 then false
  else (totalPins : ℤ) % toInt64 (1 / config.sampleRate) = 0

end

/-- A worker receives pins, has to send an error, has to look at the number of issues, or is done. -/
inductive Checker where
  | receiving
  | reporting (err : String)
  | counting
  | done
deriving DecidableEq, Repr

structure Validation where
  reader : Feeder Pin
  checkers : List Checker
  errorChan : Chan String
  /-- The issues that are kept, up to the limit, and all that were found, as the statistics count them. -/
  results : List ValidationIssue := []
  found : List ValidationIssue := []
  totalPins : ℕ := 0
  validatedPins : ℕ := 0
  validPins : ℕ := 0
  invalidPins : ℕ := 0
  skippedPins : ℕ := 0
  errors : List String := []
  /-- Whether the caller has returned a report, and its success. -/
  report : Option Bool := none
  panicked : Bool := false

inductive ValidationEvent where
  | read
  | check (checker : ℕ)
  | wait
  | collect
deriving DecidableEq, Repr

section

variable (config : ValidationConfig) (tools : ChecksumTools) (source : MigrationSource) (dest : Destination)

/-- Record issues; those above the limit are only counted. -/
def Validation.addIssues (v : Validation) (issues : List ValidationIssue) : Validation :=
  { v with results := v.results ++ issues.take (config.maxIssues - v.results.length), found := v.found ++ issues }

def Validation.setChecker (v : Validation) (index : ℕ) (checker : Checker) : Validation :=
  { v with checkers := v.checkers.set index checker }

def Validation.checkPin (v : Validation) (index : ℕ) (pin : Pin) : Validation :=
  let v := { v with totalPins := v.totalPins + 1 }
  if shouldValidatePin config v.totalPins then
    match validatePin config tools dest pin with
    | .failed err => v.setChecker index (.reporting ("worker " ++ index.repr ++ " validation failed for pin " ++
        tools.cidString pin.cid ++ ": " ++ err))
    | .invalid issues => { v.addIssues config issues with invalidPins := v.invalidPins + 1 }.setChecker index .counting
    | .valid issues => { v.addIssues config issues with validPins := v.validPins + 1 }.setChecker index .counting
  else { v with skippedPins := v.skippedPins + 1 }

def Validation.read (v : Validation) : Option Validation :=
  (source.read v.reader v.errorChan).map fun (reader, errorChan, panicked) =>
    { v with reader := reader, errorChan := errorChan, panicked := panicked }

def Validation.check (v : Validation) (index : ℕ) : Option Validation :=
  match v.checkers[index]? with
  | some .receiving =>
    match v.reader.ch.tryReceive with
    | none => none
    | some (some pin, ch) =>
      some ({ v with reader := { v.reader with ch := ch } }.checkPin config tools dest index pin)
    | some (none, _) => some (v.setChecker index .done)
  | some (.reporting err) =>
    if v.errorChan.closed then some { v with panicked := true }
    else (v.errorChan.trySend err).map fun errorChan =>
      { v with errorChan := errorChan }.setChecker index (if config.failFast then .done else .counting)
  | some .counting =>
    some ({ v with validatedPins := v.validatedPins + 1 }.setChecker index
      (if config.maxIssues ≤ v.results.length then .done else .receiving))
  | _ => none

def Validation.wait (v : Validation) : Option Validation :=
  if v.checkers.all (· = .done) ∧ v.errorChan.closed = false then some { v with errorChan := v.errorChan.close }
  else none

def Validation.collect (v : Validation) : Option Validation :=
  match v.report with
  | some _ => none
  | none =>
    match v.errorChan.tryReceive with
    | none => none
    | some (some err, errorChan) =>
      let v := { v with errorChan := errorChan, errors := v.errors ++ [err] }
      some (if config.failFast then { v with report := some false } else v)
    | some (none, _) => some { v with report := some (v.errors = [] ∧ v.invalidPins = 0) }

def validationMachine : LabeledMachine Validation ValidationEvent where
  step v event :=
    if v.panicked then none
    else match event with
      | .read => v.read source
      | .check index => v.check config tools dest index
      | .wait => v.wait
      | .collect => v.collect config

def validateMigration : Validation where
  reader := .new (config.batchSize * 2) source.pins
  checkers := .replicate config.workerCount .receiving
  errorChan := .make config.workerCount

end

structure ValidationSummary where
  totalValidated : ℕ := 0
  validationPassed : ℕ := 0
  validationFailed : ℕ := 0
  failureReasons : List String := []

/-- Whether the essential fields of two pins are equal, the expirations up to a second. -/
def pinsEqual (pin1 pin2 : Pin) : Bool :=
  pin1.cid = pin2.cid && pin1.type = pin2.type && pin1.replicationFactorMin = pin2.replicationFactorMin &&
    pin1.replicationFactorMax = pin2.replicationFactorMax && pin1.name = pin2.name &&
    (pin1.expireAt.isZero && pin2.expireAt.isZero || absDuration (durationBetween pin1.expireAt pin2.expireAt) ≤ 10 ^ 9)

section

variable (validationSampleRate : ℚ) (cidString : Cid → String) (dest : Destination)

def failureReason (pin : Pin) : Option String :=
  match dest.has pin.cid with
  | .error err => some ("Failed to check pin " ++ cidString pin.cid ++ ": " ++ err)
  | .ok false => some ("Pin " ++ cidString pin.cid ++ " missing in destination")
  | .ok true =>
    match dest.get pin.cid with
    | .error err => some ("Failed to get pin " ++ cidString pin.cid ++ " from destination: " ++ err)
    | .ok destPin => if pinsEqual pin destPin then none else some ("Pin " ++ cidString pin.cid ++ " data mismatch")

def ValidationSummary.check (summary : ValidationSummary) (pin : Pin) : ValidationSummary :=
  let summary := { summary with totalValidated := summary.totalValidated + 1 }
  match failureReason cidString dest pin with
  | none => { summary with validationPassed := summary.validationPassed + 1 }
  | some reason => { summary with
      validationFailed := summary.validationFailed + 1
      failureReasons := summary.failureReasons ++ [reason] }

def Migration.shouldValidatePin (m : Migration) : Bool :=
  if 1 ≤ validationSampleRate then true
  else if validationSampleRate ≤ 0 then false
  else (m.metrics.processedPins : ℤ) % toInt64 (1 / validationSampleRate) = 0

/-- The loop of `validateMigration` over the pins that its reader lists, when the workers are done. -/
def Migration.validateMigration (m : Migration) (pins : List Pin) : ValidationSummary :=
  pins.foldl (fun summary pin =>
    if m.shouldValidatePin validationSampleRate then summary.check cidString dest pin else summary) {}

end

end IpfsCluster.Model.Scyllastate
