import IpfsCluster.Proofs.State.Migrator

/-! # Runs of a validation

A validation is bad once a pin is invalid or an error is on its way. As long as it is not, every pin of the source was
found in the destination, is in the channel, or is not yet listed, provided that no worker stops at the limit of issues
and that a different type is noticed by the checksum.
-/

namespace IpfsCluster.Proofs.State

open Model Model.Api Model.Scyllastate Golang Machine List Option Validation Chan

variable {config : ValidationConfig} {tools : ChecksumTools} {source : MigrationSource} {dest : Destination} {pin : Pin}

section

def Benign (issue : ValidationIssue) : Prop := issue.severity = .minor ∨ issue.severity = .warning

/-- A pin of another type in the destination is noticed by its checksum. -/
def TypeNoticed (config : ValidationConfig) (tools : ChecksumTools) (dest : Destination) (pin : Pin) : Prop :=
  ∀ destPin ∈ (dest.get pin.cid).toOption, pin.type ≠ destPin.type →
    config.checksumValidation = true ∧ generatePinChecksum tools pin ≠ generatePinChecksum tools destPin

instance decidableTypeNoticed (pin : Pin) : Decidable (TypeNoticed config tools dest pin) :=
  inferInstanceAs (Decidable (∀ destPin ∈ (dest.get pin.cid).toOption, _))

variable {issues : List ValidationIssue}

theorem benign_of_mem_ite {condition : Prop} [Decidable condition] (benign : ∀ issue ∈ issues, Benign issue) :
    ∀ issue ∈ (if condition then issues else []), Benign issue := by
  split
  · exact benign
  · exact nofun

theorem benign_validatePinMetadata (pin destPin : Pin) :
    ∀ issue ∈ validatePinMetadata config pin destPin, Benign issue :=
  forall_mem_append.mpr ⟨benign_of_mem_ite (forall_mem_singleton.mpr (.inl rfl)),
    benign_of_mem_ite (forall_mem_singleton.mpr (.inl rfl))⟩

theorem benign_validatePinData {destPin : Pin} (noticed : pin.type ≠ destPin.type →
      config.checksumValidation = true ∧ generatePinChecksum tools pin ≠ generatePinChecksum tools destPin)
    (passed : validatePinData config tools pin destPin = (issues, false)) : ∀ issue ∈ issues, Benign issue := by
  unfold validatePinData at passed
  split at passed
  · cases passed
  dsimp only at passed
  split at passed
  · cases passed
  next sameSum =>
    have sameType : pin.type = destPin.type := by
      by_contra different
      exact sameSum (noticed different)
    obtain rfl := (Prod.mk.inj passed).1
    rw [if_neg (not_not_intro sameType), nil_append, forall_mem_append, forall_mem_append]
    exact ⟨⟨benign_of_mem_ite (forall_mem_singleton.mpr (.inl rfl)),
      benign_of_mem_ite (benign_validatePinMetadata pin destPin)⟩,
      benign_of_mem_ite (forall_mem_singleton.mpr (.inr rfl))⟩

theorem validatePin_eq_valid (noticed : TypeNoticed config tools dest pin)
    (valid : validatePin config tools dest pin = .valid issues) :
    dest.has pin.cid = .ok true ∧ ∀ issue ∈ issues, Benign issue := by
  unfold validatePin at valid
  split at valid
  · cases valid
  · cases valid
  next exists' =>
    refine ⟨exists', ?_⟩
    split at valid
    · cases valid
    next destPin found =>
      split at valid
      · cases valid
      next checked passed =>
        obtain rfl := PinVerdict.valid.inj valid
        exact benign_validatePinData (noticed destPin (by rw [found]; rfl)) passed

end

variable {v next : Validation} {index : ℕ}

theorem readerMove_of_validationRead (step : v.read source = some next) :
    ∃ reader errorChan panicked, ReaderMove source v.reader v.errorChan reader errorChan panicked ∧
      next = { v with reader := reader, errorChan := errorChan, panicked := panicked } := by
  obtain ⟨⟨reader, errorChan, panicked⟩, moved, rfl⟩ := map_eq_some_iff.mp step
  exact ⟨reader, errorChan, panicked, readerMove_of_read moved, rfl⟩

inductive CheckerMove (config : ValidationConfig) (tools : ChecksumTools) (dest : Destination) (v : Validation)
    (index : ℕ) : Checker → Validation → Prop
  | receive {pin ch} (buffer : v.reader.ch.buffer = pin :: ch.buffer)
      (closed : ch.closed = v.reader.ch.closed) (capacity : ch.capacity = v.reader.ch.capacity) :
      CheckerMove config tools dest v index .receiving
        ({ v with reader := { v.reader with ch := ch } }.checkPin config tools dest index pin)
  | finish (isEmpty : v.reader.ch.buffer = []) (closed : v.reader.ch.closed = true) :
      CheckerMove config tools dest v index .receiving (v.setChecker index .done)
  | crash {err} (closed : v.errorChan.closed = true) :
      CheckerMove config tools dest v index (.reporting err) { v with panicked := true }
  | report {err errorChan} (wasOpen : v.errorChan.closed = false)
      (isOpen : errorChan.closed = false) (buffer : errorChan.buffer = v.errorChan.buffer ++ [err])
      (capacity : errorChan.capacity = v.errorChan.capacity) :
      CheckerMove config tools dest v index (.reporting err)
        ({ v with errorChan := errorChan }.setChecker index (if config.failFast then .done else .counting))
  | count : CheckerMove config tools dest v index .counting
      ({ v with validatedPins := v.validatedPins + 1 }.setChecker index
        (if config.maxIssues ≤ v.results.length then .done else .receiving))

theorem checkerMove_of_check (step : v.check config tools dest index = some next) :
    ∃ checker, v.checkers[index]? = some checker ∧ CheckerMove config tools dest v index checker next := by
  unfold check at step
  split at step
  next found =>
    refine ⟨_, found, ?_⟩
    split at step
    · cases step
    next pin ch received =>
      obtain ⟨buffer, closed, capacity⟩ := tryReceive_eq_item received
      cases step
      exact .receive buffer closed capacity
    next ch received =>
      obtain ⟨isEmpty, closed⟩ := tryReceive_eq_closed received
      cases step
      exact .finish isEmpty closed
  next err found =>
    refine ⟨_, found, ?_⟩
    split at step
    next closed =>
      cases step
      exact .crash closed
    · obtain ⟨errorChan, sent, rfl⟩ := map_eq_some_iff.mp step
      obtain ⟨buffer, isOpen, capacity⟩ := trySend_eq_some sent
      exact .report (trySend_isSome_iff.mp (by rw [sent]; rfl)).2 isOpen buffer capacity
  next found =>
    cases step
    exact ⟨_, found, .count⟩
  · cases step

inductive CollectMove (config : ValidationConfig) (v : Validation) : Validation → Prop
  | fail {err errorChan} (buffer : v.errorChan.buffer = err :: errorChan.buffer)
      (closed : errorChan.closed = v.errorChan.closed) (capacity : errorChan.capacity = v.errorChan.capacity) :
      CollectMove config v { v with
        errorChan := errorChan
        errors := v.errors ++ [err]
        report := if config.failFast then some false else none }
  | finish (isEmpty : v.errorChan.buffer = []) (closed : v.errorChan.closed = true) :
      CollectMove config v { v with report := some (v.errors = [] ∧ v.invalidPins = 0) }

theorem collectMove_of_collect (step : v.collect config = some next) : v.report = none ∧ CollectMove config v next := by
  unfold collect at step
  split at step
  · cases step
  next noReport =>
    refine ⟨noReport, ?_⟩
    split at step
    · cases step
    next err errorChan received =>
      obtain ⟨buffer, closed, capacity⟩ := tryReceive_eq_item received
      have move : CollectMove config v _ := .fail buffer closed capacity
      cases step
      cases failFast : config.failFast with
      | true =>
        rw [failFast] at move
        exact move
      | false =>
        rw [failFast, if_neg Bool.false_ne_true, ← noReport] at move
        exact move
    next errorChan received =>
      obtain ⟨isEmpty, closed⟩ := tryReceive_eq_closed received
      cases step
      exact .finish isEmpty closed

variable {checker : Checker} {checkers : List Checker} {event : ValidationEvent}

section

/-- A worker finds fewer issues than the limit, and a pin of another type is noticed. -/
def ValidatesFully (config : ValidationConfig) (tools : ChecksumTools) (dest : Destination) (v : Validation) :
    ValidationEvent → Prop
  | .check index => (v.checkers[index]? = some .counting → v.results.length < config.maxIssues) ∧
      (v.checkers[index]? = some .receiving → ∀ pin ∈ v.reader.ch.buffer.head?, TypeNoticed config tools dest pin)
  | .read | .wait | .collect => True

instance decidableValidatesFully (v : Validation) : ∀ event, Decidable (ValidatesFully config tools dest v event)
  | .check _ => inferInstanceAs (Decidable (_ ∧ _))
  | .read | .wait | .collect => isTrue trivial

/-- The list leaves the channel open, and its error cannot come after a worker that stopped at another error. -/
def ListsOpen (config : ValidationConfig) (source : MigrationSource) : Prop :=
  source.closes = false ∧ (source.listErr = none ∨ config.failFast = false)

/-- A pin is invalid or an error is on its way, so that there is no success. -/
def Bad (v : Validation) : Prop :=
  0 < v.invalidPins ∨ v.errors ≠ [] ∨ v.errorChan.buffer ≠ [] ∨ ∃ err, Checker.reporting err ∈ v.checkers

/-- What holds as long as a validation is not bad. -/
structure Sound (source : MigrationSource) (dest : Destination) (v : Validation) : Prop where
  kept : ∀ pin ∈ source.pins, dest.has pin.cid = .ok true ∨ pin ∈ v.reader.ch.buffer ∨ pin ∈ v.reader.stage.unsent
  benign : ∀ issue ∈ v.found, Benign issue
  drained : Checker.done ∈ v.checkers → v.reader.ch.closed = true ∧ v.reader.ch.buffer = []

structure ValidationInv (config : ValidationConfig) (source : MigrationSource) (dest : Destination)
    (v : Validation) : Prop where
  alive : v.panicked = false
  count : v.checkers.length = config.workerCount
  capacity : v.reader.ch.capacity = config.batchSize * 2 ∧ v.errorChan.capacity = config.workerCount
  reads : v.reader.stage ≠ .panicked
  closed : v.reader.ch.closed = true ↔ v.reader.stage = .done
  stopped : Checker.done ∈ v.checkers → config.failFast = true ∨ v.reader.ch.closed = true
  errorsClosed : v.errorChan.closed = true → ∀ checker ∈ v.checkers, checker = .done
  success : v.report = some true → v.errorChan.closed = true ∧ ¬ Bad v
  outcome : Bad v ∨ Sound source dest v

theorem validationInv_start : ValidationInv config source dest (validateMigration config source) where
  alive := rfl
  count := length_replicate
  capacity := ⟨rfl, rfl⟩
  reads := nofun
  closed := ⟨nofun, nofun⟩
  stopped member := nomatch eq_of_mem_replicate member
  errorsClosed := nofun
  success := nofun
  outcome := .inr ⟨fun _ member => .inr (.inr member), nofun, fun member => nomatch eq_of_mem_replicate member⟩

section

variable (inv : ValidationInv config source dest v)

include inv

theorem ValidationInv.errorsOpen (someWorker : 0 < config.workerCount) (fast : config.failFast = false)
    (listing : v.reader.stage ≠ .done) : v.errorChan.closed = false := by
  rw [← Bool.not_eq_true]
  intro closed
  obtain ⟨checker, isChecker⟩ := exists_mem_of_length_pos (inv.count ▸ someWorker)
  have isDone : Checker.done ∈ v.checkers := inv.errorsClosed closed checker isChecker ▸ isChecker
  rcases inv.stopped isDone with isFast | drained
  · cases fast.symm.trans isFast
  · exact listing (inv.closed.mp drained)

theorem validationInv_read (someWorker : 0 < config.workerCount) (lists : ListsOpen config source)
    (step : v.read source = some next) : ValidationInv config source dest next := by
  obtain ⟨reader, errorChan, panicked, move, rfl⟩ := readerMove_of_validationRead step
  have closesOpen : v.reader.stage = .finished → v.reader.ch.closed = false := by
    intro finished
    rw [← Bool.not_eq_true]
    intro closed
    cases finished.symm.trans (inv.closed.mp closed)
  have sendsOpen : v.reader.stage = .ended → source.listErr ≠ none → v.errorChan.closed = false := by
    intro ended failed
    refine inv.errorsOpen someWorker (lists.2.resolve_left failed) ?_
    rw [ended]
    exact nofun
  have alive := move.alive closesOpen sendsOpen
  refine ⟨alive, inv.count, ?_, fun stage => ?_, ?_, fun stopped => ?_, fun closed => ?_, fun success => ?_, ?_⟩
  · exact ⟨move.capacity.1.trans inv.capacity.1, move.capacity.2.trans inv.capacity.2⟩
  · cases alive.symm.trans (move.panicked_of_stage stage)
  · exact ⟨move.done_of_closed lists.1 inv.closed.mp, move.closed_of_done⟩
  · exact (inv.stopped stopped).imp_right move.closed
  · exact inv.errorsClosed (move.errors_closed.symm.trans closed)
  · obtain ⟨closed, notBad⟩ := inv.success success
    obtain rfl := move.errors_of_closed closed
    exact ⟨closed, notBad⟩
  · rcases inv.outcome with bad | sound
    · exact .inl (bad.imp_right (Or.imp_right (Or.imp_left move.errors_ne_nil)))
    · refine .inr ⟨fun pin member => ?_, sound.benign, fun isDone => move.drained (sound.drained isDone)⟩
      exact (sound.kept pin member).imp_right move.kept

variable (found : v.checkers[index]? = some checker)

include found

variable (notDone : checker ≠ .done)

include notDone

theorem ValidationInv.running : v.errorChan.closed = false ∧ v.report ≠ some true := by
  have isOpen : v.errorChan.closed = false := by
    rw [← Bool.not_eq_true]
    intro closed
    exact notDone (inv.errorsClosed closed _ (mem_of_getElem? found))
  refine ⟨isOpen, fun success => ?_⟩
  have closed := (inv.success success).1
  rw [isOpen] at closed
  cases closed

variable {replacement : Checker}

theorem validationInv_of_outcome (checkers : next.checkers = v.checkers.set index replacement)
    (stops : replacement = .done → config.failFast = true ∨ v.reader.ch.closed = true)
    (same : next.panicked = v.panicked ∧ next.report = v.report ∧ next.reader.stage = v.reader.stage)
    (reads : next.reader.ch.closed = v.reader.ch.closed ∧ next.reader.ch.capacity = v.reader.ch.capacity)
    (sends : next.errorChan.closed = v.errorChan.closed ∧ next.errorChan.capacity = v.errorChan.capacity)
    (outcome : Bad next ∨ Sound source dest next) : ValidationInv config source dest next := by
  obtain ⟨panicked, report, stage⟩ := same
  obtain ⟨isOpen, noSuccess⟩ := inv.running found notDone
  refine ⟨panicked.trans inv.alive, ?_, ?_, stage ▸ inv.reads, ?_, ?_, ?_, ?_, outcome⟩
  · rw [checkers, length_set]
    exact inv.count
  · rw [reads.2, sends.2]
    exact inv.capacity
  · rw [reads.1, stage]
    exact inv.closed
  · intro stopped
    rw [checkers] at stopped
    rw [reads.1]
    exact (mem_or_eq_of_mem_set stopped).elim inv.stopped fun isDone => stops isDone.symm
  · intro isClosed
    rw [sends.1, isOpen] at isClosed
    cases isClosed
  · intro success
    exact absurd (report ▸ success) noSuccess

theorem validationInv_of_sound (silent : ∀ err, checker ≠ .reporting err)
    (checkers : next.checkers = v.checkers.set index replacement)
    (stops : replacement = .done → config.failFast = true ∨ v.reader.ch.closed = true)
    (same : next.panicked = v.panicked ∧ next.report = v.report ∧ next.reader.stage = v.reader.stage)
    (reads : next.reader.ch.closed = v.reader.ch.closed ∧ next.reader.ch.capacity = v.reader.ch.capacity)
    (counted : next.errorChan = v.errorChan ∧ next.invalidPins = v.invalidPins ∧ next.errors = v.errors)
    (keeps : Sound source dest v → Sound source dest next) : ValidationInv config source dest next := by
  obtain ⟨errorChan, invalid, errors⟩ := counted
  refine validationInv_of_outcome inv found notDone checkers stops same reads (by rw [errorChan]; exact ⟨rfl, rfl⟩) ?_
  refine inv.outcome.imp (fun bad => ?_) keeps
  rw [Bad, invalid, errors, errorChan, checkers]
  refine bad.imp_right (Or.imp_right (Or.imp_right fun ⟨err, reporting⟩ => ⟨err, ?_⟩))
  exact (mem_set_or_eq found replacement reporting).resolve_right (silent err).symm

end

theorem done_of_mem_set (member : Checker.done ∈ checkers.set index replacement) (notDone : replacement ≠ .done) :
    Checker.done ∈ checkers :=
  (mem_or_eq_of_mem_set member).resolve_right notDone.symm

variable (inv : ValidationInv config source dest v)

include inv

theorem validationInv_checkPin {ch : Chan Pin} (full : 1 ≤ config.sampleRate)
    (found : v.checkers[index]? = some .receiving) (buffer : v.reader.ch.buffer = pin :: ch.buffer)
    (same : ch.closed = v.reader.ch.closed ∧ ch.capacity = v.reader.ch.capacity)
    (noticed : TypeNoticed config tools dest pin) : ValidationInv config source dest
      ({ v with reader := { v.reader with ch := ch } }.checkPin config tools dest index pin) := by
  have inRange : index < v.checkers.length := (List.getElem?_eq_some_iff.mp found).1
  unfold checkPin
  dsimp only
  rw [if_pos (show shouldValidatePin config (v.totalPins + 1) = true by rw [shouldValidatePin, if_pos full])]
  cases verdict : validatePin config tools dest pin with
  | failed err =>
    refine validationInv_of_outcome inv found nofun rfl nofun ⟨rfl, rfl, rfl⟩ same ⟨rfl, rfl⟩ (.inl ?_)
    exact .inr (.inr (.inr ⟨_, mem_set inRange _⟩))
  | invalid issues =>
    refine validationInv_of_outcome inv found nofun rfl nofun ⟨rfl, rfl, rfl⟩ same ⟨rfl, rfl⟩ (.inl (.inl ?_))
    exact Nat.succ_pos _
  | valid issues =>
    obtain ⟨isThere, benign⟩ := validatePin_eq_valid noticed verdict
    refine validationInv_of_sound inv found nofun nofun rfl nofun ⟨rfl, rfl, rfl⟩ same ⟨rfl, rfl, rfl⟩ fun sound => ?_
    refine ⟨fun other member => ?_, forall_mem_append.mpr ⟨sound.benign, benign⟩, fun isDone => ?_⟩
    · rcases sound.kept other member with there | buffered | left
      · exact .inl there
      · rw [buffer] at buffered
        rcases mem_cons.mp buffered with rfl | later
        · exact .inl isThere
        · exact .inr (.inl later)
      · exact .inr (.inr left)
    · have replaced : Checker.done ∈ v.checkers.set index .counting := isDone
      have isEmpty := (sound.drained (done_of_mem_set replaced nofun)).2
      rw [buffer] at isEmpty
      cases isEmpty

theorem validationInv_check (full : 1 ≤ config.sampleRate) (guard : ValidatesFully config tools dest v (.check index))
    (step : v.check config tools dest index = some next) : ValidationInv config source dest next := by
  obtain ⟨limited, noticed⟩ := guard
  obtain ⟨checker, found, move⟩ := checkerMove_of_check step
  cases move with
  | receive buffer closed capacity =>
    exact validationInv_checkPin inv full found buffer ⟨closed, capacity⟩ (noticed found _ (by rw [buffer]; rfl))
  | finish isEmpty closed =>
    exact validationInv_of_sound inv found nofun nofun rfl (fun _ => .inr closed) ⟨rfl, rfl, rfl⟩ ⟨rfl, rfl⟩
      ⟨rfl, rfl, rfl⟩ fun sound => ⟨sound.kept, sound.benign, fun _ => ⟨closed, isEmpty⟩⟩
  | crash closed => cases (inv.running found nofun).1.symm.trans closed
  | report wasOpen isOpen buffer capacity =>
    have stops : (if config.failFast then Checker.done else .counting) = .done →
        config.failFast = true ∨ v.reader.ch.closed = true := by
      cases config.failFast with
      | false => exact nofun
      | true => exact fun _ => .inl rfl
    refine validationInv_of_outcome inv found nofun rfl stops ⟨rfl, rfl, rfl⟩ ⟨rfl, rfl⟩
      ⟨isOpen.trans wasOpen.symm, capacity⟩ (.inl (.inr (.inr (.inl ?_))))
    dsimp only [setChecker]
    rw [buffer]
    exact append_ne_nil_of_right_ne_nil _ (cons_ne_nil _ _)
  | count =>
    rw [if_neg (not_le.mpr (limited found))]
    refine validationInv_of_sound inv found nofun nofun rfl nofun ⟨rfl, rfl, rfl⟩ ⟨rfl, rfl⟩ ⟨rfl, rfl, rfl⟩
      fun sound => ?_
    refine ⟨sound.kept, sound.benign, fun isDone => ?_⟩
    have replaced : Checker.done ∈ v.checkers.set index .receiving := isDone
    exact sound.drained (done_of_mem_set replaced nofun)

theorem validationInv_wait (step : v.wait = some next) : ValidationInv config source dest next := by
  obtain ⟨⟨allDone, -⟩, same⟩ := ite_none_right_eq_some.mp step
  cases same
  refine { inv with
    errorsClosed := fun _ checker member => ?_
    success := fun success => ⟨rfl, (inv.success success).2⟩
    outcome := inv.outcome.imp_right fun sound => { sound with } }
  exact of_decide_eq_true (all_eq_true.mp allDone checker member)

theorem validationInv_collect (step : v.collect config = some next) : ValidationInv config source dest next := by
  obtain ⟨-, move⟩ := collectMove_of_collect step
  cases move with
  | fail buffer closed capacity =>
    refine { inv with
      capacity := ⟨inv.capacity.1, capacity.trans inv.capacity.2⟩
      errorsClosed := fun isClosed => inv.errorsClosed (closed.symm.trans isClosed)
      success := ?_
      outcome := ?_ }
    · cases config.failFast <;> exact nofun
    · exact .inl (.inr (.inl (append_ne_nil_of_right_ne_nil _ (cons_ne_nil _ _))))
  | finish isEmpty closed =>
    refine { inv with
      success := fun success => ⟨closed, ?_⟩
      outcome := inv.outcome.imp_right fun sound => { sound with } }
    obtain ⟨noErrors, noInvalid⟩ := of_decide_eq_true (some.inj success)
    rintro (invalid | failed | waiting | ⟨err, reporting⟩)
    · exact absurd noInvalid invalid.ne'
    · exact failed noErrors
    · exact waiting isEmpty
    · cases inv.errorsClosed closed _ reporting

theorem validationInv_step (full : 1 ≤ config.sampleRate) (someWorker : 0 < config.workerCount)
    (lists : ListsOpen config source) (guard : ValidatesFully config tools dest v event)
    (step : (validationMachine config tools source dest).step v event = some next) :
    ValidationInv config source dest next := by
  obtain ⟨-, taken⟩ := ite_none_left_eq_some.mp step
  cases event with
  | read => exact validationInv_read inv someWorker lists taken
  | check index => exact validationInv_check inv full guard taken
  | wait => exact validationInv_wait inv taken
  | collect => exact validationInv_collect inv taken

theorem ValidationInv.all_there (someWorker : 0 < config.workerCount) (success : v.report = some true) :
    (∀ pin ∈ source.pins, dest.has pin.cid = .ok true) ∧ ∀ issue ∈ v.found, Benign issue := by
  obtain ⟨errorsClosed, notBad⟩ := inv.success success
  have sound := inv.outcome.resolve_left notBad
  obtain ⟨checker, isChecker⟩ := exists_mem_of_length_pos (inv.count ▸ someWorker)
  have isDone : Checker.done ∈ v.checkers := inv.errorsClosed errorsClosed checker isChecker ▸ isChecker
  obtain ⟨closed, isEmpty⟩ := sound.drained isDone
  refine ⟨fun pin member => ?_, sound.benign⟩
  rcases sound.kept pin member with there | buffered | left
  · exact there
  · rw [isEmpty] at buffered
    cases buffered
  · rw [inv.closed.mp closed] at left
    cases left

end

def readerRank {α : Type} : FeederStage α → ℕ
  | .sending _ => 4
  | .ended => 3
  | .finished => 1
  | .done | .panicked => 0

def checkerRank : Checker → ℕ
  | .reporting _ => 4
  | .counting => 2
  | .receiving => 1
  | .done => 0

/-- A pin that is not sent has to be sent, received and checked; an error has to be collected. -/
def validationRank (v : Validation) : ℕ :=
  5 * v.reader.stage.unsent.length + 4 * v.reader.ch.buffer.length + readerRank v.reader.stage +
    (v.checkers.map checkerRank).sum + v.errorChan.buffer.length + (!v.errorChan.closed).toNat +
    v.report.isNone.toNat + (!v.panicked).toNat

theorem sum_set_checker (found : checkers[index]? = some checker) (replacement : Checker) :
    ((checkers.set index replacement).map checkerRank).sum + checkerRank checker =
      (checkers.map checkerRank).sum + checkerRank replacement := by
  induction checkers generalizing index with
  | nil => cases found
  | cons first rest ih =>
    cases index with
    | zero =>
      cases found
      simp only [set_cons_zero, map_cons, sum_cons]
      omega
    | succ index =>
      have tail := ih found
      simp only [set_cons_succ, map_cons, sum_cons]
      omega

theorem validationRank_read (alive : v.panicked = false) (step : v.read source = some next) :
    validationRank next < validationRank v := by
  obtain ⟨reader, errorChan, panicked, move, rfl⟩ := readerMove_of_validationRead step
  obtain ⟨before, checkers, errors, results, found, total, validated, valid, invalid, skipped, failures, report,
    wasPanicked⟩ := v
  obtain rfl : wasPanicked = false := alive
  cases move with
  | send wasOpen isOpen buffer =>
    simp only [validationRank, buffer, FeederStage.unsent, readerRank, length_append, length_cons, length_nil]
    omega
  | finish =>
    cases source.closes <;>
      simp only [validationRank, FeederStage.unsent, readerRank, close, if_true, if_false, Bool.false_eq_true] <;>
      omega
  | report wasOpen isOpen buffer =>
    change errors.closed = false at wasOpen
    simp only [validationRank, buffer, isOpen, wasOpen, FeederStage.unsent, readerRank, length_append,
      length_cons, length_nil]
    omega
  | _ =>
    simp only [validationRank, FeederStage.unsent, readerRank, close, Bool.not_true, Bool.not_false,
      Bool.toNat_true, Bool.toNat_false]
    omega

theorem validationRank_checkPin (v : Validation) (found : v.checkers[index]? = some .receiving) (pin : Pin) :
    validationRank (v.checkPin config tools dest index pin) ≤ validationRank v + 3 := by
  unfold checkPin
  dsimp only
  split
  · split
    next err _ =>
      have sum := sum_set_checker found (.reporting ("worker " ++ index.repr ++ " validation failed for pin " ++
        tools.cidString pin.cid ++ ": " ++ err))
      simp only [checkerRank] at sum
      simp only [validationRank, setChecker]
      omega
    all_goals
      have sum := sum_set_checker found .counting
      simp only [checkerRank] at sum
      simp only [validationRank, setChecker, addIssues]
      omega
  · simp only [validationRank]
    omega

theorem validationRank_receive {ch : Chan Pin} (found : v.checkers[index]? = some .receiving)
    (buffer : v.reader.ch.buffer = pin :: ch.buffer) :
    validationRank ({ v with reader := { v.reader with ch := ch } }.checkPin config tools dest index pin) <
      validationRank v := by
  have received : validationRank { v with reader := { v.reader with ch := ch } } + 4 = validationRank v := by
    simp only [validationRank, buffer, length_cons]
    omega
  generalize isNext : ({ v with reader := { v.reader with ch := ch } } : Validation) = next at received ⊢
  have stillFound : next.checkers[index]? = some .receiving := by
    rw [← isNext]
    exact found
  refine Nat.lt_of_le_of_lt (validationRank_checkPin next stillFound pin) ?_
  omega

theorem validationRank_check (alive : v.panicked = false) (step : v.check config tools dest index = some next) :
    validationRank next < validationRank v := by
  obtain ⟨checker, found, move⟩ := checkerMove_of_check step
  cases move with
  | receive buffer => exact validationRank_receive found buffer
  | finish =>
    have sum := sum_set_checker found .done
    simp only [checkerRank] at sum
    simp only [validationRank, setChecker]
    omega
  | crash =>
    simp only [validationRank, alive, Bool.not_true, Bool.not_false, Bool.toNat_true, Bool.toNat_false]
    omega
  | report wasOpen isOpen buffer capacity =>
    rename_i err errorChan
    have sum := sum_set_checker found (if config.failFast then .done else .counting)
    have small : checkerRank (if config.failFast then .done else .counting) ≤ 2 := by
      split <;> simp only [checkerRank] <;> omega
    rw [show checkerRank (.reporting err) = 4 from rfl] at sum
    simp only [validationRank, setChecker, buffer, isOpen, wasOpen, length_append, length_cons, length_nil]
    omega
  | count =>
    have sum := sum_set_checker found (if config.maxIssues ≤ v.results.length then .done else .receiving)
    have small : checkerRank (if config.maxIssues ≤ v.results.length then .done else .receiving) ≤ 1 := by
      split <;> simp only [checkerRank] <;> omega
    rw [show checkerRank .counting = 2 from rfl] at sum
    simp only [validationRank, setChecker]
    omega

theorem validationRank_wait (step : v.wait = some next) : validationRank next < validationRank v := by
  obtain ⟨⟨-, isOpen⟩, same⟩ := ite_none_right_eq_some.mp step
  cases same
  simp only [validationRank, close, isOpen, Bool.not_true, Bool.not_false, Bool.toNat_true, Bool.toNat_false]
  omega

theorem validationRank_collect (step : v.collect config = some next) : validationRank next < validationRank v := by
  obtain ⟨noReport, move⟩ := collectMove_of_collect step
  cases move with
  | fail buffer closed =>
    cases config.failFast <;>
      simp only [validationRank, noReport, buffer, closed, length_cons, if_true, if_false, Bool.false_eq_true,
        isNone_none, isNone_some, Bool.toNat_true, Bool.toNat_false] <;>
      omega
  | finish =>
    simp only [validationRank, noReport, isNone_none, isNone_some, Bool.toNat_true, Bool.toNat_false]
    omega

theorem length_le_of_validation {target : Validation} {events : List ValidationEvent}
    (ran : (validationMachine config tools source dest).run v events = some target) :
    events.length ≤ validationRank v := by
  have bound := LabeledMachine.length_le_of_run (fun _ => True) validationRank (fun s event next _ step => ?_) trivial ran
  · omega
  · obtain ⟨running, taken⟩ := ite_none_left_eq_some.mp step
    have alive : s.panicked = false := Bool.eq_false_iff.mpr running
    cases event with
    | read => exact ⟨trivial, validationRank_read alive taken⟩
    | check index => exact ⟨trivial, validationRank_check alive taken⟩
    | wait => exact ⟨trivial, validationRank_wait taken⟩
    | collect => exact ⟨trivial, validationRank_collect taken⟩

/-- No step is left. -/
def Quiet (config : ValidationConfig) (tools : ChecksumTools) (source : MigrationSource) (dest : Destination)
    (v : Validation) : Prop :=
  ∀ event, (validationMachine config tools source dest).step v event = none

theorem Quiet.blocked (quiet : Quiet config tools source dest v) (alive : v.panicked = false) :
    v.collect config = none ∧ v.wait = none ∧ (∀ index, v.check config tools dest index = none) ∧
      v.read source = none := by
  have running : ¬ v.panicked = true := Bool.eq_false_iff.mp alive
  exact ⟨(if_neg running).symm.trans (quiet .collect), (if_neg running).symm.trans (quiet .wait),
    fun index => (if_neg running).symm.trans (quiet (.check index)), (if_neg running).symm.trans (quiet .read)⟩

theorem errorChan_of_blocked (noReport : v.report = none) (blocked : v.collect config = none) :
    v.errorChan.buffer = [] ∧ v.errorChan.closed = false := by
  refine tryReceive_eq_none ?_
  unfold collect at blocked
  rw [noReport] at blocked
  dsimp only at blocked
  split at blocked
  · assumption
  · cases blocked
  · cases blocked

theorem read_isSome (inv : ValidationInv config source dest v) (room : 0 < config.batchSize)
    (empty : v.reader.ch.buffer = []) (isOpen : v.reader.ch.closed = false) (errorsOpen : v.errorChan.closed = false)
    (errorRoom : v.errorChan.buffer.length < v.errorChan.capacity) : (v.read source).isSome = true := by
  rw [Validation.read, isSome_map]
  unfold MigrationSource.read
  split
  next rest sending =>
    obtain ⟨⟨stage, ch⟩, _⟩ := v
    obtain rfl : stage = .sending rest := sending
    have capacity : ch.capacity = config.batchSize * 2 := inv.capacity.1
    rw [isSome_map]
    refine Feeder.list_isSome_of_room isOpen ?_
    rw [show ch.buffer = [] from empty, capacity]
    exact Nat.mul_pos room Nat.two_pos
  · split
    · rfl
    next err _ =>
      rw [if_neg (Bool.eq_false_iff.mp errorsOpen), isSome_map]
      exact trySend_isSome_iff.mpr ⟨errorRoom, errorsOpen⟩
  · rfl
  next isDone => cases isOpen.symm.trans (inv.closed.mpr isDone)
  next isPanicked => exact (inv.reads isPanicked).elim

theorem check_of_blocked (found : v.checkers[index]? = some checker) (notDone : checker ≠ .done)
    (errorsOpen : v.errorChan.closed = false) (room : v.errorChan.buffer.length < v.errorChan.capacity)
    (blocked : v.check config tools dest index = none) : v.reader.ch.buffer = [] ∧ v.reader.ch.closed = false := by
  unfold check at blocked
  rw [found] at blocked
  cases checker with
  | done => exact absurd rfl notDone
  | counting => cases blocked
  | reporting err =>
    dsimp only at blocked
    rw [if_neg (Bool.eq_false_iff.mp errorsOpen), map_eq_none_iff] at blocked
    have sends : (v.errorChan.trySend err).isSome = true := trySend_isSome_iff.mpr ⟨room, errorsOpen⟩
    rw [blocked] at sends
    cases sends
  | receiving =>
    dsimp only at blocked
    split at blocked
    next empty => exact tryReceive_eq_none empty
    · cases blocked
    · cases blocked

theorem reported_of_quiet (inv : ValidationInv config source dest v) (room : 0 < config.batchSize)
    (someWorker : 0 < config.workerCount) (quiet : Quiet config tools source dest v) :
    ∃ success, v.report = some success := by
  cases noReport : v.report with
  | some success => exact ⟨success, rfl⟩
  | none =>
    exfalso
    obtain ⟨collecting, waiting, checking, reading⟩ := quiet.blocked inv.alive
    obtain ⟨noErrors, errorsOpen⟩ := errorChan_of_blocked noReport collecting
    have errorRoom : v.errorChan.buffer.length < v.errorChan.capacity := by
      rw [noErrors, inv.capacity.2]
      exact someWorker
    obtain ⟨checker, member, notDone⟩ : ∃ checker ∈ v.checkers, checker ≠ .done := by
      by_contra allDone
      have enabled : v.checkers.all (· = .done) = true ∧ v.errorChan.closed = false :=
        ⟨all_eq_true.mpr fun checker member => decide_eq_true
          (not_not.mp fun notDone => allDone ⟨checker, member, notDone⟩), errorsOpen⟩
      cases (if_pos enabled).symm.trans waiting
    obtain ⟨index, found⟩ := mem_iff_getElem?.mp member
    obtain ⟨empty, isOpen⟩ := check_of_blocked found notDone errorsOpen errorRoom (checking index)
    have reads : (v.read source).isSome = true := read_isSome inv room empty isOpen errorsOpen errorRoom
    rw [reading] at reads
    cases reads

end IpfsCluster.Proofs.State
