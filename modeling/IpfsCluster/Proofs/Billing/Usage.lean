import IpfsCluster.Model.Billing.Costs

/-! # Which events a rollup counts

A rollup makes the metric of a day and an owner from the events that lie strictly inside of the day. Every other step
leaves what is counted.
-/

namespace IpfsCluster.Proofs.Billing

open Model Model.Billing Api Golang List

def timesCounted (storage : BillingStorage) (event : UsageEvent) : ℕ :=
  (storage.usageMetrics.entries.map fun entry => entry.2.counted.count event).sum

def AtDayBoundary (t : Time) : Prop := t.nanos % dayNanos = 0 ∨ t.nanos % dayNanos = dayNanos - 1

instance decidableAtDayBoundary (t : Time) : Decidable (AtDayBoundary t) := inferInstanceAs (Decidable (_ ∨ _))

theorem inside_day_iff (t date : Time) :
    t.after (dailyPeriod date).startTime = true ∧ t.before (dailyPeriod date).endTime = true ↔
      dayOf t = dayOf date ∧ ¬ AtDayBoundary t := by
  rw [Time.after, Time.before, decide_eq_true_iff, decide_eq_true_iff]
  simp only [dailyPeriod, AtDayBoundary, dayOf, dayNanos]
  omega

theorem nodup_owners (period : TimePeriod) : (getUniqueOwnerIDsForPeriod period).Nodup := by
  change (["owner1", "owner2", "owner3"] : List String).Nodup
  decide

theorem dayOf_startTime (date : Time) : dayOf (dailyPeriod date).startTime = dayOf date := by
  simp only [dayOf, dailyPeriod, dayNanos]
  omega

def storedQuantity (event : UsageEvent) : ℤ :=
  if event.operation = .pinAdd ∨ event.operation = .storage then event.quantity else 0

/-- What the loop of the aggregation keeps, and what it has counted. -/
structure Aggregates (start : UsageMetrics) (events : List UsageEvent) (metrics : UsageMetrics) : Prop where
  ownerID : metrics.ownerID = start.ownerID
  period : metrics.period = start.period
  counted : metrics.counted = start.counted ++ events
  storageBytes : metrics.storageBytes = start.storageBytes + (events.map storedQuantity).sum

theorem aggregates_countEvent (metrics : UsageMetrics) (event : UsageEvent) :
    Aggregates metrics [event] (countEvent metrics event) := by
  unfold countEvent
  dsimp only
  cases operation : event.operation <;> exact ⟨rfl, rfl, rfl, by simp [storedQuantity, operation]⟩

theorem aggregates_foldl (events : List UsageEvent) (metrics : UsageMetrics) :
    Aggregates metrics events (events.foldl countEvent metrics) := by
  induction events generalizing metrics with
  | nil => exact ⟨rfl, rfl, (append_nil _).symm, (add_zero _).symm⟩
  | cons event rest ih =>
    have first := aggregates_countEvent metrics event
    have later := ih (countEvent metrics event)
    refine ⟨later.ownerID.trans first.ownerID, later.period.trans first.period, ?_, ?_⟩
    · rw [foldl_cons, later.counted, first.counted, append_assoc, singleton_append]
    · rw [foldl_cons, later.storageBytes, first.storageBytes]
      simp [add_assoc]

section

variable (storage : BillingStorage)

include storage

variable (ownerID : String)

include ownerID

theorem aggregates_aggregateUsage (period : TimePeriod) :
    Aggregates { ownerID := ownerID, period := period } (storage.getUsageEvents ownerID period)
      (aggregateUsage storage ownerID period) :=
  { aggregates_foldl (storage.getUsageEvents ownerID period) { ownerID := ownerID, period := period } with }

theorem aggregateUsage_counted (period : TimePeriod) :
    (aggregateUsage storage ownerID period).counted = storage.getUsageEvents ownerID period :=
  (aggregates_aggregateUsage storage ownerID period).counted.trans (nil_append _)

theorem aggregateUsage_key (period : TimePeriod) :
    metricsKey (aggregateUsage storage ownerID period).ownerID (aggregateUsage storage ownerID period).period =
      metricsKey ownerID period :=
  have aggregates := aggregates_aggregateUsage storage ownerID period
  congrArg₂ metricsKey aggregates.ownerID aggregates.period

theorem aggregateUsage_storageHours (date : Time) : (aggregateUsage storage ownerID (dailyPeriod date)).storageHours =
      (wrapInt64 ((aggregateUsage storage ownerID (dailyPeriod date)).storageBytes * 23)).tdiv (1024 * 1024 * 1024) := by
  have length : (dailyPeriod date).endTime.nanos - (dailyPeriod date).startTime.nanos = 24 * 3600 * 10 ^ 9 - 1 := by
    simp only [dailyPeriod, dayNanos]
    omega
  simp only [aggregateUsage, length]
  rfl

end

theorem tdiv_wrapInt64_eq_iff {bytes : ℤ} (nonneg : 0 ≤ bytes) (fits : bytes < 2 ^ 63) :
    (wrapInt64 (bytes * 23)).tdiv (1024 * 1024 * 1024) = bytes * 24 / 2 ^ 30 ↔ bytes ≤ bytes * 24 % 2 ^ 30 := by
  by_cases small : bytes * 23 < 2 ^ 63
  · rw [wrapInt64, Int.bmod_eq_of_le (by omega) (by omega), Int.tdiv_eq_ediv_of_nonneg (by omega)]
    omega
  · have wrapped : wrapInt64 (bytes * 23) < 2 ^ 63 := Int.bmod_lt (by decide)
    have bound : (wrapInt64 (bytes * 23)).tdiv (1024 * 1024 * 1024) ≤ 2 ^ 33 := by
      have rounded : Int.sign (1024 * 1024 * 1024) = 1 := rfl
      rw [Int.tdiv_eq_ediv, rounded]
      split <;> omega
    omega

section

variable (storage : BillingStorage) (event : UsageEvent) (date : Time)

theorem count_getUsageEvents (ownerID : String) : (storage.getUsageEvents ownerID (dailyPeriod date)).count event =
      if event.ownerID = ownerID ∧ dayOf event.timestamp = dayOf date ∧ ¬ AtDayBoundary event.timestamp
      then storage.usageEvents.count event else 0 := by
  split
  next inside =>
    obtain ⟨started, notEnded⟩ := (inside_day_iff event.timestamp date).mpr inside.2
    refine count_filter ?_
    simp [inside.1, started, notEnded, Bool.and_self]
  next outside =>
    refine count_eq_zero.mpr fun member => outside ?_
    have passed := (mem_filter.mp member).2
    rw [Bool.and_eq_true, Bool.and_eq_true, decide_eq_true_eq, and_assoc] at passed
    exact ⟨passed.1, (inside_day_iff event.timestamp date).mp passed.2⟩

theorem ownerRollup_events (ownerID : String) (period : TimePeriod) :
    (performOwnerDailyRollup storage ownerID period).usageEvents = storage.usageEvents := by
  unfold performOwnerDailyRollup
  split <;> rfl

theorem mem_ownerRollup (ownerID : String) (period : TimePeriod) (key : MetricsKey) :
    key ∈ (performOwnerDailyRollup storage ownerID period).usageMetrics ↔
      key = metricsKey ownerID period ∨ key ∈ storage.usageMetrics := by
  unfold performOwnerDailyRollup
  split
  next metrics found =>
    refine (or_iff_right_of_imp ?_).symm
    rintro rfl
    exact AList.lookup_isSome.mp (Option.isSome_iff_exists.mpr ⟨metrics, found⟩)
  · rw [← aggregateUsage_key storage ownerID period]
    exact AList.mem_insert _

theorem timesCounted_ownerRollup (ownerID : String) (period : TimePeriod)
    (isNew : metricsKey ownerID period ∉ storage.usageMetrics) :
    timesCounted (performOwnerDailyRollup storage ownerID period) event =
      (storage.getUsageEvents ownerID period).count event + timesCounted storage event := by
  have absent : storage.getUsageMetrics ownerID period = none := AList.lookup_eq_none.mpr isNew
  rw [← aggregateUsage_key storage ownerID period] at isNew
  unfold performOwnerDailyRollup timesCounted
  rw [absent]
  simp only [BillingStorage.storeUsageMetrics, AList.entries_insert_of_notMem isNew, map_cons, sum_cons,
    aggregateUsage_counted]

variable {storage event date}

theorem timesCounted_rollup_of_ne {ownerID : String} (other : event.ownerID ≠ ownerID ∨
    dayOf event.timestamp ≠ dayOf date ∨ AtDayBoundary event.timestamp) :
    timesCounted (performOwnerDailyRollup storage ownerID (dailyPeriod date)) event = timesCounted storage event := by
  by_cases isNew : metricsKey ownerID (dailyPeriod date) ∈ storage.usageMetrics
  · obtain ⟨metrics, found⟩ := Option.isSome_iff_exists.mp (AList.lookup_isSome.mpr isNew)
    unfold performOwnerDailyRollup
    rw [show storage.getUsageMetrics ownerID (dailyPeriod date) = some metrics from found]
  · rw [timesCounted_ownerRollup storage event ownerID _ isNew, count_getUsageEvents, if_neg, Nat.zero_add]
    rintro ⟨owner, day, inside⟩
    rcases other with owner' | day' | boundary
    · exact owner' owner
    · exact day' day
    · exact inside boundary

def rollupOwners (storage : BillingStorage) (date : Time) (owners : List String) : BillingStorage :=
  owners.foldl (fun storage ownerID => performOwnerDailyRollup storage ownerID (dailyPeriod date)) storage

theorem rollupOwners_events (owners : List String) :
    (rollupOwners storage date owners).usageEvents = storage.usageEvents := by
  induction owners generalizing storage with
  | nil => rfl
  | cons owner rest ih => exact ih.trans (ownerRollup_events storage owner _)

theorem mem_rollupOwners (owners : List String) (key : MetricsKey) :
    key ∈ (rollupOwners storage date owners).usageMetrics ↔
      (∃ owner ∈ owners, key = metricsKey owner (dailyPeriod date)) ∨ key ∈ storage.usageMetrics := by
  induction owners generalizing storage with
  | nil => exact (or_iff_right nofun).symm
  | cons owner rest ih =>
    refine ih.trans ?_
    rw [mem_ownerRollup, exists_mem_cons_iff, or_assoc, or_left_comm]

theorem timesCounted_rollupOwners_of_ne {owners : List String} (other : event.ownerID ∉ owners ∨
    dayOf event.timestamp ≠ dayOf date ∨ AtDayBoundary event.timestamp) :
    timesCounted (rollupOwners storage date owners) event = timesCounted storage event := by
  induction owners generalizing storage with
  | nil => rfl
  | cons owner rest ih =>
    refine (ih ?_).trans (timesCounted_rollup_of_ne ?_)
    · exact other.imp_left fun absent member => absent (mem_cons_of_mem _ member)
    · exact other.imp_left fun absent same => absent (same ▸ mem_cons_self)

theorem timesCounted_rollupOwners {owners : List String} (nodup : owners.Nodup) (processed : event.ownerID ∈ owners)
    (day : dayOf event.timestamp = dayOf date) (inside : ¬ AtDayBoundary event.timestamp)
    (isNew : metricsKey event.ownerID (dailyPeriod date) ∉ storage.usageMetrics) :
    timesCounted (rollupOwners storage date owners) event =
      storage.usageEvents.count event + timesCounted storage event := by
  induction owners generalizing storage with
  | nil => cases processed
  | cons owner rest ih =>
    obtain ⟨absent, nodupRest⟩ := nodup_cons.mp nodup
    by_cases same : event.ownerID = owner
    · subst same
      refine (timesCounted_rollupOwners_of_ne (.inl absent)).trans ?_
      rw [timesCounted_ownerRollup storage event _ _ isNew, count_getUsageEvents, if_pos ⟨rfl, day, inside⟩]
    · have later := (mem_cons.mp processed).resolve_left same
      refine (ih nodupRest later ?_).trans ?_
      · rw [mem_ownerRollup]
        rintro (sameKey | old)
        · exact same (congrArg Prod.fst sameKey)
        · exact isNew old
      · rw [ownerRollup_events, timesCounted_rollup_of_ne (.inl same)]

end

section

def runBilling (storage : BillingStorage) (steps : List BillingStep) : BillingStorage := steps.foldl billingStep storage

def rollupDays : List BillingStep → List ℤ
  | [] => []
  | .store _ :: rest => rollupDays rest
  | .rollup date :: rest => dayOf date :: rollupDays rest

/-- Each day is rolled up at most once, and the day of an event is rolled up after the event is stored. -/
structure RollsUp (steps : List BillingStep) : Prop where
  once : (rollupDays steps).Nodup
  covered : ∀ before event after, steps = before ++ .store event :: after → dayOf event.timestamp ∈ rollupDays after

theorem rollupDays_append (before after : List BillingStep) :
    rollupDays (before ++ after) = rollupDays before ++ rollupDays after := by
  induction before with
  | nil => rfl
  | cons step rest ih =>
    cases step with
    | store event => exact ih
    | rollup date => exact congrArg (dayOf date :: ·) ih

variable {storage : BillingStorage} {event : UsageEvent} {steps : List BillingStep}

def storedEvents : List BillingStep → List UsageEvent
  | [] => []
  | .store event :: rest => event :: storedEvents rest
  | .rollup _ :: rest => storedEvents rest

theorem runBilling_events (steps : List BillingStep) :
    (runBilling storage steps).usageEvents = storage.usageEvents ++ storedEvents steps := by
  induction steps generalizing storage with
  | nil => exact (append_nil _).symm
  | cons step rest ih =>
    refine ih.trans ?_
    cases step with
    | store event => exact append_assoc _ [event] _
    | rollup date => exact congrArg (· ++ storedEvents rest) (rollupOwners_events _)

theorem exists_store_of_mem (stored : event ∈ storedEvents steps) :
    ∃ before after, steps = before ++ .store event :: after := by
  induction steps with
  | nil => cases stored
  | cons step rest ih =>
    cases step with
    | store other =>
      rcases mem_cons.mp stored with rfl | later
      · exact ⟨[], rest, rfl⟩
      · obtain ⟨before, after, rfl⟩ := ih later
        exact ⟨.store other :: before, after, rfl⟩
    | rollup date =>
      obtain ⟨before, after, rfl⟩ := ih stored
      exact ⟨.rollup date :: before, after, rfl⟩

theorem exists_rollup_of_mem {day : ℤ} (rolled : day ∈ rollupDays steps) :
    ∃ before date after, steps = before ++ .rollup date :: after ∧ dayOf date = day := by
  induction steps with
  | nil => cases rolled
  | cons step rest ih =>
    cases step with
    | store other =>
      obtain ⟨before, date, after, rfl, same⟩ := ih rolled
      exact ⟨.store other :: before, date, after, rfl, same⟩
    | rollup first =>
      rcases mem_cons.mp rolled with rfl | later
      · exact ⟨[], first, rest, rfl, rfl⟩
      · obtain ⟨before, date, after, rfl, same⟩ := ih later
        exact ⟨.rollup first :: before, date, after, rfl, same⟩

theorem timesCounted_run_of_ne (other : dayOf event.timestamp ∉ rollupDays steps ∨ AtDayBoundary event.timestamp) :
    timesCounted (runBilling storage steps) event = timesCounted storage event := by
  induction steps generalizing storage with
  | nil => rfl
  | cons step rest ih =>
    cases step with
    | store stored => exact ih other
    | rollup date =>
      refine (ih ?_).trans (timesCounted_rollupOwners_of_ne (.inr ?_))
      · exact other.imp_left fun absent member => absent (mem_cons_of_mem _ member)
      · exact other.imp_left fun absent same => absent (same ▸ mem_cons_self)

theorem day_mem_of_key {owner : String} {date : Time}
    (member : metricsKey owner (dailyPeriod date) ∈ (runBilling storage steps).usageMetrics) :
    dayOf date ∈ rollupDays steps ∨ metricsKey owner (dailyPeriod date) ∈ storage.usageMetrics := by
  induction steps generalizing storage with
  | nil => exact .inr member
  | cons step rest ih =>
    cases step with
    | store stored =>
      rcases ih member with later | before
      · exact .inl later
      · exact .inr before
    | rollup first =>
      rcases ih member with later | before
      · exact .inl (mem_cons_of_mem _ later)
      · rcases (mem_rollupOwners _ _).mp before with ⟨other, -, sameKey⟩ | old
        · have sameDay : dayOf (dailyPeriod date).startTime = dayOf (dailyPeriod first).startTime :=
            congrArg (fun key => key.2.2) sameKey
          rw [dayOf_startTime, dayOf_startTime] at sameDay
          exact .inl (sameDay ▸ mem_cons_self)
        · exact .inr old

theorem exists_rollup_of_stored (rollsUp : RollsUp steps) (stored : event ∈ storedEvents steps) :
    ∃ before date after, steps = before ++ .rollup date :: after ∧ dayOf date = dayOf event.timestamp ∧
      dayOf event.timestamp ∉ rollupDays before ∧ dayOf event.timestamp ∉ rollupDays after ∧
      event ∉ storedEvents after := by
  obtain ⟨first, rest, split⟩ := exists_store_of_mem stored
  have rolled : dayOf event.timestamp ∈ rollupDays steps := by
    rw [split, rollupDays_append]
    exact mem_append_right _ (rollsUp.covered first event rest split)
  obtain ⟨before, date, after, isSteps, sameDay⟩ := exists_rollup_of_mem rolled
  have once := rollsUp.once
  rw [isSteps, rollupDays_append, nodup_append] at once
  obtain ⟨-, onceAfter, apart⟩ := once
  have notAfter : dayOf event.timestamp ∉ rollupDays after := sameDay ▸ (nodup_cons.mp onceAfter).1
  refine ⟨before, date, after, isSteps, sameDay, fun member => ?_, notAfter, fun member => ?_⟩
  · exact apart _ member _ mem_cons_self sameDay.symm
  · obtain ⟨earlier, later, isAfter⟩ := exists_store_of_mem member
    apply notAfter
    rw [isAfter, rollupDays_append]
    refine mem_append_right _ (rollsUp.covered (before ++ .rollup date :: earlier) event later ?_)
    rw [isSteps, isAfter, append_assoc, cons_append]

/-- Once all days are rolled up, an event of a processed owner is counted as often as it is stored, or not at all
if it is at the boundary of its day. -/
theorem timesCounted_run (rollsUp : RollsUp steps) (stored : event ∈ storedEvents steps)
    (processed : event.ownerID ∈ getUniqueOwnerIDsForPeriod (dailyPeriod event.timestamp)) :
    timesCounted (runBilling {} steps) event =
      if AtDayBoundary event.timestamp then 0 else (runBilling {} steps).usageEvents.count event := by
  split
  next boundary => exact timesCounted_run_of_ne (.inr boundary)
  next inside =>
    obtain ⟨before, date, after, isSteps, sameDay, notBefore, notAfter, noStore⟩ :=
      exists_rollup_of_stored rollsUp stored
    have samePeriod : dailyPeriod date = dailyPeriod event.timestamp := by rw [dailyPeriod, dailyPeriod, sameDay]
    rw [← samePeriod] at processed
    have split : runBilling {} steps = runBilling (rollupOwners (runBilling {} before) date
        (getUniqueOwnerIDsForPeriod (dailyPeriod date))) after := by
      rw [isSteps, runBilling, foldl_append]
      rfl
    have isNew : metricsKey event.ownerID (dailyPeriod date) ∉ (runBilling {} before).usageMetrics := by
      intro member
      rcases day_mem_of_key member with rolled | old
      · exact notBefore (sameDay ▸ rolled)
      · cases AList.lookup_isSome.mpr old
    rw [split, timesCounted_run_of_ne (.inl notAfter), runBilling_events, rollupOwners_events,
      count_append, count_eq_zero.mpr noStore,
      timesCounted_rollupOwners (nodup_owners _) processed sameDay.symm inside isNew,
      timesCounted_run_of_ne (.inl notBefore)]
    rfl

def OfDay (metrics : UsageMetrics) : Prop :=
  ∃ storage ownerID date, metrics = aggregateUsage storage ownerID (dailyPeriod date)

def AllOfDays (storage : BillingStorage) : Prop :=
  ∀ key metrics, storage.usageMetrics.lookup key = some metrics → OfDay metrics

theorem allOfDays_ownerRollup (ownerID : String) (date : Time) (all : AllOfDays storage) :
    AllOfDays (performOwnerDailyRollup storage ownerID (dailyPeriod date)) := by
  unfold performOwnerDailyRollup
  split
  · exact all
  · intro key metrics found
    rw [BillingStorage.storeUsageMetrics] at found
    rcases AList.lookup_insert_eq_some found with ⟨-, rfl⟩ | ⟨-, old⟩
    · exact ⟨storage, ownerID, date, rfl⟩
    · exact all key metrics old

theorem allOfDays_run (all : AllOfDays storage) (steps : List BillingStep) : AllOfDays (runBilling storage steps) := by
  refine List.foldlRecOn steps billingStep all fun storage all step _ => ?_
  cases step with
  | store event => exact all
  | rollup date => exact List.foldlRecOn _ _ all fun storage all ownerID _ => allOfDays_ownerRollup ownerID date all

end

end IpfsCluster.Proofs.Billing
