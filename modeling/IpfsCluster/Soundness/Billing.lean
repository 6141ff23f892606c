import IpfsCluster.Proofs.Billing.Costs
import IpfsCluster.Proofs.Billing.Usage

/-! # Soundness of billing

The rollups of all days count an event exactly as often as it was stored, except in the first and in the last nanosecond
of a day. A bill is the charges without the discounts and with the taxes, except where a discount of the tier applies,
which raises it. Each discount by code is limited by the charge it is taken from, but not by what the others take; its
end is compared with the total of the bill.
-/

namespace IpfsCluster.Soundness

open Model Model.Billing Proofs.Billing Api Golang List

/-- The daily metrics count every event of an owner exactly once if and only if none is at the boundary of a day. -/
theorem rollups_count_events_iff {steps : List BillingStep} (rollsUp : RollsUp steps) {owner : String}
    (processed : ∀ period, owner ∈ getUniqueOwnerIDsForPeriod period) :
    (∀ event ∈ storedEvents steps, event.ownerID = owner →
      timesCounted (runBilling {} steps) event = (storedEvents steps).count event) ↔
      ∀ event ∈ storedEvents steps, event.ownerID = owner → ¬ AtDayBoundary event.timestamp := by
  have stored : (runBilling {} steps).usageEvents = storedEvents steps := runBilling_events steps
  refine forall_congr' fun event => forall_congr' fun member => forall_congr' fun isOwner => ?_
  rw [timesCounted_run rollsUp member (isOwner ▸ processed _), stored]
  have occurs : 0 < (storedEvents steps).count event := count_pos_iff.mpr member
  split
  next boundary => exact iff_of_false (by omega) (not_not_intro boundary)
  next inside => exact iff_of_true rfl inside

def storageAt (nanos : ℤ) : UsageEvent where
  ownerID := "owner1"
  operation := .storage
  quantity := 1
  timestamp := ⟨nanos⟩

def storedAndRolledUp (nanos : ℤ) : List BillingStep := [.store (storageAt nanos), .rollup ⟨nanos⟩]

theorem storedAndRolledUp_rollsUp (nanos : ℤ) : RollsUp (storedAndRolledUp nanos) where
  once := nodup_singleton _
  covered before event after split := by
    cases before with
    | nil =>
      obtain ⟨same, rfl⟩ := List.cons.inj split
      cases same
      exact mem_singleton_self _
    | cons first rest =>
      have tail := (List.cons.inj split).2
      cases rest with
      | nil => cases (List.cons.inj tail).1
      | cons second rest => cases rest <;> cases (List.cons.inj tail).2

theorem rollups_count_events_midnight :
    RollsUp (storedAndRolledUp 0) ∧ storageAt 0 ∈ storedEvents (storedAndRolledUp 0) ∧
      (storageAt 0).ownerID ∈ getUniqueOwnerIDsForPeriod (dailyPeriod ⟨0⟩) ∧
      timesCounted (runBilling {} (storedAndRolledUp 0)) (storageAt 0) = 0 := by
  refine ⟨storedAndRolledUp_rollsUp 0, mem_singleton_self _, mem_cons_self, ?_⟩
  exact timesCounted_run_of_ne (Or.inr (Or.inl rfl))

theorem rollups_count_events_iff_second :
    timesCounted (runBilling {} (storedAndRolledUp (10 ^ 9))) (storageAt (10 ^ 9)) = 1 := by
  have noBoundary : ∀ event ∈ storedEvents (storedAndRolledUp (10 ^ 9)), event.ownerID = "owner1" →
      ¬ AtDayBoundary event.timestamp := by
    rintro event member -
    obtain rfl := mem_singleton.mp member
    decide
  have counted := (rollups_count_events_iff (storedAndRolledUp_rollsUp (10 ^ 9))
    fun _ => mem_cons_self).mpr noBoundary (storageAt (10 ^ 9)) (mem_singleton_self _) rfl
  rw [counted]
  exact count_singleton_self

/-- After any events and rollups, the metrics of a day have the storage of the events they are made from. Their hours
are those of a whole day exactly if the last hour does not add a unit to them. -/
theorem rollup_storage_iff {steps : List BillingStep} {key : MetricsKey} {metrics : UsageMetrics}
    (stored : (runBilling {} steps).usageMetrics.lookup key = some metrics)
    (nonneg : ∀ event ∈ metrics.counted, 0 ≤ event.quantity)
    (fits : (metrics.counted.map storedQuantity).sum < 2 ^ 63) :
    metrics.storageBytes = (metrics.counted.map storedQuantity).sum ∧
      (metrics.storageHours = metrics.storageBytes * 24 / 2 ^ 30 ↔
        metrics.storageBytes ≤ metrics.storageBytes * 24 % 2 ^ 30) := by
  have empty : AllOfDays {} := fun key _ found => nomatch (AList.lookup_empty key).symm.trans found
  obtain ⟨storage, ownerID, date, rfl⟩ := allOfDays_run empty steps key metrics stored
  have aggregates := aggregates_aggregateUsage storage ownerID (dailyPeriod date)
  have bytes : (aggregateUsage storage ownerID (dailyPeriod date)).storageBytes =
      ((aggregateUsage storage ownerID (dailyPeriod date)).counted.map storedQuantity).sum := by
    rw [aggregates.storageBytes, aggregates.counted, nil_append, zero_add]
  have bytesNonneg : 0 ≤ (aggregateUsage storage ownerID (dailyPeriod date)).storageBytes := by
    rw [bytes]
    refine sum_nonneg (forall_mem_map.mpr fun event member => ?_)
    unfold storedQuantity
    split
    · exact nonneg event member
    · exact le_rfl
  refine ⟨bytes, ?_⟩
  rw [aggregateUsage_storageHours]
  exact tdiv_wrapInt64_eq_iff bytesNonneg (bytes ▸ fits)

def storageOf (quantity : ℤ) : UsageEvent := { storageAt (10 ^ 9) with quantity := quantity }

def storedForDay (quantity : ℤ) : List BillingStep := [.store (storageOf quantity), .rollup ⟨10 ^ 9⟩]

theorem rollup_storage_day : ((runBilling {} (storedForDay (2 ^ 30))).getUsageMetrics "owner1" (dailyPeriod ⟨0⟩)).map
      (fun metrics => (metrics.storageBytes, metrics.storageHours)) = some (2 ^ 30, 23) := by decide +kernel

def megabyteOfDay : UsageMetrics where
  ownerID := "owner1"
  period := dailyPeriod ⟨0⟩
  storageBytes := 2 ^ 20
  counted := [storageOf (2 ^ 20)]

theorem rollup_storage_iff_megabyte :
    (runBilling {} (storedForDay (2 ^ 20))).usageMetrics.lookup ("owner1", .daily, 0) = some megabyteOfDay ∧
      megabyteOfDay.storageHours = megabyteOfDay.storageBytes * 24 / 2 ^ 30 := by
  have found : (runBilling {} (storedForDay (2 ^ 20))).usageMetrics.lookup ("owner1", .daily, 0) = some megabyteOfDay := by
    decide +kernel
  exact ⟨found, (rollup_storage_iff found (by decide) (by decide)).2.mpr (by decide)⟩

def storageTier (discounts : List VolumeDiscount) : PricingTier where
  storagePricing := some { pricePerGBMonth := 100, freeQuotaGB := 1, model := .perGBMonth }
  discounts := discounts

def elevenGigabytes : UsageMetrics where
  ownerID := "owner1"
  period := dailyPeriod ⟨0⟩
  storageBytes := 11 * (1024 * 1024 * 1024)

def tenPercent : VolumeDiscount where
  discountPct := 1 / 10
  appliesTo := .total

def nextHigher : VolumeDiscount := { tenPercent with threshold := 2000 }

variable {costs : CostBreakdown} {codes : List Discount} {code : Discount}

/-- No charge is negative, and the charges add up to the subtotal. -/
structure Charged (costs : CostBreakdown) : Prop where
  storage : 0 ≤ itemAmount costs.storageCosts
  bandwidth : 0 ≤ itemAmount costs.bandwidthCosts
  api : 0 ≤ itemAmount costs.apiCosts
  subtotal : costs.subtotal =
    itemAmount costs.storageCosts + itemAmount costs.bandwidthCosts + itemAmount costs.apiCosts

/-- An active code with a percentage between 1 and 100 or a fixed amount that is not negative. -/
def ValidCode (code : Discount) : Prop :=
  code.isActive = true ∧ (code.type = .percentage → 1 ≤ code.value ∧ code.value ≤ 100) ∧
    (code.type = .fixedAmount → 0 ≤ code.value)

/-- What a code takes off the charge it is for: a share of it, or a fixed amount up to all of it. -/
def codeShare (costs : CostBreakdown) (code : Discount) : ℤ :=
  match code.type with
  | .percentage => codeBase costs code.appliesTo * code.value / 100
  | .fixedAmount => min (codeBase costs code.appliesTo) code.value
  | .other _ => 0

theorem Charged.codeBase_nonneg (charged : Charged costs) (appliesTo : AppliesTo) : 0 ≤ codeBase costs appliesTo := by
  obtain ⟨storage, bandwidth, api, subtotal⟩ := charged
  cases appliesTo with
  | storage => exact storage
  | bandwidth => exact bandwidth
  | api => exact api
  | total | other => change 0 ≤ costs.subtotal; omega

theorem codeTaken_eq_share (base : 0 ≤ codeBase costs code.appliesTo) (valid : ValidCode code) :
    codeTaken costs code = if Usable costs.total code then codeShare costs code else 0 := by
  obtain ⟨-, percentage, fixed⟩ := valid
  refine if_congr Iff.rfl ?_ rfl
  unfold calculateDiscountAmount codeShare
  generalize codeBase costs code.appliesTo = amount at base ⊢
  cases kind : code.type with dsimp only
  | percentage =>
    have positive := (percentage kind).1
    have share : toInt64 (amount * code.value / 100) = amount * code.value / 100 := by
      have cast : (amount * code.value / 100 : ℚ) = ((amount * code.value : ℤ) : ℚ) / (100 : ℕ) := by push_cast; rfl
      rw [toInt64_of_nonneg (by positivity), cast, Rat.floor_intCast_div_natCast]
      rfl
    have nonneg : 0 ≤ amount * code.value / 100 := by positivity
    split_ifs with nothing
    · obtain rfl : amount = 0 := by omega
      simp [Except.toOption]
    · simp only [Except.toOption, Option.getD_some, share, max_eq_right nonneg]
  | fixedAmount =>
    have nonneg := fixed kind
    split_ifs with nothing more <;> simp only [Except.toOption, Option.getD_some] <;> omega
  | other name => split_ifs <;> rfl

theorem sum_codeTaken (charged : Charged costs) (valid : ∀ code ∈ codes, ValidCode code) :
    (codes.map (codeTaken costs)).sum = ((codes.filter fun code => Usable costs.total code).map (codeShare costs)).sum := by
  induction codes with
  | nil => rfl
  | cons code rest ih =>
    obtain ⟨here, later⟩ := forall_mem_cons.mp valid
    rw [map_cons, sum_cons, codeTaken_eq_share (charged.codeBase_nonneg _) here, ih later]
    by_cases usable : Usable costs.total code
    · rw [if_pos usable, filter_cons_of_pos (by simpa using usable), map_cons, sum_cons]
    · rw [if_neg usable, filter_cons_of_neg (by simpa using usable), zero_add]

/-- Codes never take off a negative amount. They take off at most the subtotal exactly if the shares of all codes that
are usable add up to at most the subtotal. Sums are exact integers here. -/
theorem codes_bounded_iff (charged : Charged costs) (fresh : costs.totalDiscounts = 0)
    (valid : ∀ code ∈ codes, ValidCode code) : 0 ≤ (applyDiscounts id costs codes).totalDiscounts ∧
      ((applyDiscounts id costs codes).totalDiscounts ≤ (applyDiscounts id costs codes).subtotal ↔
        ((codes.filter fun code => Usable costs.total code).map (codeShare costs)).sum ≤ costs.subtotal) := by
  have takes := foldl_takesOff costs codes
  have total : (applyDiscounts id costs codes).totalDiscounts = (codes.map (codeTaken costs)).sum := by
    refine takes.totalDiscounts.trans ?_
    rw [fresh, zero_add]
  have subtotal : (applyDiscounts id costs codes).subtotal = costs.subtotal := takes.charges.subtotal.symm
  rw [total, subtotal, ← sum_codeTaken charged valid]
  refine ⟨sum_nonneg ?_, Iff.rfl⟩
  rw [forall_mem_map]
  exact fun code _ => codeTaken_nonneg costs code

def hundred : CostBreakdown where
  storageCosts := some ⟨"Storage (GB-month)", 1, "GB-month", 100, 100⟩
  subtotal := 100
  total := 100

theorem hundred_charged : Charged hundred := ⟨by decide, by decide, by decide, by decide⟩

def percentOff (value : ℤ) : Discount where
  type := .percentage
  value := value
  appliesTo := .total
  validFrom := .unixZero
  validUntil := .ofUnix 1000
  isActive := true

theorem validCode_percentOff {value : ℤ} (positive : 1 ≤ value) (bounded : value ≤ 100) : ValidCode (percentOff value) :=
  ⟨rfl, fun _ => ⟨positive, bounded⟩, nofun⟩

theorem codes_bounded_exceeded : Charged hundred ∧ ValidCode (percentOff 60) ∧
      (applyDiscounts id hundred [percentOff 60, percentOff 60]).totalDiscounts = 120 ∧
      (applyDiscounts id hundred [percentOff 60, percentOff 60]).total = -20 :=
  ⟨hundred_charged, validCode_percentOff (by decide) (by decide), by decide +kernel, by decide +kernel⟩

theorem codes_bounded_iff_halves : (applyDiscounts id hundred [percentOff 50, percentOff 50]).totalDiscounts ≤
      (applyDiscounts id hundred [percentOff 50, percentOff 50]).subtotal := by
  refine (codes_bounded_iff hundred_charged rfl ?_).2.mpr (by decide +kernel)
  intro code member
  obtain rfl : code = percentOff 50 := by simpa using member
  exact validCode_percentOff (by decide) (by decide)

def computedAmount (costs : CostBreakdown) (code : Discount) : ℤ := (calculateDiscountAmount costs code).toOption.getD 0

def AddsLine (costs : CostBreakdown) (code : Discount) : Prop :=
  ∃ item, (applyDiscount costs code).discounts = costs.discounts ++ [item]

/-- Whether a code should be applied at a time. -/
def Due (costs : CostBreakdown) (t : Time) (code : Discount) : Prop :=
  code.isActive = true ∧ (code.validFrom.nanos ≤ t.nanos ∧ t.nanos ≤ code.validUntil.nanos) ∧
    (code.maxUses = 0 ∨ code.usedCount < code.maxUses) ∧ 0 < computedAmount costs code

theorem codeTaken_pos_iff : 0 < codeTaken costs code ↔ Usable costs.total code ∧ 0 < computedAmount costs code := by
  unfold codeTaken
  split
  next usable => rw [lt_max_iff, and_iff_right usable, or_iff_right (lt_irrefl 0)]; rfl
  next unusable => exact iff_of_false (lt_irrefl 0) fun both => unusable both.1

theorem addsLine_iff : AddsLine costs code ↔ Usable costs.total code ∧ 0 < computedAmount costs code := by
  rw [← codeTaken_pos_iff, AddsLine, applyDiscount_eq]
  split
  next positive => exact iff_of_true ⟨_, rfl⟩ positive
  next nothing =>
    refine iff_of_false ?_ nothing
    rintro ⟨item, same⟩
    simpa using congrArg List.length same

theorem addsLine_foldl_iff (before : List Discount) :
    AddsLine (before.foldl applyDiscount costs) code ↔ AddsLine costs code := by
  have takes := foldl_takesOff costs before
  rw [addsLine_iff, addsLine_iff, takes.total, computedAmount, computedAmount, takes.charges.amount]

/-- Each code of a list is applied exactly if it is due, if and only if for each active code with a positive amount the
checks against the total and for used up codes come out as those against the time would. The total, as any integer, matters
for exactly the codes that are active, not used up and have a positive amount; no 64-bit total is above an end at the last
second that fits into 64 bits. -/
theorem code_applied_iff (costs : CostBreakdown) (codes : List Discount) (t : Time) :
    ((∀ before code after, codes = before ++ code :: after →
        (AddsLine (before.foldl applyDiscount costs) code ↔ Due costs t code)) ↔
      ∀ code ∈ codes, code.isActive = true → 0 < computedAmount costs code →
        (costs.total ≤ code.validUntil.unix ∧ ¬ (0 < code.maxUses ∧ code.maxUses ≤ code.usedCount) ↔
          (code.validFrom.nanos ≤ t.nanos ∧ t.nanos ≤ code.validUntil.nanos) ∧
            (code.maxUses = 0 ∨ code.usedCount < code.maxUses))) ∧
    ∀ code, (∀ total, AddsLine { costs with total := total } code ↔ AddsLine costs code) ↔
      ¬ (code.isActive = true ∧ ¬ (0 < code.maxUses ∧ code.maxUses ≤ code.usedCount) ∧
        0 < computedAmount costs code) := by
  constructor
  · simp only [addsLine_foldl_iff]
    simp only [addsLine_iff, Usable, Due]
    constructor
    · intro right code member active positive
      obtain ⟨before, after, split⟩ := append_of_mem member
      simpa only [active, positive, true_and, and_true] using right before code after split
    · rintro agree before code after rfl
      have same := agree code (mem_append_right _ mem_cons_self)
      constructor
      · rintro ⟨⟨active, checks⟩, positive⟩
        obtain ⟨window, uses⟩ := (same active positive).mp checks
        exact ⟨active, window, uses, positive⟩
      · rintro ⟨active, window, uses, positive⟩
        exact ⟨⟨active, (same active positive).mpr ⟨window, uses⟩⟩, positive⟩
  · intro code
    simp only [addsLine_iff, Usable]
    constructor
    · rintro independent ⟨active, unused, positive⟩
      have early := independent code.validUntil.unix
      have late := independent (code.validUntil.unix + 1)
      have applied := early.mp ⟨⟨active, le_rfl, unused⟩, positive⟩
      exact absurd (late.mpr applied).1.2.1 (by simp)
    · intro never total
      exact iff_of_false (fun ⟨⟨active, _, unused⟩, positive⟩ => never ⟨active, unused, positive⟩)
        fun ⟨⟨active, _, unused⟩, positive⟩ => never ⟨active, unused, positive⟩

theorem code_applied_late : AddsLine hundred (percentOff 10) ∧ ¬ Due hundred (.ofUnix 2000) (percentOff 10) ∧
      ¬ AddsLine { hundred with total := 2000 } (percentOff 10) ∧
      Due { hundred with total := 2000 } (.ofUnix 500) (percentOff 10) := by
  rw [addsLine_iff, addsLine_iff, Usable, Usable, Due, Due]
  decide +kernel

end IpfsCluster.Soundness
