import IpfsCluster.Model.Billing.Costs
import Mathlib.Algebra.Order.BigOperators.Group.List

/-! # What the passes over the costs add up to

Every pass leaves the subtotal and adds line items. A discount by code raises the total of the discounts by what
its line item takes off, while a discount of the tier lowers it by that, since its negative amount is added.
-/

namespace IpfsCluster.Proofs.Billing

open Model Model.Billing Api Golang List CostBreakdown

def charge (used : ℚ) (freeQuota price : ℤ) : ℤ := toInt64 (max 0 (used - freeQuota) * price)

def storageCharge (usage : UsageMetrics) (pricing : StoragePricing) : ℤ :=
  let amount := charge (usage.storageBytes / (1024 * 1024 * 1024)) pricing.freeQuotaGB pricing.pricePerGBMonth
  if 0 < amount then max amount pricing.minimumCharge else amount

def bandwidthCharge (usage : UsageMetrics) (pricing : BandwidthPricing) : ℤ :=
  charge (usage.bandwidthBytes / (1024 * 1024 * 1024)) pricing.freeQuotaGB pricing.pricePerGB

def apiCharge (usage : UsageMetrics) (pricing : APIPricing) : ℤ :=
  if pricing.model = .perCall then charge usage.apiCalls pricing.freeQuotaCalls pricing.pricePerCall
  else toInt64 (max 0 (usage.apiCalls - pricing.freeQuotaCalls : ℚ) / 1000 * pricing.pricePerThousand)

/-- What a discount of the tier is taken from, in terms of usage and prices. -/
def chargeFor (usage : UsageMetrics) (tier : PricingTier) : AppliesTo → ℤ
  | .storage => (tier.storagePricing.map (storageCharge usage)).getD 0
  | .bandwidth => (tier.bandwidthPricing.map (bandwidthCharge usage)).getD 0
  | .api => (tier.apiPricing.map (apiCharge usage)).getD 0
  | .total => (tier.storagePricing.map (storageCharge usage)).getD 0 +
      (tier.bandwidthPricing.map (bandwidthCharge usage)).getD 0 + (tier.apiPricing.map (apiCharge usage)).getD 0
  | .other _ => 0

/-- The charge reaches the threshold, and the discount is at least one unit of the currency. -/
def Applies (usage : UsageMetrics) (tier : PricingTier) (discount : VolumeDiscount) : Prop :=
  discount.threshold ≤ chargeFor usage tier discount.appliesTo ∧
    1 ≤ chargeFor usage tier discount.appliesTo * discount.discountPct

theorem amount_raised (item : LineItem) (minimum : ℤ) :
    (if 0 < item.amount ∧ item.amount < minimum then { item with amount := minimum } else item).amount =
      if 0 < item.amount then max item.amount minimum else item.amount := by
  by_cases raised : 0 < item.amount ∧ item.amount < minimum
  · rw [if_pos raised, if_pos raised.1, max_eq_right raised.2.le]
  · rw [if_neg raised]
    split_ifs with positive
    · exact (max_eq_left (not_lt.mp fun less => raised ⟨positive, less⟩)).symm
    · rfl

theorem storageCosts_amount (usage : UsageMetrics) (pricing : StoragePricing) :
    (calculateStorageCosts usage pricing).amount = storageCharge usage pricing := by
  have perMonth : (calculateStoragePerGBMonth usage pricing).amount = storageCharge usage pricing :=
    amount_raised _ _
  unfold calculateStorageCosts
  cases pricing.model <;> exact perMonth

theorem itemAmount_map {Pricing : Type} (item : Pricing → LineItem) (amount : Pricing → ℤ)
    (same : ∀ pricing, (item pricing).amount = amount pricing) (pricing : Option Pricing) :
    itemAmount (pricing.map item) = (pricing.map amount).getD 0 := by
  cases pricing with
  | none => rfl
  | some pricing => exact same pricing

theorem volumeBase_baseCosts (usage : UsageMetrics) (tier : PricingTier) (appliesTo : AppliesTo) :
    volumeBase (baseCosts id usage tier) appliesTo = chargeFor usage tier appliesTo := by
  have storage := itemAmount_map _ _ (storageCosts_amount usage) tier.storagePricing
  have bandwidth := itemAmount_map (calculateBandwidthCosts usage) (bandwidthCharge usage) (fun pricing => by
    unfold calculateBandwidthCosts
    cases pricing.model <;> rfl) tier.bandwidthPricing
  have api := itemAmount_map (calculateAPICosts usage) (apiCharge usage) (fun pricing => by
    unfold calculateAPICosts apiCharge
    cases pricing.model <;> rfl) tier.apiPricing
  cases appliesTo with
  | storage => exact storage
  | bandwidth => exact bandwidth
  | api => exact api
  | total => exact congrArg₂ (· + ·) (congrArg₂ (· + ·) storage bandwidth) api
  | other name => rfl

def volumeTaken (costs : CostBreakdown) (discount : VolumeDiscount) : ℤ :=
  max 0 (calculateVolumeDiscountAmount costs discount)

def takenOff (items : List LineItem) : ℤ := (items.map fun item => |item.amount|).sum

theorem takenOff_append (items more : List LineItem) : takenOff (items ++ more) = takenOff items + takenOff more := by
  rw [takenOff, map_append, sum_append]
  rfl

theorem takenOff_discountItem (description : String) {amount : ℤ} (positive : 0 < amount) :
    takenOff [discountItem description amount] = amount := by
  simp [takenOff, discountItem, sum_cons, sum_nil, abs_neg, abs_of_pos positive]

theorem volumeTaken_pos_iff (usage : UsageMetrics) (tier : PricingTier) (discount : VolumeDiscount) :
    0 < volumeTaken (baseCosts id usage tier) discount ↔ Applies usage tier discount := by
  have cut := toInt64_pos_iff (chargeFor usage tier discount.appliesTo * discount.discountPct)
  simp only [volumeTaken, calculateVolumeDiscountAmount, volumeBase_baseCosts, Applies]
  rw [← cut]
  generalize toInt64 _ = amount
  split_ifs <;> omega

theorem calculateVolumeDiscounts_spec (costs : CostBreakdown) (discounts : List VolumeDiscount) (start : ℤ) :
    takenOff (calculateVolumeDiscounts costs discounts) = (discounts.map (volumeTaken costs)).sum ∧
      (calculateVolumeDiscounts costs discounts).foldl (fun total discount => total + discount.amount) start =
        start - (discounts.map (volumeTaken costs)).sum := by
  induction discounts generalizing start with
  | nil => exact ⟨rfl, (sub_zero start).symm⟩
  | cons discount rest ih =>
    rw [map_cons, sum_cons]
    by_cases positive : 0 < calculateVolumeDiscountAmount costs discount
    · have items : calculateVolumeDiscounts costs (discount :: rest) =
          discountItem ("Volume Discount: " ++ discount.name) (calculateVolumeDiscountAmount costs discount) ::
            calculateVolumeDiscounts costs rest := filterMap_cons_some (if_pos positive)
      have taken : volumeTaken costs discount = calculateVolumeDiscountAmount costs discount :=
        max_eq_right positive.le
      obtain ⟨off, total⟩ := ih (start + -calculateVolumeDiscountAmount costs discount)
      rw [items, taken]
      constructor
      · rw [← singleton_append, takenOff_append, takenOff_discountItem _ positive, off]
      · exact total.trans (by ring)
    · have items : calculateVolumeDiscounts costs (discount :: rest) = calculateVolumeDiscounts costs rest :=
        filterMap_cons_none (if_neg positive)
      have taken : volumeTaken costs discount = 0 := max_eq_left (not_lt.mp positive)
      rw [items, taken, zero_add]
      exact ih start

theorem volumeTaken_nonneg (costs : CostBreakdown) (discount : VolumeDiscount) : 0 ≤ volumeTaken costs discount :=
  le_max_left _ _

theorem sum_volumeTaken_eq_zero_iff (usage : UsageMetrics) (tier : PricingTier) (discounts : List VolumeDiscount) :
    (discounts.map (volumeTaken (baseCosts id usage tier))).sum = 0 ↔
      ∀ discount ∈ discounts, ¬ Applies usage tier discount := by
  induction discounts with
  | nil => exact iff_of_true rfl nofun
  | cons discount rest ih =>
    have head := volumeTaken_nonneg (baseCosts id usage tier) discount
    have tail : 0 ≤ (rest.map (volumeTaken (baseCosts id usage tier))).sum :=
      sum_nonneg (forall_mem_map.mpr fun other _ => volumeTaken_nonneg _ other)
    rw [map_cons, sum_cons, forall_mem_cons, ← ih, ← volumeTaken_pos_iff]
    omega

variable {costs : CostBreakdown}

section

structure SameCharges (costs other : CostBreakdown) : Prop where
  storage : costs.storageCosts = other.storageCosts
  bandwidth : costs.bandwidthCosts = other.bandwidthCosts
  api : costs.apiCosts = other.apiCosts
  subtotal : costs.subtotal = other.subtotal

variable {other : CostBreakdown}

theorem SameCharges.codeBase (same : SameCharges costs other) (appliesTo : AppliesTo) :
    codeBase costs appliesTo = codeBase other appliesTo := by
  cases appliesTo with
  | storage => exact congrArg itemAmount same.storage
  | bandwidth => exact congrArg itemAmount same.bandwidth
  | api => exact congrArg itemAmount same.api
  | total | other => exact same.subtotal

theorem SameCharges.amount (same : SameCharges costs other) (discount : Discount) :
    calculateDiscountAmount costs discount = calculateDiscountAmount other discount := by
  rw [calculateDiscountAmount, calculateDiscountAmount, same.codeBase]

/-- The checks before a discount by code is taken. -/
def Usable (total : ℤ) (discount : Discount) : Prop :=
  discount.isActive = true ∧ total ≤ discount.validUntil.unix ∧
    ¬ (0 < discount.maxUses ∧ discount.maxUses ≤ discount.usedCount)

instance decidableUsable (total : ℤ) (discount : Discount) : Decidable (Usable total discount) :=
  inferInstanceAs (Decidable (_ ∧ _ ∧ _))

def codeTaken (costs : CostBreakdown) (discount : Discount) : ℤ :=
  if Usable costs.total discount then max 0 ((calculateDiscountAmount costs discount).toOption.getD 0) else 0

theorem codeTaken_nonneg (costs : CostBreakdown) (discount : Discount) : 0 ≤ codeTaken costs discount := by
  unfold codeTaken
  split
  · exact le_max_left _ _
  · exact le_rfl

theorem codeTaken_antitone (same : SameCharges costs other) (less : costs.total ≤ other.total) (discount : Discount) :
    codeTaken other discount ≤ codeTaken costs discount := by
  by_cases usable : Usable other.total discount
  · have also : Usable costs.total discount := ⟨usable.1, less.trans usable.2.1, usable.2.2⟩
    rw [codeTaken, codeTaken, if_pos usable, if_pos also, same.amount]
  · rw [codeTaken, if_neg usable]
    exact codeTaken_nonneg costs discount

/-- What the loop over discounts by code keeps, and what it has taken off. -/
structure TakesOff (costs next : CostBreakdown) (taken : ℤ) : Prop where
  charges : SameCharges costs next
  total : next.total = costs.total
  taxes : next.taxes = costs.taxes
  totalTaxes : next.totalTaxes = costs.totalTaxes
  totalDiscounts : next.totalDiscounts = costs.totalDiscounts + taken
  off : takenOff next.discounts = takenOff costs.discounts + taken

theorem takesOff_nothing (costs : CostBreakdown) : TakesOff costs costs 0 :=
  ⟨⟨rfl, rfl, rfl, rfl⟩, rfl, rfl, rfl, (add_zero _).symm, (add_zero _).symm⟩

theorem applyDiscount_eq (costs : CostBreakdown) (discount : Discount) : applyDiscount costs discount =
      if 0 < codeTaken costs discount then { costs with
          discounts := costs.discounts ++ [discountItem ("Discount: " ++ discount.name) (codeTaken costs discount)]
          totalDiscounts := costs.totalDiscounts + codeTaken costs discount }
      else costs := by
  by_cases usable : Usable costs.total discount
  · have all : codeTaken costs discount = max 0 ((calculateDiscountAmount costs discount).toOption.getD 0) :=
      if_pos usable
    obtain ⟨active, valid, unused⟩ := usable
    rw [all, applyDiscount, if_neg (by simp [active]), if_neg (not_lt.mpr valid), if_neg unused]
    cases calculateDiscountAmount costs discount with
    | error message => rfl
    | ok taken =>
      by_cases positive : 0 < taken
      · simp [if_pos positive, Except.toOption, max_eq_right positive.le]
      · simp [if_neg positive, Except.toOption, max_eq_left (not_lt.mp positive)]
  · rw [codeTaken, if_neg usable, if_neg (lt_irrefl 0)]
    unfold applyDiscount
    split_ifs with inactive ended used
    · rfl
    · rfl
    · rfl
    · exact absurd ⟨by simpa using inactive, not_lt.mp ended, used⟩ usable

theorem applyDiscount_takesOff (costs : CostBreakdown) (discount : Discount) :
    TakesOff costs (applyDiscount costs discount) (codeTaken costs discount) := by
  rw [applyDiscount_eq]
  split
  next positive =>
    refine ⟨⟨rfl, rfl, rfl, rfl⟩, rfl, rfl, rfl, rfl, ?_⟩
    rw [takenOff_append, takenOff_discountItem _ positive]
  next nothing =>
    rw [le_antisymm (not_lt.mp nothing) (codeTaken_nonneg costs discount)]
    exact takesOff_nothing costs

theorem foldl_takesOff (costs : CostBreakdown) (discounts : List Discount) :
    TakesOff costs (discounts.foldl applyDiscount costs) (discounts.map (codeTaken costs)).sum := by
  induction discounts generalizing costs with
  | nil => exact takesOff_nothing costs
  | cons discount rest ih =>
    have first := applyDiscount_takesOff costs discount
    have later := ih (applyDiscount costs discount)
    have same : codeTaken (applyDiscount costs discount) = codeTaken costs := by
      funext other
      rw [codeTaken, codeTaken, first.total, first.charges.amount]
    rw [same] at later
    rw [map_cons, sum_cons, foldl_cons]
    exact ⟨⟨first.charges.storage.trans later.charges.storage, first.charges.bandwidth.trans later.charges.bandwidth,
        first.charges.api.trans later.charges.api, first.charges.subtotal.trans later.charges.subtotal⟩,
      later.total.trans first.total, later.taxes.trans first.taxes, later.totalTaxes.trans first.totalTaxes,
      by rw [later.totalDiscounts, first.totalDiscounts, add_assoc], by rw [later.off, first.off, add_assoc]⟩

end

variable {taxConfig : TaxConfiguration}

def taxOn (taxConfig : TaxConfiguration) (amount : ℤ) : ℤ :=
  if 0 < taxConfig.taxRate ∧ 0 < amount then toInt64 (amount * taxConfig.taxRate) else 0

theorem taxOn_eq_floor {amount : ℤ} (rate : 0 < taxConfig.taxRate) (positive : 0 < amount) :
    taxOn taxConfig amount = ⌊(amount * taxConfig.taxRate : ℚ)⌋ := by
  rw [taxOn, if_pos ⟨rate, positive⟩, toInt64_of_nonneg]
  exact mul_nonneg (Int.cast_nonneg positive.le) rate.le

theorem taxOn_nonneg (taxConfig : TaxConfiguration) (amount : ℤ) : 0 ≤ taxOn taxConfig amount := by
  by_cases taxed : 0 < taxConfig.taxRate ∧ 0 < amount
  · rw [taxOn_eq_floor taxed.1 taxed.2]
    exact Int.floor_nonneg.mpr (mul_nonneg (Int.cast_nonneg taxed.2.le) taxed.1.le)
  · rw [taxOn, if_neg taxed]

theorem taxOn_mono (taxConfig : TaxConfiguration) {amount more : ℤ} (less : amount ≤ more) :
    taxOn taxConfig amount ≤ taxOn taxConfig more := by
  by_cases taxed : 0 < taxConfig.taxRate ∧ 0 < amount
  · rw [taxOn_eq_floor taxed.1 taxed.2, taxOn_eq_floor taxed.1 (taxed.2.trans_le less)]
    exact Int.floor_le_floor (mul_le_mul_of_nonneg_right (Int.cast_le.mpr less) taxed.1.le)
  · rw [taxOn, if_neg taxed]
    exact taxOn_nonneg taxConfig more

def taxed (items : List LineItem) : ℤ := (items.map LineItem.amount).sum

def Recalculated (costs : CostBreakdown) : Prop :=
  costs.total = costs.subtotal - costs.totalDiscounts + costs.totalTaxes

theorem calculateTaxes_spec (recalculated : Recalculated costs) (taxConfig : TaxConfiguration) :
    (calculateTaxes id costs taxConfig).total = costs.total + taxOn taxConfig (costs.subtotal - costs.totalDiscounts) ∧
      taxed (calculateTaxes id costs taxConfig).taxes =
        taxed costs.taxes + taxOn taxConfig (costs.subtotal - costs.totalDiscounts) ∧
      (calculateTaxes id costs taxConfig).subtotal = costs.subtotal ∧
      (calculateTaxes id costs taxConfig).discounts = costs.discounts := by
  have nonneg := taxOn_nonneg taxConfig (costs.subtotal - costs.totalDiscounts)
  unfold Recalculated at recalculated
  unfold taxOn at nonneg ⊢
  unfold calculateTaxes
  simp only [id_eq]
  by_cases rate : taxConfig.taxRate ≤ 0
  · rw [if_pos rate, if_neg fun both => absurd both.1 (not_lt.mpr rate)]
    exact ⟨(add_zero _).symm, (add_zero _).symm, rfl, rfl⟩
  by_cases amount : costs.subtotal - costs.totalDiscounts ≤ 0
  · simp only [if_neg rate, if_pos amount, not_lt.mpr amount, and_false, if_false, add_zero, and_self]
  have both : 0 < taxConfig.taxRate ∧ 0 < costs.subtotal - costs.totalDiscounts :=
    ⟨not_le.mp rate, not_le.mp amount⟩
  rw [if_pos both] at nonneg
  simp only [if_neg rate, if_neg amount, if_pos both]
  generalize toInt64 _ = tax at nonneg ⊢
  by_cases positive : 0 < tax
  · simp only [if_pos positive, recalculate, id_eq, taxed, map_append, sum_append, map_cons,
      map_nil, sum_cons, sum_nil, add_zero, and_self, and_true]
    omega
  · obtain rfl : tax = 0 := by omega
    simp only [lt_irrefl, if_false, recalculate, id_eq, add_zero, and_self, and_true]
    exact recalculated.symm

section

/-- The three passes over the costs. -/
def billed (keep : ℤ → ℤ) (usage : UsageMetrics) (tier : PricingTier) (codes : List Discount)
    (taxConfig : TaxConfiguration) : CostBreakdown :=
  calculateTaxes keep (applyDiscounts keep (calculateUsageCosts keep usage tier) codes) taxConfig

/-- The identity of a bill: what is charged, without all discounts and with all taxes. -/
def SumsUp (costs : CostBreakdown) : Prop :=
  costs.total = costs.subtotal - takenOff costs.discounts + taxed costs.taxes

def tierTaken (usage : UsageMetrics) (tier : PricingTier) : ℤ :=
  (tier.discounts.map (volumeTaken (baseCosts id usage tier))).sum

def codesTaken (usage : UsageMetrics) (tier : PricingTier) (codes : List Discount) : ℤ :=
  (codes.map (codeTaken (calculateUsageCosts id usage tier))).sum

/-- What is left before taxes: the discounts of the tier are added to the charges. -/
def netAmount (usage : UsageMetrics) (tier : PricingTier) (codes : List Discount) : ℤ :=
  (baseCosts id usage tier).subtotal + tierTaken usage tier - codesTaken usage tier codes

variable (usage : UsageMetrics) (tier : PricingTier) (codes : List Discount) (taxConfig : TaxConfiguration)

theorem calculateUsageCosts_totalDiscounts : (calculateUsageCosts id usage tier).totalDiscounts = -tierTaken usage tier :=
  (calculateVolumeDiscounts_spec _ _ _).2.trans (zero_sub _)

theorem calculateUsageCosts_total :
    (calculateUsageCosts id usage tier).total = (baseCosts id usage tier).subtotal + tierTaken usage tier := by
  change (baseCosts id usage tier).subtotal - (calculateUsageCosts id usage tier).totalDiscounts + 0 = _
  rw [calculateUsageCosts_totalDiscounts]
  ring

theorem calculateUsageCosts_takenOff : takenOff (calculateUsageCosts id usage tier).discounts = tierTaken usage tier :=
  (calculateVolumeDiscounts_spec (baseCosts id usage tier) tier.discounts 0).1

theorem applyDiscounts_spec : Recalculated (applyDiscounts id (calculateUsageCosts id usage tier) codes) ∧
      (applyDiscounts id (calculateUsageCosts id usage tier) codes).subtotal = (baseCosts id usage tier).subtotal ∧
      (applyDiscounts id (calculateUsageCosts id usage tier) codes).total = netAmount usage tier codes ∧
      (applyDiscounts id (calculateUsageCosts id usage tier) codes).subtotal -
        (applyDiscounts id (calculateUsageCosts id usage tier) codes).totalDiscounts = netAmount usage tier codes ∧
      takenOff (applyDiscounts id (calculateUsageCosts id usage tier) codes).discounts =
        tierTaken usage tier + codesTaken usage tier codes ∧
      (applyDiscounts id (calculateUsageCosts id usage tier) codes).taxes = [] := by
  have takes := foldl_takesOff (calculateUsageCosts id usage tier) codes
  have subtotal : (codes.foldl applyDiscount (calculateUsageCosts id usage tier)).subtotal =
      (baseCosts id usage tier).subtotal := takes.charges.subtotal.symm
  have discounts := takes.totalDiscounts
  have noTaxes : (codes.foldl applyDiscount (calculateUsageCosts id usage tier)).totalTaxes = 0 := takes.totalTaxes
  have off := takes.off
  rw [calculateUsageCosts_totalDiscounts] at discounts
  rw [calculateUsageCosts_takenOff] at off
  refine ⟨rfl, subtotal, ?_, ?_, off, takes.taxes⟩
  · simp only [applyDiscounts, recalculate, id_eq, netAmount, codesTaken, subtotal, discounts, noTaxes]
    ring
  · simp only [applyDiscounts, recalculate, id_eq, netAmount, codesTaken, subtotal, discounts]
    ring

theorem billed_total : (billed id usage tier codes taxConfig).total =
      netAmount usage tier codes + taxOn taxConfig (netAmount usage tier codes) := by
  obtain ⟨recalculated, -, total, net, -, -⟩ := applyDiscounts_spec usage tier codes
  rw [billed, (calculateTaxes_spec recalculated taxConfig).1, net, total]

/-- The bill is too high by twice what the discounts of the tier take off. -/
theorem sumsUp_billed_iff : SumsUp (billed id usage tier codes taxConfig) ↔ tierTaken usage tier = 0 := by
  obtain ⟨recalculated, subtotal, -, net, off, noTaxes⟩ := applyDiscounts_spec usage tier codes
  obtain ⟨-, taxes, sameSubtotal, sameDiscounts⟩ := calculateTaxes_spec recalculated taxConfig
  rw [noTaxes, net] at taxes
  rw [SumsUp, billed_total, billed, sameSubtotal, sameDiscounts, taxes, subtotal, off, netAmount]
  simp only [taxed, map_nil, sum_nil]
  omega

def chargesSize : ℤ :=
  |chargeFor usage tier .storage| + |chargeFor usage tier .bandwidth| + |chargeFor usage tier .api|

/-- The charges, the discounts and the tax, as exact integers, stay below `2 ^ 63` together. -/
def Fits : Prop :=
  chargesSize usage tier + tierTaken usage tier + codesTaken usage tier codes +
    taxOn taxConfig (netAmount usage tier codes) < 2 ^ 63

theorem recalculate_wrapped (small : |costs.subtotal| + |costs.totalDiscounts| + |costs.totalTaxes| < 2 ^ 63) :
    costs.recalculate wrapInt64 = costs.recalculate id := by
  simp only [abs_eq_max_neg] at small
  unfold recalculate
  rw [wrapInt64_of_abs_lt (abs_lt.mpr (by omega))]
  rfl

theorem calculateTaxes_wrapped (noTaxes : costs.totalTaxes = 0)
    (small : |costs.subtotal| + |costs.totalDiscounts| + taxOn taxConfig (costs.subtotal - costs.totalDiscounts) < 2 ^ 63) :
    calculateTaxes wrapInt64 costs taxConfig = calculateTaxes id costs taxConfig := by
  have nonneg := taxOn_nonneg taxConfig (costs.subtotal - costs.totalDiscounts)
  unfold taxOn at small nonneg
  simp only [abs_eq_max_neg] at small
  have net : wrapInt64 (costs.subtotal - costs.totalDiscounts) = costs.subtotal - costs.totalDiscounts :=
    wrapInt64_of_abs_lt (abs_lt.mpr (by omega))
  unfold calculateTaxes
  simp only [net, noTaxes, zero_add, id_eq]
  split_ifs with rate amount positive
  · rfl
  · rfl
  · rw [if_pos ⟨not_le.mp rate, not_le.mp amount⟩] at small
    rw [wrapInt64_of_abs_lt (abs_lt.mpr (by omega)), recalculate_wrapped]
    simp only [abs_eq_max_neg]
    omega
  · refine recalculate_wrapped ?_
    rw [noTaxes]
    simp only [abs_eq_max_neg]
    omega

theorem abs_subtotal_le : |(baseCosts id usage tier).subtotal| ≤ chargesSize usage tier := by
  have subtotal : (baseCosts id usage tier).subtotal = _ := volumeBase_baseCosts usage tier .total
  rw [subtotal]
  exact abs_add_three _ _ _

theorem tierTaken_nonneg : 0 ≤ tierTaken usage tier :=
  sum_nonneg (forall_mem_map.mpr fun other _ => volumeTaken_nonneg _ other)

theorem calculateUsageCosts_wrapped (small : chargesSize usage tier + tierTaken usage tier < 2 ^ 63) :
    calculateUsageCosts wrapInt64 usage tier = calculateUsageCosts id usage tier := by
  have subtotal := abs_subtotal_le usage tier
  have positive := abs_nonneg (baseCosts id usage tier).subtotal
  have nonneg := tierTaken_nonneg usage tier
  have total : |(calculateUsageCosts id usage tier).totalDiscounts| = tierTaken usage tier := by
    rw [calculateUsageCosts_totalDiscounts, abs_neg, abs_of_nonneg nonneg]
  have same : wrapInt64 (baseCosts id usage tier).subtotal = _ := wrapInt64_of_abs_lt (by omega)
  have base : baseCosts wrapInt64 usage tier = baseCosts id usage tier :=
    congrArg (fun subtotal => { baseCosts id usage tier with subtotal }) same
  have sum : wrapInt64 (calculateUsageCosts id usage tier).totalDiscounts = _ := wrapInt64_of_abs_lt (by omega)
  rw [calculateUsageCosts, base]
  refine (congrArg (fun totalDiscounts => recalculate wrapInt64 { calculateUsageCosts id usage tier with
    totalDiscounts }) sum).trans (recalculate_wrapped ?_)
  rw [total]
  change |(baseCosts id usage tier).subtotal| + tierTaken usage tier + |0| < 2 ^ 63
  rw [abs_zero]
  omega

/-- A bill that fits is the same in 64 bits as in exact integers. -/
theorem billed_wrapped (fits : Fits usage tier codes taxConfig) :
    billed wrapInt64 usage tier codes taxConfig = billed id usage tier codes taxConfig := by
  unfold Fits at fits
  have subtotal := abs_subtotal_le usage tier
  have positive := abs_nonneg (baseCosts id usage tier).subtotal
  have tax := taxOn_nonneg taxConfig (netAmount usage tier codes)
  have fromTier := tierTaken_nonneg usage tier
  have fromCodes : 0 ≤ codesTaken usage tier codes :=
    sum_nonneg (forall_mem_map.mpr fun other _ => codeTaken_nonneg _ other)
  have takes := foldl_takesOff (calculateUsageCosts id usage tier) codes
  have discounts : (codes.foldl applyDiscount (calculateUsageCosts id usage tier)).totalDiscounts =
      -tierTaken usage tier + codesTaken usage tier codes := by
    rw [takes.totalDiscounts, calculateUsageCosts_totalDiscounts]
    rfl
  have size := abs_add_le (-tierTaken usage tier) (codesTaken usage tier codes)
  rw [abs_neg, abs_of_nonneg fromTier, abs_of_nonneg fromCodes] at size
  have sum : wrapInt64 (codes.foldl applyDiscount (calculateUsageCosts id usage tier)).totalDiscounts = _ :=
    wrapInt64_of_abs_lt (by rw [discounts]; omega)
  have passes : applyDiscounts wrapInt64 (calculateUsageCosts id usage tier) codes =
      applyDiscounts id (calculateUsageCosts id usage tier) codes := by
    unfold applyDiscounts
    dsimp only
    rw [sum]
    refine recalculate_wrapped ?_
    dsimp only
    rw [← takes.charges.subtotal, discounts, takes.totalTaxes]
    change |(baseCosts id usage tier).subtotal| + _ + |0| < _
    rw [abs_zero]
    omega
  obtain ⟨-, sameSubtotal, -, net, -⟩ := applyDiscounts_spec usage tier codes
  rw [billed, billed, calculateUsageCosts_wrapped usage tier (by omega), passes]
  refine calculateTaxes_wrapped taxConfig takes.totalTaxes ?_
  rw [net, sameSubtotal, show (applyDiscounts id _ codes).totalDiscounts = _ from discounts]
  omega

variable {tier : PricingTier} {usage : UsageMetrics}

theorem codesTaken_antitone {cheaper : PricingTier} (sameBase : baseCosts id usage tier = baseCosts id usage cheaper)
    (more : tierTaken usage cheaper ≤ tierTaken usage tier) :
    codesTaken usage tier codes ≤ codesTaken usage cheaper codes := by
  have base : SameCharges (baseCosts id usage cheaper) (baseCosts id usage tier) := sameBase ▸ ⟨rfl, rfl, rfl, rfl⟩
  have charges : SameCharges (calculateUsageCosts id usage cheaper) (calculateUsageCosts id usage tier) := { base with }
  have totals : (calculateUsageCosts id usage cheaper).total ≤ (calculateUsageCosts id usage tier).total := by
    rw [calculateUsageCosts_total, calculateUsageCosts_total, sameBase]
    omega
  exact sum_le_sum fun code _ => codeTaken_antitone charges totals code

theorem billed_total_lt {cheaper : PricingTier} (sameBase : baseCosts id usage tier = baseCosts id usage cheaper)
    (more : tierTaken usage cheaper < tierTaken usage tier) :
    (billed id usage cheaper codes taxConfig).total < (billed id usage tier codes taxConfig).total := by
  have net : netAmount usage cheaper codes < netAmount usage tier codes := by
    have codesLess := codesTaken_antitone codes sameBase more.le
    rw [netAmount, netAmount, sameBase]
    omega
  have taxes := taxOn_mono taxConfig net.le
  rw [billed_total, billed_total]
  omega

theorem billed_total_congr {other : PricingTier} (sameBase : baseCosts id usage tier = baseCosts id usage other)
    (same : tierTaken usage tier = tierTaken usage other) :
    (billed id usage tier codes taxConfig).total = (billed id usage other codes taxConfig).total := by
  have codesSame := le_antisymm (codesTaken_antitone codes sameBase same.ge)
    (codesTaken_antitone codes sameBase.symm same.le)
  rw [billed_total, billed_total, netAmount, netAmount, sameBase, same, codesSame]

theorem calculateCosts_billed {config : BillingConfig} {req : CostCalculationRequest} (enabled : config.enabled = true)
    (taxes : config.taxCalculationEnabled = true) (given : req.pricingTier = some tier)
    (configured : req.taxConfig = some taxConfig) (getPricingTier : String → Except String PricingTier) (now : Time) :
    ∃ calculation, calculateCosts config true getPricingTier now req = .ok calculation ∧
      calculation.breakdown = billed wrapInt64 req.usage tier req.discounts taxConfig ∧
      calculation.totalAmount = calculation.breakdown.total := by
  have passes : breakdownFor config req tier = billed wrapInt64 req.usage tier req.discounts taxConfig := by
    unfold breakdownFor
    rw [configured, taxes]
    dsimp only
    by_cases noCodes : req.discounts = []
    · have wrapped (x : ℤ) : wrapInt64 (wrapInt64 x) = wrapInt64 x := Int.bmod_bmod
      rw [noCodes, if_pos rfl, if_pos rfl, billed, applyDiscounts, foldl_nil]
      simp only [calculateUsageCosts, recalculate, wrapped]
    · rw [if_neg noCodes]
      rfl
  simp only [calculateCosts, enabled, given]
  exact ⟨_, rfl, passes, rfl⟩

end

end IpfsCluster.Proofs.Billing
