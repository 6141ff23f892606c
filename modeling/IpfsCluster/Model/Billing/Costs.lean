import IpfsCluster.Golang.Number
import IpfsCluster.Model.Api.Types

/-! # Usage and its costs

Events say what an owner used and when. They are rolled up once for each day and owner into metrics, which are kept by
owner, type of period and date; a metric records the events it was made from as history. A date is the number of its
day.

The costs of an owner are line items for storage, bandwidth and calls, discounts, and taxes, in the smallest unit of the
currency. Metadata of line items is left out. The passes over the costs have a parameter for what is kept of a sum:
`wrapInt64` in the program, and `id` where amounts are meant as exact integers. A sum that is not compared with anything
before it is complete is wrapped once.
-/

namespace IpfsCluster.Model.Billing

open Api (Time)
open Golang (wrapInt64 toInt64)

/-- What an owner did or used. -/
inductive UsageOperation where
  | pinAdd | pinRemove | pinUpdate | storage | bandwidth | api
  | other (name : String)
deriving DecidableEq, Repr

/-- One use of the service. -/
structure UsageEvent where
  ownerID : String
  tenantID : String := ""
  operation : UsageOperation
  resourceID : String := ""
  quantity : ℤ := 0
  timestamp : Time
deriving DecidableEq, Repr

/-- How long a period is. -/
inductive PeriodType where
  | daily | monthly | yearly
deriving DecidableEq, Repr

/-- A period of billing. -/
structure TimePeriod where
  startTime : Time
  endTime : Time
  type : PeriodType
deriving DecidableEq, Repr

/-- What an owner used in a period, with the events it was made from. -/
structure UsageMetrics where
  ownerID : String
  tenantID : String := ""
  period : TimePeriod
  storageBytes : ℤ := 0
  storageHours : ℤ := 0
  bandwidthBytes : ℤ := 0
  apiCalls : ℤ := 0
  pinOperations : ℤ := 0
  uniqueObjects : ℤ := 0
  counted : List UsageEvent := []
deriving DecidableEq, Repr

/-- The nanoseconds of a day. -/
def dayNanos : ℤ := 24 * 3600 * 10 ^ 9

/-- The number of the day of an instant. -/
def dayOf (t : Time) : ℤ := t.nanos / dayNanos

/-- The owner, the type of the period and its date. -/
abbrev MetricsKey := String × PeriodType × ℤ

/-- The partition that metrics are stored in. -/
def metricsKey (ownerID : String) (period : TimePeriod) : MetricsKey := (ownerID, period.type, dayOf period.startTime)

/-- The two tables of the storage. -/
structure BillingStorage where
  usageEvents : List UsageEvent := []
  usageMetrics : AList (fun _ : MetricsKey => UsageMetrics) := ∅

namespace BillingStorage

variable (storage : BillingStorage)

/-- Store an event; equal events are stored again. -/
def storeUsageEvent (event : UsageEvent) : BillingStorage :=
  { storage with usageEvents := storage.usageEvents ++ [event] }

/-- The events of an owner after the start and before the end of a period. -/
def getUsageEvents (ownerID : String) (period : TimePeriod) : List UsageEvent :=
  storage.usageEvents.filter fun event =>
    event.ownerID = ownerID && event.timestamp.after period.startTime && event.timestamp.before period.endTime

/-- Store metrics in place of those of the same owner and date. -/
def storeUsageMetrics (metrics : UsageMetrics) : BillingStorage :=
  { storage with usageMetrics := storage.usageMetrics.insert (metricsKey metrics.ownerID metrics.period) metrics }

/-- Read the metrics of an owner and a date. -/
def getUsageMetrics (ownerID : String) (period : TimePeriod) : Option UsageMetrics :=
  storage.usageMetrics.lookup (metricsKey ownerID period)

end BillingStorage

/-- Count one event; the tenant is that of the first event with one. -/
def countEvent (metrics : UsageMetrics) (event : UsageEvent) : UsageMetrics :=
  let metrics := { metrics with
    tenantID := if metrics.tenantID = "" then event.tenantID else metrics.tenantID
    counted := metrics.counted ++ [event] }
  match event.operation with
  | .pinAdd => { metrics with
      pinOperations := metrics.pinOperations + 1, storageBytes := metrics.storageBytes + event.quantity }
  | .pinRemove | .pinUpdate => { metrics with pinOperations := metrics.pinOperations + 1 }
  | .storage => { metrics with storageBytes := metrics.storageBytes + event.quantity }
  | .bandwidth => { metrics with bandwidthBytes := metrics.bandwidthBytes + event.quantity }
  | .api => { metrics with apiCalls := metrics.apiCalls + event.quantity }
  | .other _ => metrics

/-- The metrics of all events of a period, with the hours of storage in GB. -/
def aggregateUsage (storage : BillingStorage) (ownerID : String) (period : TimePeriod) : UsageMetrics :=
  let events := storage.getUsageEvents ownerID period
  let metrics := events.foldl countEvent { ownerID := ownerID, period := period }
  let uniqueObjects := ((events.filter (·.operation = .pinAdd)).map (·.resourceID)).dedup
  let periodHours := (period.endTime.nanos - period.startTime.nanos).tdiv (3600 * 10 ^ 9)
  { metrics with
    uniqueObjects := uniqueObjects.length
    storageHours := (wrapInt64 (metrics.storageBytes * periodHours)).tdiv (1024 * 1024 * 1024) }

/-- The day of an instant, from its first nanosecond to its last. -/
def dailyPeriod (date : Time) : TimePeriod where
  startTime := ⟨dayOf date * dayNanos⟩
  endTime := ⟨dayOf date * dayNanos + dayNanos - 1⟩
  type := .daily

/-- The owners that are rolled up, which are fixed in the source. -/
def getUniqueOwnerIDsForPeriod (_ : TimePeriod) : List String := ["owner1", "owner2", "owner3"]

/-- Roll up the day of an owner, unless that was done before. -/
def performOwnerDailyRollup (storage : BillingStorage) (ownerID : String) (period : TimePeriod) : BillingStorage :=
  match storage.getUsageMetrics ownerID period with
  | some _ => storage
  | none => storage.storeUsageMetrics (aggregateUsage storage ownerID period)

/-- Roll up the day of an instant for all owners. -/
def performDailyRollup (storage : BillingStorage) (date : Time) : BillingStorage :=
  let period := dailyPeriod date
  (getUniqueOwnerIDsForPeriod period).foldl (fun storage ownerID => performOwnerDailyRollup storage ownerID period)
    storage

/-- What happens to the storage: an event is collected, or a day is rolled up. -/
inductive BillingStep where
  | store (event : UsageEvent)
  | rollup (date : Time)

/-- The storage after a step. -/
def billingStep (storage : BillingStorage) : BillingStep → BillingStorage
  | .store event => storage.storeUsageEvent event
  | .rollup date => performDailyRollup storage date

/-- A line of the bill. -/
structure LineItem where
  description : String
  quantity : ℤ
  unit : String
  unitPrice : ℤ
  amount : ℤ
deriving DecidableEq, Repr

/-- How storage is charged. -/
inductive StorageModel where
  | perGBMonth | tiered
  | other (name : String)
deriving DecidableEq, Repr

/-- The prices of storage. -/
structure StoragePricing where
  pricePerGBMonth : ℤ
  minimumCharge : ℤ := 0
  freeQuotaGB : ℤ := 0
  model : StorageModel
deriving DecidableEq, Repr

/-- How bandwidth is charged. -/
inductive BandwidthModel where
  | perGB | tiered
  | other (name : String)
deriving DecidableEq, Repr

/-- The prices of bandwidth. -/
structure BandwidthPricing where
  pricePerGB : ℤ
  freeQuotaGB : ℤ := 0
  model : BandwidthModel
deriving DecidableEq, Repr

/-- How calls are charged. -/
inductive APIModel where
  | perCall | perThousand | tiered
  | other (name : String)
deriving DecidableEq, Repr

/-- The prices of calls. -/
structure APIPricing where
  pricePerCall : ℤ := 0
  pricePerThousand : ℤ := 0
  freeQuotaCalls : ℤ := 0
  model : APIModel
deriving DecidableEq, Repr

/-- The charges that a discount is taken from. -/
inductive AppliesTo where
  | storage | bandwidth | api | total
  | other (name : String)
deriving DecidableEq, Repr

/-- A discount of a tier from a threshold on; zero for `maxDiscount` is no limit. -/
structure VolumeDiscount where
  name : String := ""
  threshold : ℤ := 0
  discountPct : ℚ
  maxDiscount : ℤ := 0
  appliesTo : AppliesTo
deriving DecidableEq, Repr

/-- The prices for an owner. -/
structure PricingTier where
  currency : String := ""
  storagePricing : Option StoragePricing := none
  bandwidthPricing : Option BandwidthPricing := none
  apiPricing : Option APIPricing := none
  discounts : List VolumeDiscount := []
deriving DecidableEq, Repr

/-- How the value of a code is meant. -/
inductive DiscountType where
  | percentage | fixedAmount
  | other (name : String)
deriving DecidableEq, Repr

/-- A discount by code; zero for `maxUses` is no limit. -/
structure Discount where
  code : String := ""
  name : String := ""
  type : DiscountType
  value : ℤ
  appliesTo : AppliesTo
  maxUses : ℤ := 0
  usedCount : ℤ := 0
  validFrom : Time := .zero
  validUntil : Time
  isActive : Bool := false
deriving DecidableEq, Repr

/-- The rate and the name of a tax. -/
structure TaxConfiguration where
  taxRate : ℚ
  taxName : String := ""
deriving DecidableEq, Repr

/-- The charges, discounts and taxes of a bill. -/
structure CostBreakdown where
  storageCosts : Option LineItem := none
  bandwidthCosts : Option LineItem := none
  apiCosts : Option LineItem := none
  discounts : List LineItem := []
  taxes : List LineItem := []
  subtotal : ℤ := 0
  totalDiscounts : ℤ := 0
  totalTaxes : ℤ := 0
  total : ℤ := 0
  currency : String := ""
deriving DecidableEq, Repr

/-- Bytes in GB, with a fraction. -/
def gigabytes (bytes : ℤ) : ℚ := bytes / (1024 * 1024 * 1024)

/-- What is above the free quota. -/
def billable (used : ℚ) (freeQuota : ℤ) : ℚ := max 0 (used - freeQuota)

/-- A line for units at a price; the amount is cut to a whole number. -/
def unitsItem (description unit : String) (units : ℚ) (quantity unitPrice : ℤ) : LineItem where
  description := description
  quantity := quantity
  unit := unit
  unitPrice := unitPrice
  amount := toInt64 (units * unitPrice)

/-- Only storage has a minimum charge. -/
def calculateStoragePerGBMonth (usage : UsageMetrics) (pricing : StoragePricing) : LineItem :=
  let billableGB := billable (gigabytes usage.storageBytes) pricing.freeQuotaGB
  let item := unitsItem "Storage (GB-month)" "GB-month" billableGB ⌈billableGB⌉ pricing.pricePerGBMonth
  if 0 < item.amount ∧ item.amount < pricing.minimumCharge then { item with amount := pricing.minimumCharge } else item

/-- The tiers are not implemented. -/
def calculateStorageTiered := calculateStoragePerGBMonth

/-- Charge storage; an unknown model is that per GB and month. -/
def calculateStorageCosts (usage : UsageMetrics) (pricing : StoragePricing) : LineItem :=
  match pricing.model with
  | .perGBMonth => calculateStoragePerGBMonth usage pricing
  | .tiered => calculateStorageTiered usage pricing
  | .other _ => calculateStoragePerGBMonth usage pricing

/-- Charge bandwidth above the quota. -/
def calculateBandwidthPerGB (usage : UsageMetrics) (pricing : BandwidthPricing) : LineItem :=
  let billableGB := billable (gigabytes usage.bandwidthBytes) pricing.freeQuotaGB
  unitsItem "Bandwidth (GB)" "GB" billableGB ⌈billableGB⌉ pricing.pricePerGB

/-- The tiers are not implemented. -/
def calculateBandwidthTiered := calculateBandwidthPerGB

/-- Charge bandwidth; an unknown model is that per GB. -/
def calculateBandwidthCosts (usage : UsageMetrics) (pricing : BandwidthPricing) : LineItem :=
  match pricing.model with
  | .perGB => calculateBandwidthPerGB usage pricing
  | .tiered => calculateBandwidthTiered usage pricing
  | .other _ => calculateBandwidthPerGB usage pricing

/-- Charge calls above the quota one by one. -/
def calculateAPIPerCall (usage : UsageMetrics) (pricing : APIPricing) : LineItem :=
  let billableCalls := billable usage.apiCalls pricing.freeQuotaCalls
  unitsItem "API Calls" "calls" billableCalls (toInt64 billableCalls) pricing.pricePerCall

/-- Charge calls above the quota by the thousand. -/
def calculateAPIPerThousand (usage : UsageMetrics) (pricing : APIPricing) : LineItem :=
  let thousandCalls := billable usage.apiCalls pricing.freeQuotaCalls / 1000
  unitsItem "API Calls (per 1000)" "thousand calls" thousandCalls ⌈thousandCalls⌉ pricing.pricePerThousand

/-- The tiers are not implemented. -/
def calculateAPITiered := calculateAPIPerThousand

/-- Charge calls; an unknown model is that per thousand. -/
def calculateAPICosts (usage : UsageMetrics) (pricing : APIPricing) : LineItem :=
  match pricing.model with
  | .perCall => calculateAPIPerCall usage pricing
  | .perThousand => calculateAPIPerThousand usage pricing
  | .tiered => calculateAPITiered usage pricing
  | .other _ => calculateAPIPerThousand usage pricing

/-- The line of a discount has a negative amount. -/
def discountItem (description : String) (discountAmount : ℤ) : LineItem where
  description := description
  quantity := 1
  unit := "discount"
  unitPrice := -discountAmount
  amount := -discountAmount

/-- The amount of a line, or nothing. -/
def itemAmount (item : Option LineItem) : ℤ := (item.map LineItem.amount).getD 0

/-- What a discount of the tier is taken from; an unknown target is nothing. -/
def volumeBase (costs : CostBreakdown) : AppliesTo → ℤ
  | .storage => itemAmount costs.storageCosts
  | .bandwidth => itemAmount costs.bandwidthCosts
  | .api => itemAmount costs.apiCosts
  | .total => costs.subtotal
  | .other _ => 0

/-- The amount of a discount of the tier, from its threshold on and up to its maximum. -/
def calculateVolumeDiscountAmount (costs : CostBreakdown) (discount : VolumeDiscount) : ℤ :=
  let applicableAmount := volumeBase costs discount.appliesTo
  if applicableAmount < discount.threshold then 0
  else
    let discountAmount := toInt64 (applicableAmount * discount.discountPct)
    if 0 < discount.maxDiscount ∧ discount.maxDiscount < discountAmount then discount.maxDiscount else discountAmount

/-- The lines of the discounts that are positive. -/
def calculateVolumeDiscounts (costs : CostBreakdown) (discounts : List VolumeDiscount) : List LineItem :=
  discounts.filterMap fun discount =>
    let discountAmount := calculateVolumeDiscountAmount costs discount
    if 0 < discountAmount then some (discountItem ("Volume Discount: " ++ discount.name) discountAmount) else none

/-- What a code is taken from; an unknown target is the subtotal. -/
def codeBase (costs : CostBreakdown) : AppliesTo → ℤ
  | .storage => itemAmount costs.storageCosts
  | .bandwidth => itemAmount costs.bandwidthCosts
  | .api => itemAmount costs.apiCosts
  | .total => costs.subtotal
  | .other _ => costs.subtotal

/-- The amount of a code; a fixed amount is at most what it is taken from. -/
def calculateDiscountAmount (costs : CostBreakdown) (discount : Discount) : Except String ℤ :=
  let applicableAmount := codeBase costs discount.appliesTo
  if applicableAmount ≤ 0 then .ok 0
  else match discount.type with
    | .percentage => .ok (toInt64 (applicableAmount * discount.value / 100))
    | .fixedAmount => .ok (if applicableAmount < discount.value then applicableAmount else discount.value)
    | .other name => .error ("unknown discount type: " ++ name)

/-- One discount in the loop; its end is compared with the total instead of the time. -/
def applyDiscount (costs : CostBreakdown) (discount : Discount) : CostBreakdown :=
  if !discount.isActive then costs
  else if discount.validUntil.unix < costs.total then costs
  else if 0 < discount.maxUses ∧ discount.maxUses ≤ discount.usedCount then costs
  else match calculateDiscountAmount costs discount with
    | .error _ => costs
    | .ok discountAmount =>
      if 0 < discountAmount then
        { costs with
          discounts := costs.discounts ++ [discountItem ("Discount: " ++ discount.name) discountAmount]
          totalDiscounts := costs.totalDiscounts + discountAmount }
      else costs

section

variable (keep : ℤ → ℤ)

/-- The total that all passes end with. -/
def CostBreakdown.recalculate (costs : CostBreakdown) : CostBreakdown :=
  { costs with total := keep (costs.subtotal - costs.totalDiscounts + costs.totalTaxes) }

/-- The charges before any discount. -/
def baseCosts (usage : UsageMetrics) (tier : PricingTier) : CostBreakdown :=
  let storageCosts := tier.storagePricing.map (calculateStorageCosts usage)
  let bandwidthCosts := tier.bandwidthPricing.map (calculateBandwidthCosts usage)
  let apiCosts := tier.apiPricing.map (calculateAPICosts usage)
  { storageCosts := storageCosts, bandwidthCosts := bandwidthCosts, apiCosts := apiCosts
    subtotal := keep (itemAmount storageCosts + itemAmount bandwidthCosts + itemAmount apiCosts)
    currency := tier.currency }

/-- The charges and the discounts of the tier. -/
def calculateUsageCosts (usage : UsageMetrics) (tier : PricingTier) : CostBreakdown :=
  let breakdown := baseCosts keep usage tier
  let volumeDiscounts := calculateVolumeDiscounts breakdown tier.discounts
  CostBreakdown.recalculate keep { breakdown with
    discounts := breakdown.discounts ++ volumeDiscounts
    -- the amounts of the line items are added as they are, with their sign
    totalDiscounts := keep (volumeDiscounts.foldl (fun total discount => total + discount.amount)
      breakdown.totalDiscounts) }

/-- The loop over the codes. -/
def applyDiscounts (costs : CostBreakdown) (discounts : List Discount) : CostBreakdown :=
  let costs := discounts.foldl applyDiscount costs
  CostBreakdown.recalculate keep { costs with totalDiscounts := keep costs.totalDiscounts }

/-- Tax what is left after discounts, if that is positive. -/
def calculateTaxes (costs : CostBreakdown) (taxConfig : TaxConfiguration) : CostBreakdown :=
  if taxConfig.taxRate ≤ 0 then costs
  else
    let taxableAmount := keep (costs.subtotal - costs.totalDiscounts)
    if taxableAmount ≤ 0 then costs
    else
      let taxAmount := toInt64 (taxableAmount * taxConfig.taxRate)
      let item : LineItem :=
        { description := taxConfig.taxName, quantity := 1, unit := "tax", unitPrice := taxAmount, amount := taxAmount }
      let costs :=
        if 0 < taxAmount then
          { costs with taxes := costs.taxes ++ [item], totalTaxes := keep (costs.totalTaxes + taxAmount) }
        else costs
      costs.recalculate keep

end

/-- The settings of the service. -/
structure BillingConfig where
  enabled : Bool
  taxCalculationEnabled : Bool
  defaultPricingTierID : String

/-- A request for the costs of some usage. -/
structure CostCalculationRequest where
  ownerID : String := ""
  tenantID : String := ""
  usage : UsageMetrics
  pricingTier : Option PricingTier := none
  discounts : List Discount := []
  taxConfig : Option TaxConfiguration := none

/-- The costs that are returned. -/
structure CostCalculation where
  ownerID : String
  tenantID : String
  period : TimePeriod
  usage : UsageMetrics
  breakdown : CostBreakdown
  totalAmount : ℤ
  currency : String
  calculatedAt : Time

/-- The three passes over the costs; discounts and taxes are optional in a request. -/
def breakdownFor (config : BillingConfig) (req : CostCalculationRequest) (tier : PricingTier) : CostBreakdown :=
  let breakdown := calculateUsageCosts wrapInt64 req.usage tier
  let breakdown := if req.discounts = [] then breakdown else applyDiscounts wrapInt64 breakdown req.discounts
  match req.taxConfig with
  | some taxConfig => if config.taxCalculationEnabled then calculateTaxes wrapInt64 breakdown taxConfig else breakdown
  | none => breakdown

/-- The costs of a request, with the default tier if it names none. -/
def calculateCosts (config : BillingConfig) (hasCalculator : Bool)
    (getPricingTier : String → Except String PricingTier) (now : Time) (req : CostCalculationRequest) :
    Except String CostCalculation := do
  if !config.enabled then throw "billing service is disabled"
  if !hasCalculator then throw "cost calculator not initialized"
  let pricingTier ← match req.pricingTier with
    | some tier => pure tier
    | none => (getPricingTier config.defaultPricingTierID).mapError ("failed to get default pricing tier: " ++ ·)
  let breakdown := breakdownFor config req pricingTier
  return { ownerID := req.ownerID, tenantID := req.tenantID, period := req.usage.period, usage := req.usage,
           breakdown := breakdown, totalAmount := breakdown.total, currency := breakdown.currency,
           calculatedAt := now }

end IpfsCluster.Model.Billing
