import Impresspress.Products.Pricing.Amounts

/-!
# Validating and pricing an offer

An offer is validated when it is written and again before it is priced. Pricing goes through the
components in their order and adds up those whose condition holds.

## Main definitions

* `Products.Pricing.validateOffer`: what an offer has to be.
* `Products.Pricing.evaluateOffer`: the price of an offer for a request.

Source: `blocks/products/offer_pricing.rs`.
-/

namespace Products

namespace Pricing

open Checked Money

variable {cal : Calendar}

/-! ### Validation -/

def invalidOffer (field message : String) : PricingError := ⟨.invalidOffer, some field, message⟩

/-- The loop over the tiers: `previous` is the bound of the last tier passed. -/
def validateTiersFrom (previous : ℕ) : List PricingTier → Except String Unit
  | [] => .ok ()
  | tier :: tiers =>
    if tier.unitAmountMinor < 0 ∨ tier.flatAmountMinor < 0 then
      .error "tier amounts must not be negative"
    else match tier.upTo, tiers with
      | some _, [] => .error "the final tier must be open ended"
      | some upper, _ :: _ =>
        if previous < upper then validateTiersFrom upper tiers
        else .error "tier bounds must be strictly increasing"
      | none, [] => .ok ()
      | none, _ :: _ => .error "only the final tier may be open ended"

def validateTiers (tiers : List PricingTier) : Except String Unit :=
  if tiers = [] then .error "tiers must not be empty" else validateTiersFrom 0 tiers

def recurrenceMatches (mode : OfferMode) (interval : Option RecurringInterval)
    (intervalCount : ℕ) (component : OfferComponent) : Bool :=
  match mode, component.recurrence with
  | .payment, some _ => false
  | .subscription, some recurrence =>
    some recurrence.interval = interval ∧ recurrence.intervalCount = intervalCount
  | _, _ => true

/-- The country codes; `seen` are those checked before. -/
def checkCountries (seen : List String) : List String → Except PricingError Unit
  | [] => .ok ()
  | country :: countries =>
    let code := String.ofList (Text.trim country.toList)
    if code.utf8ByteSize ≠ 2 ∨ ¬ code.toList.all Char.isAlpha then
      .error (invalidOffer "checkout.allowed_shipping_countries"
        "shipping countries must be two-letter country codes")
    else if toAsciiUppercase code ∈ seen then
      .error (invalidOffer "checkout.allowed_shipping_countries"
        "shipping countries must be unique")
    else checkCountries (toAsciiUppercase code :: seen) countries

def checkDeliveryEstimate (field : String) :
    Option ShippingDeliveryEstimate → Except PricingError Unit
  | none => .ok ()
  | some estimate =>
    if estimate.minimum = none ∧ estimate.maximum = none then
      .error (invalidOffer field "a delivery estimate needs a minimum or maximum")
    else if estimate.minimum = some 0 ∨ estimate.maximum = some 0 ∨
        estimate.minimum.any fun minimum => estimate.maximum.any (· < minimum) then
      .error (invalidOffer field "delivery estimates must be positive and ordered")
    else .ok ()

/-- The shipping options from position `index` on. -/
def checkShippingOptions (index : ℕ) : List ShippingOption → Except PricingError Unit
  | [] => .ok ()
  | option :: options => do
    let field := "checkout.shipping_options[" ++ toString index ++ "]"
    let displayName := Text.trim option.displayName.toList
    let stripeId := Text.trim option.stripeShippingRateId.toList
    if displayName = [] ∨ 100 < displayName.length then
      .error (invalidOffer field "shipping option names must contain between 1 and 100 characters")
    else if option.amountMinor < 0 then
      .error (invalidOffer field "shipping amounts must not be negative")
    else if stripeId ≠ [] ∧ (¬ ['s', 'h', 'r', '_'] <+: stripeId ∨
        ¬ stripeId.all fun c => c.isAlphanum || c == '_') then
      .error (invalidOffer field "Stripe shipping rate IDs must start with shr_")
    else do
      checkDeliveryEstimate field option.deliveryEstimate
      checkShippingOptions (index + 1) options

def validateCheckoutPolicy (policy : CheckoutPolicy) : Except PricingError Unit :=
  if policy.minimumTotalMinor.any (· < 0) ∨ policy.maximumTotalMinor.any (· ≤ 0) then
    .error (invalidOffer "checkout.minimum_total_minor"
      "minimum total must not be negative and maximum total must be greater than zero")
  else if policy.minimumTotalMinor.any fun minimum =>
      policy.maximumTotalMinor.any (· < minimum) then
    .error (invalidOffer "checkout.maximum_total_minor"
      "maximum total must be greater than or equal to the minimum total")
  else if 730 < policy.trialDays then
    .error (invalidOffer "checkout.trial_days" "trial days must not exceed 730")
  else if (policy.allowedShippingCountries ≠ [] ∨ policy.shippingOptions ≠ []) ∧
      policy.collectShippingAddress = false then
    .error (invalidOffer "checkout.collect_shipping_address"
      "shipping countries and rates require shipping-address collection")
  else if 50 < policy.allowedShippingCountries.length then
    .error (invalidOffer "checkout.allowed_shipping_countries"
      "at most 50 shipping countries may be configured")
  else do
    checkCountries [] policy.allowedShippingCountries
    if 5 < policy.shippingOptions.length then
      .error (invalidOffer "checkout.shipping_options"
        "Stripe Checkout supports at most five shipping options")
    else checkShippingOptions 0 policy.shippingOptions

/-- Checks the numbers of an amount rule, and gives the variable that it reads. -/
def validateAmount (key : String) : AmountRule → Except PricingError (Option String)
  | .fixed unitAmountMinor =>
    if unitAmountMinor < 0 then
      .error (invalidOffer key "component amount must not be negative")
    else .ok none
  | .perUnit input unitAmountMinor =>
    if unitAmountMinor < 0 then
      .error (invalidOffer key "component amount must not be negative")
    else .ok (some input)
  | .flatPlusPerUnit baseAmountMinor input unitAmountMinor =>
    if baseAmountMinor < 0 ∨ unitAmountMinor < 0 then
      .error (invalidOffer key "component amount must not be negative")
    else .ok (some input)
  | .lookup input prices =>
    if prices.isEmpty ∨ prices.toList.any (·.2 < 0) then
      .error (invalidOffer key "lookup prices must be non-empty and non-negative")
    else .ok (some input)
  | .graduated input tiers | .volume input tiers => do
    mapErr (invalidOffer key) (validateTiers tiers)
    return some input
  | .package input unitsPerPackage packageAmountMinor _ =>
    if unitsPerPackage = 0 ∨ packageAmountMinor < 0 then
      .error (invalidOffer key "package size must be positive and its amount must not be negative")
    else .ok (some input)

def isTiered : AmountRule → Bool
  | .graduated .. | .volume .. => true
  | _ => false

/-- Whether an amount rule reads a variable of this kind. -/
def kindMatches (rule : AmountRule) (kind : Option VariableKind) : Bool :=
  match rule with
  | .lookup .. => kind = some .select ∨ kind = some .text
  | .fixed .. => true
  | _ => kind = some .number ∨ kind = some .integer

/-- The variable that an amount rule reads exists and has its kind. -/
def checkAmountKey (offer : Offer) (keys : BTreeMap VariableDefinition)
    (component : OfferComponent) : Option String → Except PricingError Unit
  | none => .ok ()
  | some key =>
    if key ∉ keys then
      .error (invalidOffer component.key "amount rule references an undefined input")
    else if kindMatches component.amount
        ((offer.variables.find? (·.key = key)).map (·.kind)) = false then
      .error (invalidOffer component.key "amount rule references an incompatible input type")
    else .ok ()

def checkQuantity (offer : Offer) (keys : BTreeMap VariableDefinition)
    (component : OfferComponent) : Except PricingError Unit :=
  match component.quantity with
  | .fixed _ => .ok ()
  | .fromInput input minimum maximum =>
    if input ∉ keys ∨ minimum = 0 ∨ maximum.any (· < minimum) ∨
        ¬ offer.variables.any fun definition =>
          definition.key = input ∧ (definition.kind = .number ∨ definition.kind = .integer) then
      .error (invalidOffer component.key "quantity rule is invalid")
    else .ok ()

/-- The components; `seen` are the keys of those checked before. -/
def checkComponents (offer : Offer) (keys : BTreeMap VariableDefinition) (seen : List String) :
    List OfferComponent → Except PricingError Unit
  | [] => .ok ()
  | component :: components =>
    if component.key ∈ seen ∨ conditionKeysExist keys component.condition = false ∨
        recurrenceMatches offer.mode offer.recurringInterval offer.intervalCount component = false
        then
      .error (invalidOffer component.key "component key, condition, or recurrence is invalid")
    else do
      let amountKey ← validateAmount component.key component.amount
      checkAmountKey offer keys component amountKey
      checkQuantity offer keys component
      checkComponents offer keys (component.key :: seen) components

def validateOffer (offer : Offer) : Except PricingError Unit := do
  let _ ← mapErr (invalidOffer "currency") (normalizeCurrency offer.currency)
  if offer.version = 0 ∨ offer.intervalCount = 0 ∨ offer.components = [] then
    .error ⟨.invalidOffer, none,
      "offer requires a version, interval count, and at least one component"⟩
  else if (offer.mode = .payment ∧ offer.recurringInterval ≠ none) ∨
      (offer.mode = .subscription ∧ offer.recurringInterval = none) then
    .error (invalidOffer "recurring_interval" "recurrence does not match the offer mode")
  else do
    validateCheckoutPolicy offer.checkout
    let keys ← validateVariableDefinitions offer.variables
    checkComponents offer keys [] offer.components
    if offer.components.any (isTiered ·.amount) ∧ offer.billingScheme ≠ .tiered then
      .error (invalidOffer "billing_scheme"
        "graduated and volume rules require the tiered billing scheme")
    else .ok ()

/-! ### Pricing -/

def maxOrderQuantity : ℕ := 1000000

def commerceSchemaVersion : ℕ := 1

/-- The order of the components: by `sort_order`, and by key where these are equal. -/
def componentLe (left right : OfferComponent) : Bool :=
  left.sortOrder < right.sortOrder ∨ (left.sortOrder = right.sortOrder ∧ left.key ≤ right.key)

/-- A component that is left out. -/
def excluded (component : OfferComponent) : ResolvedComponent where
  componentId := component.id
  key := component.key
  label := component.label
  included := false
  required := component.required
  unitAmountMinor := 0
  quantity := 0
  totalAmountMinor := 0
  reason := "condition_not_met"

/-- A component that its condition includes. -/
def resolveIncluded (component : OfferComponent) (inputs : ValidatedInputs cal)
    (requestQuantity : ℕ) : Except PricingError ResolvedComponent := do
  let unitAmount ← resolveAmount component.amount inputs
  let componentQuantity ← resolveQuantity component.quantity inputs
  let quantity ← okOr (u64 (componentQuantity * requestQuantity))
    ⟨.amountOverflow, some component.key, "quantity is too large"⟩
  let signedQuantity ← okOr (i64 quantity)
    ⟨.amountOverflow, some component.key, "quantity is too large"⟩
  let total ← okOr (i64 (unitAmount * signedQuantity)) (tooLarge component.key)
  return {
    componentId := component.id
    key := component.key
    label := component.label
    included := true
    required := component.required
    unitAmountMinor := unitAmount
    quantity := quantity
    totalAmountMinor := total
    reason := "included" }

def resolveComponent (component : OfferComponent) (inputs : ValidatedInputs cal)
    (requestQuantity : ℕ) : Except PricingError ResolvedComponent := do
  let holds ← evaluateCondition component.condition inputs
  if holds then resolveIncluded component inputs requestQuantity
  else return excluded component

/-- The subtotal with a component that is included. -/
def addTotal (key : String) (subtotal : ℤ) (resolved : ResolvedComponent) :
    Except PricingError ℤ :=
  if resolved.included then
    okOr (i64 (subtotal + resolved.totalAmountMinor))
      ⟨.amountOverflow, some key, "offer total is too large"⟩
  else .ok subtotal

/-- The loop over the components: `subtotal` is the total of those before. -/
def resolveComponents (inputs : ValidatedInputs cal) (requestQuantity : ℕ) (subtotal : ℤ) :
    List OfferComponent → Except PricingError (ℤ × List ResolvedComponent)
  | [] => .ok (subtotal, [])
  | component :: components => do
    let resolved ← resolveComponent component inputs requestQuantity
    let subtotal ← addTotal component.key subtotal resolved
    let rest ← resolveComponents inputs requestQuantity subtotal components
    return (rest.1, resolved :: rest.2)

/-- The request is for this offer, and for a quantity that can be ordered. -/
def checkRequest (offer : Offer) (request : PricingPreviewRequest) : Except PricingError Unit :=
  if request.offerId ≠ offer.id then
    .error ⟨.offerMismatch, some "offer_id", "request does not match the loaded offer"⟩
  else if request.quantity = 0 ∨ maxOrderQuantity < request.quantity then
    .error ⟨.invalidQuantity, some "quantity",
      s!"quantity must be between 1 and {maxOrderQuantity}"⟩
  else .ok ()

def checkTotal (policy : CheckoutPolicy) (subtotal : ℤ) : Except PricingError Unit :=
  if subtotal ≤ 0 then
    .error ⟨.invalidTotal, none, "offer total must be greater than zero"⟩
  else if policy.minimumTotalMinor.any (subtotal < ·) then
    .error ⟨.totalBelowMinimum, some "checkout.minimum_total_minor",
      "evaluated item total is below the offer minimum"⟩
  else if policy.maximumTotalMinor.any (· < subtotal) then
    .error ⟨.totalAboveMaximum, some "checkout.maximum_total_minor",
      "evaluated item total is above the offer maximum"⟩
  else .ok ()

/-- The preview with these components and their total. -/
def assemblePreview (offer : Offer) (request : PricingPreviewRequest) (inputs : BTreeMap Value)
    (subtotal : ℤ) (components : List ResolvedComponent) (currency : String) : PricingPreview where
  schemaVersion := commerceSchemaVersion
  offerId := offer.id
  offerVersion := offer.version
  quantity := request.quantity
  inputs := inputs
  components := components
  amounts :=
    { currency := currency
      subtotalMinor := subtotal
      discountMinor := 0
      taxMinor := 0
      shippingMinor := 0
      platformFeeMinor := 0
      totalMinor := subtotal }

def evaluateOffer (cal : Calendar) (offer : Offer) (request : PricingPreviewRequest)
    (scope : InputScope) : Except PricingError PricingPreview := do
  validateOffer offer
  checkRequest offer request
  let inputs ← validateInputs cal offer.variables request.inputs scope
  let ordered := offer.components.mergeSort componentLe
  let resolved ← resolveComponents inputs request.quantity 0 ordered
  checkTotal offer.checkout resolved.1
  -- The currency was validated with the offer.
  let currency ← mapErr (invalidOffer "currency") (normalizeCurrency offer.currency)
  return assemblePreview offer request inputs.normalized resolved.1 resolved.2 currency

end Pricing

end Products
