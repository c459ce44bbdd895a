import Impresspress.Products.Contracts
import Impresspress.Products.Pricing.Evaluate
import Impresspress.Text.Forms

/-!
# The forms that ask Stripe for a payment

A checkout session and a payment link are asked for with a form. It has a line item for each
component of the preview that is included: either a price of the catalogue of Stripe that the
component was synchronized with, or the amount itself.

## Main definitions

* `Products.Checkout.buildOfferCheckoutForm`, `Products.Checkout.paymentLinkForm`: the forms.
* `Products.Checkout.syncedComponentPrice`: the price that stands for a component.
* `Products.Checkout.validateStripePrice`: whether a price of the catalogue is a component's.

Source: `blocks/products/stripe.rs`.
-/

namespace Products

namespace Checkout

open Text Money Pricing

/-! ### Texts -/

instance : WireEnum OfferMode where
  wireEnum
    | .payment => "payment"
    | .subscription => "subscription"

instance : WireEnum RecurringInterval where
  wireEnum
    | .day => "day"
    | .week => "week"
    | .month => "month"
    | .year => "year"

instance : WireEnum UsageType where
  wireEnum
    | .licensed => "licensed"
    | .metered => "metered"

instance : WireEnum TaxBehavior where
  wireEnum
    | .unspecified => "unspecified"
    | .inclusive => "inclusive"
    | .exclusive => "exclusive"

instance : WireEnum ShippingEstimateUnit where
  wireEnum
    | .hour => "hour"
    | .day => "day"
    | .businessDay => "business_day"
    | .week => "week"
    | .month => "month"

/-- `str::to_ascii_lowercase`. -/
def toAsciiLowercase (text : String) : String := String.ofList (text.toList.map Char.toLower)

def trimmed (text : String) : String := String.ofList (trim text.toList)

/-- Basis points as a percentage without trailing zeros. -/
def percentage (basisPoints : ℕ) : String :=
  let text := (toString (basisPoints / 100)).toList ++ '.' :: padded (basisPoints % 100) 2
  let text := text.rdropWhile (· = '0')
  String.ofList (if text.getLast? = some '.' then text.dropLast else text)

/-! ### Prices of the catalogue -/

/-- The price of the catalogue that a component was synchronized with, if it still is its price. -/
def syncedComponentPrice (offer : Offer) (resolved : ResolvedComponent) : Option String :=
  offer.components.findSome? fun component =>
    let priceId := trim component.stripePriceId.toList
    match component.amount with
    | .fixed unitAmountMinor =>
      if component.id = resolved.componentId ∧ unitAmountMinor = resolved.unitAmountMinor ∧
          "price_".toList <+: priceId then
        some (String.ofList priceId)
      else none
    | _ => none

/-- What a price says of its recurrence. -/
structure StripeRecurring where
  interval : Option String
  intervalCount : Option ℕ
  usageType : Option String
  deriving DecidableEq

/-- What is read of a price of the catalogue. -/
structure StripePrice where
  id : Option String
  livemode : Option Bool
  product : Option String
  currency : Option String
  unitAmount : Option ℤ
  active : Option Bool
  recurring : Option StripeRecurring
  deriving DecidableEq

/-- The price recurs as the offer does. -/
def recurringMatches (offer : Offer) (response : StripePrice) : Bool :=
  match offer.mode with
  | .payment => response.recurring = none
  | .subscription =>
    response.recurring.bind (·.interval) = offer.recurringInterval.map wireEnum ∧
      response.recurring.bind (·.intervalCount) = some offer.intervalCount ∧
        response.recurring.bind (·.usageType) = some (wireEnum offer.usageType)

/-- Whether a price of the catalogue is that of a component with a fixed amount. A component is
given the id of a price only after this check. -/
def validateStripePrice (response : StripePrice) (expectedId : Option String)
    (stripeProductId : String) (offer : Offer) (unitAmountMinor : ℤ) (livemode : Bool)
    (expectedActive : Bool) : Except String String :=
  let id := response.id.getD ""
  if ¬ "price_".toList <+: id.toList ∨ expectedId.any (· ≠ id) ∨
      response.livemode ≠ some livemode ∨ response.product.getD "" ≠ stripeProductId ∨
      eqIgnoreAsciiCase (response.currency.getD "").toList offer.currency.toList = false ∨
      response.unitAmount ≠ some unitAmountMinor ∨ response.active ≠ some expectedActive ∨
      recurringMatches offer response = false then
    .error "Stripe Price response did not match the active immutable offer row"
  else .ok id

/-! ### Shipping -/

/-- The countries that an address is collected for. -/
def shippingCountries (offer : Offer) (platformCountry : Option String) :
    Except String (List String) :=
  if offer.checkout.allowedShippingCountries ≠ [] then
    .ok (offer.checkout.allowedShippingCountries.map fun country =>
      toAsciiUppercase (trimmed country))
  else match platformCountry with
    | some country => .ok [country]
    | none => .error ("this offer collects a shipping address but names no allowed countries; " ++
        "list them on the offer or set IMPRESSPRESS__PRODUCTS__PLATFORM_COUNTRY")

def pushShippingAddressCollection (offer : Offer) (platformCountry : Option String) :
    Except String Form :=
  if offer.checkout.collectShippingAddress = false then .ok []
  else do
    let countries ← shippingCountries offer platformCountry
    return countries.zipIdx.map fun entry =>
      (indexed "shipping_address_collection[allowed_countries]" entry.2, entry.1)

/-- A bound of a delivery estimate with its unit. -/
def estimateFields (key : String) (unit : ShippingEstimateUnit) : Option ℕ → Form
  | none => []
  | some value => [(key ++ "[value]", toString value), (key ++ "[unit]", wireEnum unit)]

/-- A shipping option: the rate of the catalogue, or the rate itself. -/
def shippingOptionFields (option : ShippingOption) (currency : String) : Form :=
  let stripeRate := trimmed option.stripeShippingRateId
  if stripeRate ≠ "" then [("[shipping_rate]", stripeRate)]
  else
    Form.nest "[shipping_rate_data]" ([
      ("[type]", "fixed_amount"),
      ("[display_name]", trimmed option.displayName),
      ("[fixed_amount][amount]", toString option.amountMinor),
      ("[fixed_amount][currency]", currency),
      ("[tax_behavior]", wireEnum option.taxBehavior)] ++
      match option.deliveryEstimate with
      | none => []
      | some estimate =>
        estimateFields "[delivery_estimate][minimum]" estimate.unit estimate.minimum ++
          estimateFields "[delivery_estimate][maximum]" estimate.unit estimate.maximum)

def pushCheckoutShippingOptions (offer : Offer) (currency : String) : Form :=
  Form.entries "shipping_options" 0
    (offer.checkout.shippingOptions.map (shippingOptionFields · currency))

/-- A payment link takes the rates of the catalogue only. -/
def paymentLinkShippingSupported (offer : Offer) : Except String Unit :=
  if offer.checkout.shippingOptions.any fun option => trimmed option.stripeShippingRateId = "" then
    .error ("Payment Links require a Stripe shipping rate ID for every shipping option; " ++
      "use hosted or embedded Checkout for inline fixed rates")
  else .ok ()

/-! ### Line items -/

def recurringFields (offer : Offer) : Except String Form :=
  match offer.mode, offer.recurringInterval with
  | .payment, _ => .ok []
  | .subscription, none => .error "subscription offer is missing recurrence"
  | .subscription, some interval =>
    .ok [("[recurring][interval]", wireEnum interval),
      ("[recurring][interval_count]", toString offer.intervalCount)]

/-- The line item of a component. -/
def lineItem (offer : Offer) (currency productName : String) (component : ResolvedComponent) :
    Except String Form :=
  match syncedComponentPrice offer component with
  | some priceId => .ok [("[price]", priceId), ("[quantity]", toString component.quantity)]
  | none => do
    let recurring ← recurringFields offer
    return Form.nest "[price_data]" ([
        ("[currency]", currency),
        ("[unit_amount]", toString component.unitAmountMinor),
        ("[product_data][name]", productName ++ " — " ++ component.label),
        ("[tax_behavior]", wireEnum offer.taxBehavior)] ++ recurring) ++
      [("[quantity]", toString component.quantity)]

/-- The line items of the components. -/
def lineItems (offer : Offer) (currency productName : String) :
    List ResolvedComponent → Except String (List Form)
  | [] => .ok []
  | component :: components => do
    let item ← lineItem offer currency productName component
    let items ← lineItems offer currency productName components
    return item :: items

/-! ### Fields that both forms have -/

def collectionFields (automaticTax : Bool) (policy : CheckoutPolicy) : Form :=
  (if automaticTax then [("automatic_tax[enabled]", "true")] else []) ++
  (if policy.allowPromotionCodes then [("allow_promotion_codes", "true")] else []) ++
  if policy.collectBillingAddress then [("billing_address_collection", "required")] else []

def customerFields (offer : Offer) : Form :=
  (if offer.checkout.createCustomer ∧ offer.mode = .payment then
    [("customer_creation", "always")] else []) ++
  (if offer.checkout.requireTermsConsent then
    [("consent_collection[terms_of_service]", "required")] else []) ++
  if offer.mode = .subscription ∧ 0 < offer.checkout.trialDays then
    [("subscription_data[trial_period_days]", toString offer.checkout.trialDays)] else []

/-- The fee: an amount of a payment, and a percentage of a subscription. -/
def feeFields (offer : Offer) (amountKey percentKey : String) (feeMinor : ℤ)
    (feeBasisPoints : ℕ) : Form :=
  if 0 < feeMinor then
    match offer.mode with
    | .payment => [(amountKey, toString feeMinor)]
    | .subscription => [(percentKey, percentage feeBasisPoints)]
  else []

/-! ### Checkout sessions -/

inductive CheckoutPresentation where
  | hosted
  | embedded
  | paymentLink
  deriving DecidableEq, Repr

/-- What the form takes of a request for a checkout. -/
structure CheckoutRequest where
  presentation : CheckoutPresentation
  buyerEmail : Option String

/-- The order and the offer, for the session and for what is charged. -/
def orderFields (offer : Offer) (orderId : String) : Form :=
  let provider := match offer.mode with
    | .payment => "payment_intent_data[metadata]"
    | .subscription => "subscription_data[metadata]"
  [("payment_method_types[]", "card"),
    ("mode", wireEnum offer.mode),
    ("client_reference_id", orderId),
    ("metadata[purchase_id]", orderId),
    ("metadata[offer_id]", offer.id),
    ("metadata[offer_version]", toString offer.version),
    (provider ++ "[purchase_id]", orderId),
    (provider ++ "[offer_id]", offer.id),
    (provider ++ "[offer_version]", toString offer.version)]

def emailFields (request : CheckoutRequest) : Form :=
  match (request.buyerEmail.map trimmed).filter (· ≠ "") with
  | none => []
  | some email => [("customer_email", email)]

def presentationFields (successUrl cancelUrl : String) :
    CheckoutPresentation → Except String Form
  | .hosted => .ok [("success_url", successUrl), ("cancel_url", cancelUrl)]
  | .embedded => .ok [("ui_mode", "embedded"), ("return_url", successUrl)]
  | .paymentLink =>
    .error "payment_link checkout requires a synchronized fixed offer or preset"

def buildOfferCheckoutForm (offer : Offer) (preview : PricingPreview)
    (productName orderId : String) (request : CheckoutRequest) (successUrl cancelUrl : String)
    (automaticTax : Bool) (platformCountry : Option String) (feeMinor : ℤ)
    (feeBasisPoints : ℕ) : Except String Form := do
  let presentation ← presentationFields successUrl cancelUrl request.presentation
  let address ← pushShippingAddressCollection offer platformCountry
  let currency := toAsciiLowercase preview.amounts.currency
  let items ← lineItems offer currency productName (preview.components.filter (·.included))
  if items = [] then .error "checkout has no included line items"
  else
    return orderFields offer orderId ++ emailFields request ++ presentation ++
      collectionFields automaticTax offer.checkout ++ address ++
      pushCheckoutShippingOptions offer currency ++ customerFields offer ++
      feeFields offer "payment_intent_data[application_fee_amount]"
        "subscription_data[application_fee_percent]" feeMinor feeBasisPoints ++
      Form.entries "line_items" 0 items

/-! ### Payment links -/

def linkFields (offer : Offer) (presetId : String) (afterCompletionUrl : Option String) : Form :=
  [("metadata[offer_id]", offer.id), ("metadata[offer_version]", toString offer.version)] ++
  (if presetId ≠ "" then [("metadata[preset_id]", presetId)] else []) ++
  match afterCompletionUrl with
  | some url => [("after_completion[type]", "redirect"), ("after_completion[redirect][url]", url)]
  | none => [("after_completion[type]", "hosted_confirmation")]

def paymentLinkForm (offer : Offer) (preview : PricingPreview) (productName presetId : String)
    (afterCompletionUrl : Option String) (automaticTax : Bool) (platformCountry : Option String)
    (feeMinor : ℤ) (feeBasisPoints : ℕ) : Except String Form := do
  let included := preview.components.filter (·.included)
  if included = [] ∨ 20 < included.length then
    .error "Payment Links require between 1 and 20 included line items"
  else do
    let address ← pushShippingAddressCollection offer platformCountry
    paymentLinkShippingSupported offer
    let currency := toAsciiLowercase preview.amounts.currency
    let items ← lineItems offer currency productName included
    return linkFields offer presetId afterCompletionUrl ++
      collectionFields automaticTax offer.checkout ++ address ++
      Form.entries "shipping_options" 0 (offer.checkout.shippingOptions.map fun option =>
        [("[shipping_rate]", trimmed option.stripeShippingRateId)]) ++
      customerFields offer ++
      feeFields offer "application_fee_amount" "application_fee_percent" feeMinor
        feeBasisPoints ++
      Form.entries "line_items" 0 items

end Checkout

end Products
