import Impresspress.Products.Money

/-!
# Offers

An offer has variables, which a customer gives values for, and components, whose amounts, quantities
and conditions are rules over these values. A preview is the offer priced for a request.

Machine integers are integers; whether a type holds them is checked where the code checks it. A JSON
number that is a binary fraction is the text that is printed of it.

## Main definitions

* `Products.Pricing.Value`, `Products.Pricing.Condition`, `Products.Pricing.AmountRule`,
  `Products.Pricing.QuantityRule`: what an offer is written in.
* `Products.Pricing.Offer`, `Products.Pricing.PricingPreview`: an offer and its price.

Source: `blocks/products/contracts.rs`.
-/

namespace Products

namespace Pricing

/-- A map with sorted keys. -/
abbrev BTreeMap (α : Type) := Std.ExtTreeMap String α compare

/-! ### JSON values -/

inductive Number where
  | int (n : ℤ)
  | float (printed : String)
  deriving DecidableEq

inductive Value where
  | null
  | bool (b : Bool)
  | number (n : Number)
  | string (s : String)
  | array (values : List Value)
  | object (fields : List (String × Value))

namespace Value

def asBool : Value → Option Bool
  | bool b => some b
  | _ => none

/-- The number, where it is an integer that an `i64` holds. -/
def asI64 : Value → Option Checked.I64
  | number (.int n) => if h : -2 ^ 63 ≤ n ∧ n < 2 ^ 63 then some ⟨n, h⟩ else none
  | _ => none

def asStr : Value → Option String
  | string s => some s
  | _ => none

def asArray : Value → Option (List Value)
  | array values => some values
  | _ => none

end Value

/-! ### Modes and kinds -/

inductive OfferMode where
  | payment
  | subscription
  deriving DecidableEq, Repr

inductive PricingModel where
  | fixed
  | components
  deriving DecidableEq, Repr

inductive RecurringInterval where
  | day
  | week
  | month
  | year
  deriving DecidableEq, Repr

inductive UsageType where
  | licensed
  | metered
  deriving DecidableEq, Repr

inductive BillingScheme where
  | perUnit
  | tiered
  deriving DecidableEq, Repr

inductive TaxBehavior where
  | unspecified
  | inclusive
  | exclusive
  deriving DecidableEq, Repr

inductive ShippingEstimateUnit where
  | hour
  | day
  | businessDay
  | week
  | month
  deriving DecidableEq, Repr

inductive VariableKind where
  | number
  | integer
  | boolean
  | date
  | dateTime
  | select
  | multiSelect
  | text
  deriving DecidableEq, Repr

inductive VariableVisibility where
  | publicly
  | hidden
  | adminOnly
  deriving DecidableEq, Repr

/-! ### Variables -/

/-- Letters, digits and underscores. -/
def isVariableKey (key : String) : Bool :=
  key ≠ "" ∧ key.toList.all fun c => c.isAlphanum || c == '_'

structure VariableDefinition where
  key : String
  kind : VariableKind
  label : String
  helpText : String
  required : Bool
  defaultValue : Option Value
  allowedValues : List String
  minimum : Option String
  maximum : Option String
  step : Option String
  maximumLength : Option ℕ
  visibility : VariableVisibility
  sortOrder : ℤ

/-! ### Components -/

inductive Condition where
  | always
  | all (conditions : List Condition)
  | any (conditions : List Condition)
  | not (condition : Condition)
  | present (input : String)
  | equals (input : String) (value : Value)
  | notEquals (input : String) (value : Value)
  | greaterThan (input : String) (value : Value)
  | greaterThanOrEqual (input : String) (value : Value)
  | lessThan (input : String) (value : Value)
  | lessThanOrEqual (input : String) (value : Value)
  | isIn (input : String) (values : List Value)
  | contains (input : String) (value : Value)

/-- Units up to an inclusive bound; only the last tier has none. -/
structure PricingTier where
  upTo : Option ℕ
  unitAmountMinor : ℤ
  flatAmountMinor : ℤ
  deriving DecidableEq

inductive PackageRounding where
  | up
  | exact
  deriving DecidableEq, Repr

inductive AmountRule where
  | fixed (unitAmountMinor : ℤ)
  | perUnit (input : String) (unitAmountMinor : ℤ)
  | flatPlusPerUnit (baseAmountMinor : ℤ) (input : String) (unitAmountMinor : ℤ)
  | lookup (input : String) (prices : BTreeMap ℤ)
  | graduated (input : String) (tiers : List PricingTier)
  | volume (input : String) (tiers : List PricingTier)
  | package (input : String) (unitsPerPackage : ℕ) (packageAmountMinor : ℤ)
      (rounding : PackageRounding)

inductive QuantityRule where
  | fixed (value : ℕ)
  | fromInput (input : String) (minimum : ℕ) (maximum : Option ℕ)
  deriving DecidableEq

structure ComponentRecurrence where
  interval : RecurringInterval
  intervalCount : ℕ
  deriving DecidableEq

structure OfferComponent where
  id : String
  key : String
  label : String
  description : String
  sortOrder : ℤ
  required : Bool
  amount : AmountRule
  quantity : QuantityRule
  condition : Condition
  recurrence : Option ComponentRecurrence
  stripePriceId : String
  metadata : BTreeMap Value

/-! ### Offers -/

structure ShippingDeliveryEstimate where
  minimum : Option ℕ
  maximum : Option ℕ
  unit : ShippingEstimateUnit
  deriving DecidableEq

structure ShippingOption where
  displayName : String
  amountMinor : ℤ
  taxBehavior : TaxBehavior
  deliveryEstimate : Option ShippingDeliveryEstimate
  stripeShippingRateId : String
  deriving DecidableEq

structure CheckoutPolicy where
  minimumTotalMinor : Option ℤ
  maximumTotalMinor : Option ℤ
  allowPromotionCodes : Bool
  automaticTax : Bool
  collectBillingAddress : Bool
  collectShippingAddress : Bool
  allowedShippingCountries : List String
  shippingOptions : List ShippingOption
  createCustomer : Bool
  requireTermsConsent : Bool
  trialDays : ℕ
  deriving DecidableEq

structure Offer where
  id : String
  productId : String
  version : ℕ
  name : String
  mode : OfferMode
  currency : String
  pricingModel : PricingModel
  recurringInterval : Option RecurringInterval
  intervalCount : ℕ
  usageType : UsageType
  billingScheme : BillingScheme
  taxBehavior : TaxBehavior
  «variables» : List VariableDefinition
  components : List OfferComponent
  checkout : CheckoutPolicy
  stripeProductId : String
  stripePriceId : String

/-! ### Requests and previews -/

structure PricingPreviewRequest where
  offerId : String
  quantity : ℕ
  inputs : BTreeMap Value

structure ResolvedComponent where
  componentId : String
  key : String
  label : String
  included : Bool
  required : Bool
  unitAmountMinor : ℤ
  quantity : ℕ
  totalAmountMinor : ℤ
  reason : String
  deriving DecidableEq

structure MoneyBreakdown where
  currency : String
  subtotalMinor : ℤ
  discountMinor : ℤ
  taxMinor : ℤ
  shippingMinor : ℤ
  platformFeeMinor : ℤ
  totalMinor : ℤ
  deriving DecidableEq

structure PricingPreview where
  schemaVersion : ℕ
  offerId : String
  offerVersion : ℕ
  quantity : ℕ
  inputs : BTreeMap Value
  components : List ResolvedComponent
  amounts : MoneyBreakdown

/-! ### Errors -/

inductive ErrorCode where
  | invalidInput
  | invalidOffer
  | invalidCondition
  | unknownInput
  | restrictedInput
  | missingInput
  | conditionInputMissing
  | amountOverflow
  | offerMismatch
  | invalidQuantity
  | invalidTotal
  | totalBelowMinimum
  | totalAboveMaximum
  deriving DecidableEq, Repr

structure PricingError where
  code : ErrorCode
  field : Option String
  message : String
  deriving DecidableEq, Repr

end Pricing

end Products
