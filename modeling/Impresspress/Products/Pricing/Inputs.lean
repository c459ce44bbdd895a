import Impresspress.Products.Pricing.Offer

/-!
# Inputs

The values that a request gives for an offer's variables are read by the kinds and the bounds of
their definitions. A value that a request leaves out is the default of its variable. Each value has
one normal form, which is recorded with an order.

Dates are read and written by a library; here it is a parameter.

## Main definitions

* `Products.Pricing.Calendar`: what is taken from elsewhere.
* `Products.Pricing.ValidatedValue`: a value that was read, with `normalizedJson` and the
  comparisons with a JSON value.
* `Products.Pricing.parseInput`, `Products.Pricing.validateInputs`: reading values.

Source: `blocks/products/offer_pricing.rs`.
-/

namespace Products

namespace Pricing

open Checked Money

/-- `maxTextLength` when no definition says less. -/
def defaultMaxTextLength : ℕ := 4096

/-- What reads and writes dates, and texts in quotes. -/
structure Calendar where
  Date : Type
  DateTime : Type
  dateOrder : LinearOrder Date
  dateTimeOrder : LinearOrder DateTime
  /-- `NaiveDate::parse_from_str` with `%Y-%m-%d`. -/
  parseDate : String → Option Date
  formatDate : Date → String
  /-- `NaiveDateTime::parse_from_str` with `%Y-%m-%dT%H:%M`. -/
  parseDateTime : String → Option DateTime
  formatDateTime : DateTime → String
  /-- The format `{:?}` of a text. -/
  debug : String → String

attribute [instance] Calendar.dateOrder Calendar.dateTimeOrder

/-! ### Values that were read -/

inductive ValidatedValue (cal : Calendar) where
  | number (value : Decimal)
  | integer (value : I64)
  | boolean (value : Bool)
  | date (value : cal.Date)
  | dateTime (value : cal.DateTime)
  | select (value : String)
  | multiSelect (values : List String)
  | text (value : String)

/-- `Decimal::from_json`. -/
def decimalFromJson : Value → Except String Decimal
  | .number (.int n) => Decimal.parse (toString n)
  | .number (.float printed) => Decimal.parse printed
  | .string value => Decimal.parse value
  | _ => .error "must be a number or decimal string"

namespace ValidatedValue

variable {cal : Calendar}

def normalizedJson : ValidatedValue cal → Value
  | number value => .string value.canonical
  | integer value => .number (.int value)
  | boolean value => .bool value
  | date value => .string (cal.formatDate value)
  | dateTime value => .string (cal.formatDateTime value)
  | select value | text value => .string value
  | multiSelect values => .array (values.map .string)

def decimal : ValidatedValue cal → Option Decimal
  | number value => some value
  | integer value => some (Decimal.fromInteger value)
  | _ => none

def scalar : ValidatedValue cal → Option String
  | select value | text value => some value
  | _ => none

/-- A date that a value is compared with. -/
def comparedDate (cal : Calendar) (expected : Value) : Except String cal.Date := do
  let expected ← okOr expected.asStr "comparison value must be a date"
  okOr (cal.parseDate expected) "comparison value must use YYYY-MM-DD"

def comparedDateTime (cal : Calendar) (expected : Value) : Except String cal.DateTime := do
  let expected ← okOr expected.asStr "comparison value must be a date and time"
  okOr (cal.parseDateTime expected) "comparison value must use YYYY-MM-DDTHH:MM"

def equalsJson (actual : ValidatedValue cal) (expected : Value) : Except String Bool :=
  match actual with
  | number actual => do
    let expected ← decimalFromJson expected
    let order ← actual.compare expected
    return order = .eq
  | integer actual => do
    let expected ← okOr expected.asI64 "comparison value must be an integer"
    return actual = expected
  | boolean actual => do
    let expected ← okOr expected.asBool "comparison value must be a boolean"
    return actual = expected
  | date actual => do
    let expected ← comparedDate cal expected
    return actual = expected
  | dateTime actual => do
    let expected ← comparedDateTime cal expected
    return actual = expected
  | select actual | text actual => do
    let expected ← okOr expected.asStr "comparison value must be text"
    return actual = expected
  | multiSelect actual => do
    let expected ← okOr expected.asArray "comparison value must be a text array"
    let expected ← okOr (expected.mapM Value.asStr) "comparison value must be a text array"
    return actual = expected

def orderedJson (actual : ValidatedValue cal) (expected : Value) : Except String Ordering :=
  match actual with
  | number actual => do
    let expected ← decimalFromJson expected
    actual.compare expected
  | integer actual => do
    let expected ← okOr expected.asI64 "comparison value must be an integer"
    return compare actual.val expected.val
  | date actual => do
    let expected ← comparedDate cal expected
    return compare actual expected
  | dateTime actual => do
    let expected ← comparedDateTime cal expected
    return compare actual expected
  | _ => .error "ordered comparison requires a number, date, or date and time"

end ValidatedValue

/-- The values of an offer's variables. -/
abbrev ValidatedInputs (cal : Calendar) := BTreeMap (ValidatedValue cal)

def ValidatedInputs.normalized {cal : Calendar} (inputs : ValidatedInputs cal) : BTreeMap Value :=
  inputs.map fun _ value => value.normalizedJson

/-! ### Bounds -/

def invalidInput (definition : VariableDefinition) (message : String) : PricingError :=
  ⟨.invalidInput, some definition.key, message⟩

/-- The error of a bound that does not parse. -/
def badDefinition (definition : VariableDefinition) (message : String) : PricingError :=
  ⟨.invalidOffer, some definition.key, s!"invalid variable definition: {message}"⟩

def checkMinimum (definition : VariableDefinition) (value : Decimal) :
    Option Decimal → Except PricingError Unit
  | none => .ok ()
  | some minimum => do
    let comparison ← mapErr (invalidInput definition) (value.compare minimum)
    if comparison = .lt then
      .error (invalidInput definition "is below the minimum")
    else .ok ()

def checkMaximum (definition : VariableDefinition) (value : Decimal) :
    Option Decimal → Except PricingError Unit
  | none => .ok ()
  | some maximum => do
    let comparison ← mapErr (invalidInput definition) (value.compare maximum)
    if comparison = .gt then
      .error (invalidInput definition "is above the maximum")
    else .ok ()

/-- Zero, from which steps count where there is no minimum. -/
def zero : Decimal := Decimal.fromInteger ⟨0, by decide⟩

def checkStep (definition : VariableDefinition) (value : Decimal) (minimum : Option Decimal) :
    Except PricingError Unit :=
  match definition.step with
  | none => .ok ()
  | some step => do
    let step ← mapErr (badDefinition definition) (Decimal.parse step)
    let aligns ← mapErr (badDefinition definition) (value.isStepFrom (minimum.getD zero) step)
    if aligns then .ok ()
    else .error (invalidInput definition "does not align to the configured step")

def validateBounds (definition : VariableDefinition) (value : Decimal) :
    Except PricingError Unit := do
  let minimum ← mapErr (badDefinition definition) (transpose Decimal.parse definition.minimum)
  let maximum ← mapErr (badDefinition definition) (transpose Decimal.parse definition.maximum)
  checkMinimum definition value minimum
  checkMaximum definition value maximum
  checkStep definition value minimum

/-- The bounds of a date or of a date and time, read by `parse`. -/
def validateTimeBounds {Time : Type} [LinearOrder Time] (parse : String → Option Time)
    (format early late : String) (definition : VariableDefinition) (value : Time) :
    Except PricingError Unit := do
  let bound := fun raw =>
    okOr (parse raw) (PricingError.mk .invalidOffer (some definition.key) format)
  let minimum ← transpose bound definition.minimum
  if minimum.any (value < ·) then
    .error (invalidInput definition early)
  else do
    let maximum ← transpose bound definition.maximum
    if maximum.any (· < value) then
      .error (invalidInput definition late)
    else .ok ()

def validateDateBounds (cal : Calendar) (definition : VariableDefinition) (value : cal.Date) :
    Except PricingError Unit :=
  validateTimeBounds cal.parseDate "date bounds must use YYYY-MM-DD" "is before the minimum date"
    "is after the maximum date" definition value

def validateDateTimeBounds (cal : Calendar) (definition : VariableDefinition)
    (value : cal.DateTime) : Except PricingError Unit :=
  validateTimeBounds cal.parseDateTime "date-time bounds must use YYYY-MM-DDTHH:MM"
    "is before the minimum date and time" "is after the maximum date and time" definition value

/-! ### Reading a value -/

/-- `str::parse::<i64>`. -/
def parseI64 (text : String) : Option I64 :=
  let read := Decimal.splitSign text.toList
  if read.2 = [] ∨ ¬ read.2.all Char.isDigit then none
  else
    let value := Decimal.signed read.1 (Text.digitsValue read.2)
    if h : -2 ^ 63 ≤ value ∧ value < 2 ^ 63 then some ⟨value, h⟩ else none

/-- The options of a multi-select; `seen` are those read before. -/
def parseOptions (cal : Calendar) (definition : VariableDefinition) (seen : List String) :
    List Value → Except PricingError (List String)
  | [] => .ok seen
  | value :: values => do
    let value ← okOr value.asStr (invalidInput definition "must contain text options")
    if value ∉ definition.allowedValues then
      .error (invalidInput definition (cal.debug value ++ " is not an allowed option"))
    else if value ∈ seen then
      .error (invalidInput definition (cal.debug value ++ " is duplicated"))
    else parseOptions cal definition (seen ++ [value]) values

def parseInput (cal : Calendar) (definition : VariableDefinition) (value : Value) :
    Except PricingError (ValidatedValue cal) :=
  match definition.kind with
  | .number => do
    let value ← mapErr (invalidInput definition) (decimalFromJson value)
    validateBounds definition value
    return .number value
  | .integer => do
    let value ← okOr (value.asI64.or (value.asStr.bind parseI64))
      (invalidInput definition "must be an integer")
    validateBounds definition (Decimal.fromInteger value)
    return .integer value
  | .boolean => do
    let value ← okOr value.asBool (invalidInput definition "must be a boolean")
    return .boolean value
  | .date => do
    let raw ← okOr value.asStr (invalidInput definition "must be a date")
    let value ← okOr (cal.parseDate raw) (invalidInput definition "must use YYYY-MM-DD")
    validateDateBounds cal definition value
    return .date value
  | .dateTime => do
    let raw ← okOr value.asStr (invalidInput definition "must be a date and time")
    let value ← okOr (cal.parseDateTime raw) (invalidInput definition "must use YYYY-MM-DDTHH:MM")
    validateDateTimeBounds cal definition value
    return .dateTime value
  | .select => do
    let value ← okOr value.asStr (invalidInput definition "must be one text option")
    if value ∉ definition.allowedValues then
      .error (invalidInput definition "is not an allowed option")
    else return .select value
  | .multiSelect => do
    let values ← okOr value.asArray (invalidInput definition "must be an array of options")
    let parsed ← parseOptions cal definition [] values
    return .multiSelect parsed
  | .text => do
    let value ← okOr value.asStr (invalidInput definition "must be text")
    let maximum := min (definition.maximumLength.getD defaultMaxTextLength) defaultMaxTextLength
    if maximum < value.length then
      .error (invalidInput definition s!"must be at most {maximum} characters")
    else return .text value

/-! ### Reading all values -/

/-- Who gives the values: a customer, or an owner or an administrator. -/
inductive InputScope where
  | publicly
  | management
  deriving DecidableEq, Repr

/-- The definitions by their keys; `byKey` holds those that were checked before. -/
def checkDefinitions (byKey : BTreeMap VariableDefinition) :
    List VariableDefinition → Except PricingError (BTreeMap VariableDefinition)
  | [] => .ok byKey
  | definition :: definitions =>
    if isVariableKey definition.key = false then
      .error ⟨.invalidOffer, some definition.key,
        "variable key may contain only letters, numbers, and underscores"⟩
    else if definition.key ∈ byKey then
      .error ⟨.invalidOffer, some definition.key, "variable key is duplicated"⟩
    else if (definition.kind = .select ∨ definition.kind = .multiSelect) ∧
        definition.allowedValues = [] then
      .error ⟨.invalidOffer, some definition.key, "select variables require allowed values"⟩
    else checkDefinitions (byKey.insert definition.key definition) definitions

def validateVariableDefinitions (definitions : List VariableDefinition) :
    Except PricingError (BTreeMap VariableDefinition) :=
  checkDefinitions ∅ definitions

/-- Every key is that of a variable that the caller may give a value for. -/
def checkKeys (byKey : BTreeMap VariableDefinition) (scope : InputScope) :
    List String → Except PricingError Unit
  | [] => .ok ()
  | key :: keys =>
    match byKey[key]? with
    | none => .error ⟨.unknownInput, some key, "input is not defined by the offer"⟩
    | some definition =>
      if scope = .publicly ∧ definition.visibility ≠ .publicly then
        .error ⟨.restrictedInput, some key, "input is not customer-editable"⟩
      else checkKeys byKey scope keys

/-- The values of the variables; `values` holds those that were read before. -/
def readValues (cal : Calendar) (raw : BTreeMap Value) (values : ValidatedInputs cal) :
    List VariableDefinition → Except PricingError (ValidatedInputs cal)
  | [] => .ok values
  | definition :: definitions =>
    match raw[definition.key]?.or definition.defaultValue with
    | some value => do
      let value ← parseInput cal definition value
      readValues cal raw (values.insert definition.key value) definitions
    | none =>
      if definition.required then
        .error ⟨.missingInput, some definition.key, "input is required"⟩
      else readValues cal raw values definitions

def validateInputs (cal : Calendar) (definitions : List VariableDefinition) (raw : BTreeMap Value)
    (scope : InputScope) : Except PricingError (ValidatedInputs cal) := do
  let byKey ← validateVariableDefinitions definitions
  checkKeys byKey scope raw.keys
  readValues cal raw ∅ definitions

end Pricing

end Products
