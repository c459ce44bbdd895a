import Impresspress.Products.Checkout.Forms
import Impresspress.Products.Pricing.Evaluate
import Impresspress.Products.Storage.Columns

/-!
# The rows of an offer

An offer is stored in a row of its own, a row for each variable and a row for each component. A
definition that an administrator or a seller submits is checked and completed to an offer before any
row is written.

## Main definitions

* `Products.Storage.OfferDefinitionRequest`, `Products.Storage.buildOffer`: what is submitted, and
  the offer that it is.
* `Products.Storage.definitionData`, `Products.Storage.Variables.dataFor`,
  `Products.Storage.Components.dataFor`: the columns of the rows.
* `Products.Storage.variableFromRecord`, `Products.Storage.componentFromRecord`: reading rows.

## Main results

* `Products.Storage.variableFromRecord_of_has`, `Products.Storage.componentFromRecord_of_has`: a row
  is read as what it was written for.

Source: `blocks/products/repo/offers.rs`, `blocks/products/repo/variables.rs`,
`blocks/products/repo/offer_components.rs`.
-/

namespace Products

namespace Storage

open Checked Pricing

/-! ### Definitions -/

structure OfferComponentDraft where
  key : String
  label : String
  description : String
  sortOrder : ℤ
  required : Bool
  amount : AmountRule
  quantity : QuantityRule
  condition : Condition
  recurrence : Option ComponentRecurrence
  metadata : BTreeMap Value

structure OfferDefinitionRequest where
  name : String
  mode : OfferMode
  currency : String
  pricingModel : PricingModel
  recurringInterval : Option RecurringInterval
  intervalCount : ℕ
  usageType : UsageType
  billingScheme : BillingScheme
  taxBehavior : TaxBehavior
  «variables» : List VariableDefinition
  components : List OfferComponentDraft
  checkout : CheckoutPolicy

def invalid (message : String) : WaferError := ⟨.invalidArgument, message⟩

/-- The `Display` of a pricing error. -/
def display (error : PricingError) : String :=
  match error.field with
  | some field => field ++ ": " ++ error.message
  | none => error.message

def isBlank (text : String) : Bool := Text.trim text.toList = []

/-- The component of an offer that a draft describes. -/
def componentOf (id : String) (component : OfferComponentDraft) : OfferComponent where
  id := id ++ ":" ++ component.key
  key := component.key
  label := component.label
  description := component.description
  sortOrder := component.sortOrder
  required := component.required
  amount := component.amount
  quantity := component.quantity
  condition := component.condition
  recurrence := component.recurrence
  stripePriceId := ""
  metadata := component.metadata

/-- The offer that a definition describes, in this currency. -/
def offerOf (id productId : String) (version : ℕ) (definition : OfferDefinitionRequest)
    (currency : String) : Offer where
  id := id
  productId := productId
  version := version
  name := String.ofList (Text.trim definition.name.toList)
  mode := definition.mode
  currency := currency
  pricingModel := definition.pricingModel
  recurringInterval := definition.recurringInterval
  intervalCount := definition.intervalCount
  usageType := definition.usageType
  billingScheme := definition.billingScheme
  taxBehavior := definition.taxBehavior
  «variables» := definition.variables
  components := definition.components.map (componentOf id)
  checkout := definition.checkout
  stripeProductId := ""
  stripePriceId := ""

/-- Whether the components are one of a fixed amount. -/
def isOneFixed : List OfferComponentDraft → Bool
  | [component] =>
    match component.amount with
    | .fixed _ => true
    | _ => false
  | _ => false

def buildOffer (id productId : String) (version : ℕ) (definition : OfferDefinitionRequest) :
    Except WaferError Offer :=
  if isBlank definition.name then .error (invalid "offer name is required")
  else if definition.variables.any fun input => isBlank input.key || isBlank input.label then
    .error (invalid "variable keys and labels are required")
  else if definition.components.any fun component =>
      isBlank component.key || isBlank component.label then
    .error (invalid "component keys and labels are required")
  else if definition.pricingModel = .fixed ∧ isOneFixed definition.components = false then
    .error (invalid "fixed pricing requires exactly one fixed-amount component")
  else do
    let currency ← mapErr invalid (Money.normalizeCurrency definition.currency)
    let offer := offerOf id productId version definition currency
    mapErr (fun error => invalid (display error)) (validateOffer offer)
    return offer

/-! ### Enumerations -/

instance : StoredEnum OfferMode where
  all := [.payment, .subscription]
  read := by rintro ⟨⟩ <;> rfl
  nonempty := by rintro ⟨⟩ <;> decide

instance : StoredEnum PricingModel where
  wireEnum
    | .fixed => "fixed"
    | .components => "components"
  all := [.fixed, .components]
  read := by rintro ⟨⟩ <;> rfl
  nonempty := by rintro ⟨⟩ <;> decide

instance : StoredEnum RecurringInterval where
  all := [.day, .week, .month, .year]
  read := by rintro ⟨⟩ <;> rfl
  nonempty := by rintro ⟨⟩ <;> decide

instance : StoredEnum UsageType where
  all := [.licensed, .metered]
  read := by rintro ⟨⟩ <;> rfl
  nonempty := by rintro ⟨⟩ <;> decide

instance : StoredEnum BillingScheme where
  wireEnum
    | .perUnit => "per_unit"
    | .tiered => "tiered"
  all := [.perUnit, .tiered]
  read := by rintro ⟨⟩ <;> rfl
  nonempty := by rintro ⟨⟩ <;> decide

instance : StoredEnum TaxBehavior where
  all := [.unspecified, .inclusive, .exclusive]
  read := by rintro ⟨⟩ <;> rfl
  nonempty := by rintro ⟨⟩ <;> decide

instance : StoredEnum VariableKind where
  wireEnum
    | .number => "number"
    | .integer => "integer"
    | .boolean => "boolean"
    | .date => "date"
    | .dateTime => "date_time"
    | .select => "select"
    | .multiSelect => "multi_select"
    | .text => "text"
  all := [.number, .integer, .boolean, .date, .dateTime, .select, .multiSelect, .text]
  read := by rintro ⟨⟩ <;> rfl
  nonempty := by rintro ⟨⟩ <;> decide

instance : StoredEnum VariableVisibility where
  wireEnum
    | .publicly => "public"
    | .hidden => "hidden"
    | .adminOnly => "admin_only"
  all := [.publicly, .hidden, .adminOnly]
  read := by rintro ⟨⟩ <;> rfl
  nonempty := by rintro ⟨⟩ <;> decide

/-! ### Texts -/

/-- How the parts of an offer are written as JSON, the texts of errors, and texts in quotes. -/
structure Serde where
  value : Codec Value
  texts : Codec (List String)
  amount : Codec AmountRule
  quantity : Codec QuantityRule
  condition : Codec Condition
  recurrence : Codec ComponentRecurrence
  metadata : Codec (BTreeMap Value)
  checkout : Codec CheckoutPolicy
  /-- The error for a text that is no value of an enumeration. -/
  unknownVariant : String → String
  debug : String → String

variable (serde : Serde)

def integer (n : ℤ) : Value := .number (.int n)

/-! ### Variables -/

namespace Variables

def dataFor (offerId : String) (definition : VariableDefinition) : Except WaferError Columns := do
  let maximumLength ← transpose (fun length : ℕ =>
    okOr (i64 length) (invalid "variable maximum_length is too large")) definition.maximumLength
  return [
    ("offer_id", .string offerId),
    ("name", .string definition.key),
    ("var_type", .string (wireEnum definition.kind)),
    ("label", .string definition.label),
    ("help_text", .string definition.helpText),
    ("required", .bool definition.required),
    ("default_value", definition.defaultValue.elim .null fun value =>
      .string (serde.value.toText value)),
    ("allowed_values", .string (serde.texts.toText definition.allowedValues)),
    ("minimum_value", definition.minimum.elim .null .string),
    ("maximum_value", definition.maximum.elim .null .string),
    ("step_value", definition.step.elim .null .string),
    ("maximum_length", maximumLength.elim .null integer),
    ("visibility", .string (wireEnum definition.visibility)),
    ("sort_order", integer definition.sortOrder)]

end Variables

/-- The default of a variable; a text that is not JSON stands for itself. -/
def defaultValue (record : Record) : Option Value :=
  match record.get "default_value" with
  | none | some .null => none
  | some (.string raw) =>
    match serde.value.fromText raw with
    | .ok value => some value
    | .error _ => some (.string raw)
  | some value => some value

def variableFromRecord (record : Record) : Except WaferError VariableDefinition := do
  let kind ← enumColumnOr serde.debug record "var_type" VariableKind.number
  let allowedValues ← jsonText serde.texts [] record "allowed_values" "variable"
  let maximumLength ← transpose (fun length : I64 =>
    okOr (usize length.1) (decodeError "variable" record.id outOfRange))
      ((record.get "maximum_length").bind Value.asI64)
  let visibility ← enumColumnOr serde.debug record "visibility" VariableVisibility.publicly
  let sortOrder ← okOr (i32 (record.i64Field "sort_order"))
    (decodeError "variable" record.id outOfRange)
  return {
    key := record.strField "name"
    kind := kind
    label := (optionalText record "label").getD (record.strField "name")
    helpText := record.strField "help_text"
    required := record.boolField "required"
    defaultValue := defaultValue serde record
    allowedValues := allowedValues
    minimum := optionalText record "minimum_value"
    maximum := optionalText record "maximum_value"
    step := optionalText record "step_value"
    maximumLength := maximumLength
    visibility := visibility
    sortOrder := sortOrder }

/-! ### Components -/

namespace Components

def componentType : AmountRule → String
  | .fixed .. => "fixed"
  | .perUnit .. => "per_unit"
  | .flatPlusPerUnit .. => "flat_plus_per_unit"
  | .lookup .. => "lookup"
  | .graduated .. => "graduated"
  | .volume .. => "volume"
  | .package .. => "package"

def dataFor (offerId : String) (component : OfferComponentDraft) : Except WaferError Columns :=
  .ok [
    ("offer_id", .string offerId),
    ("component_key", .string component.key),
    ("label", .string component.label),
    ("description", .string component.description),
    ("sort_order", integer component.sortOrder),
    ("required", .bool component.required),
    ("component_type", .string (componentType component.amount)),
    ("amount_rule_json", .string (serde.amount.toText component.amount)),
    ("quantity_rule_json", .string (serde.quantity.toText component.quantity)),
    ("condition_json", .string (serde.condition.toText component.condition)),
    ("recurring_json", .string (component.recurrence.elim "\x7b\x7d" serde.recurrence.toText)),
    ("stripe_price_id", .string ""),
    ("metadata", .string (serde.metadata.toText component.metadata))]

end Components

def conditionFromRecord (record : Record) : Except WaferError Condition :=
  if emptyJsonField record "condition_json" then .ok .always
  else requiredJson serde.condition record "condition_json" "offer component"

def recurrenceFromRecord (record : Record) : Except WaferError (Option ComponentRecurrence) :=
  if emptyJsonField record "recurring_json" then .ok none
  else some <$> requiredJson serde.recurrence record "recurring_json" "offer component"

def componentFromRecord (record : Record) : Except WaferError OfferComponent := do
  let condition ← conditionFromRecord serde record
  let recurrence ← recurrenceFromRecord serde record
  let sortOrder ← okOr (i32 (record.i64Field "sort_order"))
    (decodeError "offer component" record.id outOfRange)
  let amount ← requiredJson serde.amount record "amount_rule_json" "offer component"
  let quantity ← jsonText serde.quantity (.fixed 1) record "quantity_rule_json" "offer component"
  let metadata ← jsonText serde.metadata ∅ record "metadata" "offer component"
  return {
    id := record.id
    key := record.strField "component_key"
    label := record.strField "label"
    description := record.strField "description"
    sortOrder := sortOrder
    required := record.boolField "required"
    amount := amount
    quantity := quantity
    condition := condition
    recurrence := recurrence
    stripePriceId := record.strField "stripe_price_id"
    metadata := metadata }

/-! ### Offers -/

/-- The amount of an offer with one fixed price. -/
def unitAmountMinor (offer : Offer) : ℤ :=
  match offer.pricingModel, offer.components.head?.map OfferComponent.amount with
  | .fixed, some (.fixed unitAmountMinor) => unitAmountMinor
  | _, _ => 0

def definitionData (offer : Offer) : Columns := [
  ("version", integer offer.version),
  ("name", .string offer.name),
  ("mode", .string (wireEnum offer.mode)),
  ("currency", .string offer.currency),
  ("pricing_model", .string (wireEnum offer.pricingModel)),
  ("unit_amount_minor", integer (unitAmountMinor offer)),
  ("recurring_interval", .string (offer.recurringInterval.elim "" wireEnum)),
  ("interval_count", integer offer.intervalCount),
  ("usage_type", .string (wireEnum offer.usageType)),
  ("billing_scheme", .string (wireEnum offer.billingScheme)),
  ("tax_behavior", .string (wireEnum offer.taxBehavior)),
  ("trial_days", integer offer.checkout.trialDays),
  ("config_json", .string (serde.checkout.toText offer.checkout)),
  ("stripe_price_id", .string ""),
  ("sync_status", .string "not_synced"),
  ("sync_error", .string "")]

/-! ### Reading what was written -/

variable {serde} {flags : Flags} {record : Record} {data : Columns} {offerId : String}

/-- A variable that can be told from its row. An empty bound is not one: it is read as none. -/
structure StorableVariable (serde : Serde) (definition : VariableDefinition) : Prop where
  minimum : definition.minimum ≠ some ""
  maximum : definition.maximum ≠ some ""
  step : definition.step ≠ some ""
  defaultValue : ∀ value ∈ definition.defaultValue, serde.value.ReadsBack value
  allowedValues : serde.texts.ReadsBack definition.allowedValues
  sortOrder : -2 ^ 31 ≤ definition.sortOrder ∧ definition.sortOrder < 2 ^ 31

theorem i32_eq_some {n : ℤ} (h : -2 ^ 31 ≤ n ∧ n < 2 ^ 31) : i32 n = some n := if_pos h

theorem i64_of_i32 {n : ℤ} (h : -2 ^ 31 ≤ n ∧ n < 2 ^ 31) : -2 ^ 63 ≤ n ∧ n < 2 ^ 63 :=
  ⟨le_trans (by norm_num) h.1, lt_trans h.2 (by norm_num)⟩

/-- An optional text is read back unless it is empty. -/
theorem Record.Has.optionalBound (h : record.Has flags data) {field : String}
    {bound : Option String} (hbound : bound ≠ some "")
    (hmem : (field, bound.elim Value.null Value.string) ∈ data) :
    Storage.optionalText record field = bound := by
  cases bound with
  | none =>
    rw [Storage.optionalText, h.absent hmem]
    rfl
  | some text =>
    exact h.optionalText (fun hempty => hbound (congrArg some hempty)) hmem

theorem Record.Has.defaultValue (h : record.Has flags data) {default : Option Value}
    (hread : ∀ value ∈ default, serde.value.ReadsBack value)
    (hmem : ("default_value", default.elim Value.null fun value =>
      .string (serde.value.toText value)) ∈ data) :
    Storage.defaultValue serde record = default := by
  cases default with
  | none => rw [Storage.defaultValue, h.absent hmem]
  | some value =>
    rw [Storage.defaultValue, h.text hmem]
    dsimp only
    rw [(hread value rfl).fromText]

theorem Record.Has.maximumLength (h : record.Has flags data) {length : Option ℕ}
    {stored : Option ℤ} {error error' : WaferError}
    (hstored : transpose (fun length : ℕ => okOr (i64 length) error) length = .ok stored)
    (hmem : ("maximum_length", stored.elim Value.null integer) ∈ data) :
    transpose (fun length : I64 => okOr (usize length.1) error')
      ((record.get "maximum_length").bind Value.asI64) = .ok length := by
  cases length with
  | none =>
    obtain rfl := Except.ok.inj hstored
    rw [h.absent hmem]
    rfl
  | some length =>
    cases stored with
    | none => cases transpose_eq_ok_none.mp hstored
    | some value =>
      obtain ⟨_, hlength, hvalue⟩ := transpose_eq_ok_some.mp hstored
      cases hlength
      obtain ⟨rfl, hrange⟩ := i64_eq_some_iff.mp (okOr_eq_ok.mp hvalue)
      have husize : usize length = some length := usize_natCast (lt_trans hrange.2 (by norm_num))
      rw [h.get_int hmem, Option.bind_some, asI64_int hrange]
      exact transpose_eq_ok_some.mpr ⟨_, rfl, okOr_eq_ok.mpr husize⟩

/-- A variable is read as it was written. -/
theorem variableFromRecord_of_has {definition : VariableDefinition}
    (hlabel : definition.label ≠ "") (hstorable : StorableVariable serde definition)
    (hdata : Variables.dataFor serde offerId definition = .ok data) (h : record.Has flags data) :
    variableFromRecord serde record = .ok definition := by
  obtain ⟨maximumLength, hlength, hdata⟩ := bind_eq_ok.mp hdata
  cases hdata
  have hkind : enumColumnOr serde.debug record "var_type" VariableKind.number =
      .ok definition.kind := h.enumColumnOr (by simp)
  have hallowed : jsonText serde.texts [] record "allowed_values" "variable" =
      .ok definition.allowedValues := h.jsonText hstorable.allowedValues (by simp)
  have hvisibility : enumColumnOr serde.debug record "visibility" VariableVisibility.publicly =
      .ok definition.visibility := h.enumColumnOr (by simp)
  have hsort : record.i64Field "sort_order" = definition.sortOrder :=
    h.i64Field (by simp [integer]) (i64_of_i32 hstorable.sortOrder)
  have hname : record.strField "name" = definition.key := h.strField (by simp)
  have hlabel' : optionalText record "label" = some definition.label :=
    h.optionalText hlabel (by simp)
  have hhelp : record.strField "help_text" = definition.helpText := h.strField (by simp)
  have hrequired : record.boolField "required" = definition.required := h.boolField (by simp)
  have hdefault : defaultValue serde record = definition.defaultValue :=
    h.defaultValue hstorable.defaultValue (by simp)
  have hminimum : optionalText record "minimum_value" = definition.minimum :=
    h.optionalBound hstorable.minimum (by simp)
  have hmaximum : optionalText record "maximum_value" = definition.maximum :=
    h.optionalBound hstorable.maximum (by simp)
  have hstep : optionalText record "step_value" = definition.step :=
    h.optionalBound hstorable.step (by simp)
  rw [variableFromRecord, hkind, hallowed, h.maximumLength hlength (by simp), hvisibility, hsort,
    i32_eq_some hstorable.sortOrder, hname, hlabel', hhelp, hrequired, hdefault, hminimum, hmaximum,
    hstep]
  rfl

theorem sortOrder_of_has {definition : VariableDefinition}
    (hstorable : StorableVariable serde definition)
    (hdata : Variables.dataFor serde offerId definition = .ok data) (h : record.Has flags data) :
    record.i64Field "sort_order" = definition.sortOrder := by
  obtain ⟨maximumLength, -, hdata⟩ := bind_eq_ok.mp hdata
  cases hdata
  exact h.i64Field (by simp [integer]) (i64_of_i32 hstorable.sortOrder)

/-- A component that can be told from its row; the text of an empty object stands for an absent
value. -/
structure StorableComponent (serde : Serde) (component : OfferComponentDraft) : Prop where
  amount : serde.amount.ReadsBack component.amount
  quantity : serde.quantity.ReadsBack component.quantity
  condition : serde.condition.ReadsBack component.condition
  condition_ne : serde.condition.toText component.condition ≠ "\x7b\x7d"
  recurrence : ∀ recurrence ∈ component.recurrence, serde.recurrence.ReadsBack recurrence ∧
    serde.recurrence.toText recurrence ≠ "\x7b\x7d"
  metadata : serde.metadata.ReadsBack component.metadata
  sortOrder : -2 ^ 31 ≤ component.sortOrder ∧ component.sortOrder < 2 ^ 31

theorem Record.Has.not_emptyJsonField (h : record.Has flags data) {field text : String}
    (hempty : text ≠ "") (hobject : text ≠ "\x7b\x7d") (hmem : (field, .string text) ∈ data) :
    Storage.emptyJsonField record field = false := by
  rw [h.emptyJsonField hmem]
  exact decide_eq_false (not_or.mpr ⟨hempty, hobject⟩)

/-- A recurrence is read back; none is written as an empty object. -/
theorem Record.Has.recurrence (h : record.Has flags data) {recurrence : Option ComponentRecurrence}
    (hread : ∀ value ∈ recurrence, serde.recurrence.ReadsBack value ∧
      serde.recurrence.toText value ≠ "\x7b\x7d")
    (hmem : ("recurring_json",
      Value.string (recurrence.elim "\x7b\x7d" serde.recurrence.toText)) ∈ data) :
    recurrenceFromRecord serde record = .ok recurrence := by
  cases recurrence with
  | none =>
    rw [recurrenceFromRecord, h.emptyJsonField hmem]
    rfl
  | some value =>
    obtain ⟨hread, hobject⟩ := hread value rfl
    rw [recurrenceFromRecord, h.not_emptyJsonField hread.nonempty hobject hmem,
      h.requiredJson hread hmem]
    rfl

/-- A component is read as it was written, and its id is that of the row. -/
theorem componentFromRecord_of_has {component : OfferComponentDraft}
    (hstorable : StorableComponent serde component)
    (hdata : Components.dataFor serde offerId component = .ok data) (h : record.Has flags data) :
    componentFromRecord serde record =
      .ok { componentOf offerId component with id := record.id } := by
  cases hdata
  have hcondition : conditionFromRecord serde record = .ok component.condition := by
    rw [conditionFromRecord,
      h.not_emptyJsonField hstorable.condition.nonempty hstorable.condition_ne (by simp)]
    exact h.requiredJson hstorable.condition (by simp)
  have hrecurrence := h.recurrence hstorable.recurrence (by simp)
  have hamount : requiredJson serde.amount record "amount_rule_json" "offer component" =
      .ok component.amount := h.requiredJson hstorable.amount (by simp)
  have hquantity : jsonText serde.quantity (.fixed 1) record "quantity_rule_json"
      "offer component" = .ok component.quantity := h.jsonText hstorable.quantity (by simp)
  have hmetadata : jsonText serde.metadata ∅ record "metadata" "offer component" =
      .ok component.metadata := h.jsonText hstorable.metadata (by simp)
  have hsort : record.i64Field "sort_order" = component.sortOrder :=
    h.i64Field (by simp [integer]) (i64_of_i32 hstorable.sortOrder)
  have hkey : record.strField "component_key" = component.key := h.strField (by simp)
  have hlabel : record.strField "label" = component.label := h.strField (by simp)
  have hdescription : record.strField "description" = component.description :=
    h.strField (by simp)
  have hrequired : record.boolField "required" = component.required := h.boolField (by simp)
  have hstripe : record.strField "stripe_price_id" = "" := h.strField (by simp)
  rw [componentFromRecord, hcondition, hrecurrence, hsort, i32_eq_some hstorable.sortOrder, hamount,
    hquantity, hmetadata, hkey, hlabel, hdescription, hrequired, hstripe]
  rfl

end Storage

end Products
