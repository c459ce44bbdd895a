import Impresspress.Products.Pricing.Inputs

/-!
# Conditions

A condition is evaluated over the values of an offer's variables, from the outside in and from the
left, and no further than its value is known.

Source: `blocks/products/offer_pricing.rs`.
-/

namespace Products

namespace Pricing

open Checked Money

variable {cal : Calendar}

def maxConditionDepth : ℕ := 32

/-- The value of a variable that a rule reads. -/
def input (inputs : ValidatedInputs cal) (key : String) :
    Except PricingError (ValidatedValue cal) :=
  okOr inputs[key]?
    ⟨.conditionInputMissing, some key, "condition references an input with no value"⟩

def invalidCondition (key message : String) : PricingError :=
  ⟨.invalidCondition, some key, message⟩

def orderedComparison (inputs : ValidatedInputs cal) (key : String) (expected : Value) :
    Except PricingError Ordering := do
  let value ← input inputs key
  mapErr (invalidCondition key) (value.orderedJson expected)

def equality (inputs : ValidatedInputs cal) (key : String) (expected : Value) :
    Except PricingError Bool := do
  let value ← input inputs key
  mapErr (invalidCondition key) (value.equalsJson expected)

/-- Whether the value equals one of these. -/
def isOneOf (inputs : ValidatedInputs cal) (key : String) : List Value → Except PricingError Bool
  | [] => .ok false
  | value :: values => do
    let equals ← equality inputs key value
    if equals then .ok true else isOneOf inputs key values

def containment (inputs : ValidatedInputs cal) (key : String) (value : Value) :
    Except PricingError Bool := do
  let expected ← okOr value.asStr (invalidCondition key "contains value must be text")
  let actual ← input inputs key
  match actual with
  | .multiSelect values => .ok (values.contains expected)
  | .text value => .ok (decide (expected.toList <:+: value.toList))
  | _ => .error (invalidCondition key "contains requires text or multi-select input")

mutual

def evaluateConditionAt (inputs : ValidatedInputs cal) (condition : Condition) (depth : ℕ) :
    Except PricingError Bool :=
  if maxConditionDepth < depth then
    .error ⟨.invalidCondition, none, "condition tree is too deeply nested"⟩
  else match condition with
    | .always => .ok true
    | .all conditions => evaluateAll inputs conditions (depth + 1)
    | .any conditions => evaluateAny inputs conditions (depth + 1)
    | .not condition => (evaluateConditionAt inputs condition (depth + 1)).map Bool.not
    | .present key => .ok (decide (key ∈ inputs))
    | .equals key value => equality inputs key value
    | .notEquals key value => (equality inputs key value).map Bool.not
    | .greaterThan key value => (orderedComparison inputs key value).map (· == .gt)
    | .greaterThanOrEqual key value => (orderedComparison inputs key value).map (· != .lt)
    | .lessThan key value => (orderedComparison inputs key value).map (· == .lt)
    | .lessThanOrEqual key value => (orderedComparison inputs key value).map (· != .gt)
    | .isIn key values => isOneOf inputs key values
    | .contains key value => containment inputs key value

/-- Whether all hold; those behind the first that does not are not looked at. -/
def evaluateAll (inputs : ValidatedInputs cal) (conditions : List Condition) (depth : ℕ) :
    Except PricingError Bool :=
  match conditions with
  | [] => .ok true
  | condition :: conditions => do
    let holds ← evaluateConditionAt inputs condition depth
    if holds then evaluateAll inputs conditions depth else .ok false

/-- Whether one holds; those behind the first that does are not looked at. -/
def evaluateAny (inputs : ValidatedInputs cal) (conditions : List Condition) (depth : ℕ) :
    Except PricingError Bool :=
  match conditions with
  | [] => .ok false
  | condition :: conditions => do
    let holds ← evaluateConditionAt inputs condition depth
    if holds then .ok true else evaluateAny inputs conditions depth

end

def evaluateCondition (condition : Condition) (inputs : ValidatedInputs cal) :
    Except PricingError Bool :=
  evaluateConditionAt inputs condition 0

mutual

/-- Whether the variables that a condition reads are among the keys. -/
def conditionKeysExist (keys : BTreeMap VariableDefinition) (condition : Condition) : Bool :=
  match condition with
  | .always => true
  | .all conditions | .any conditions => allKeysExist keys conditions
  | .not condition => conditionKeysExist keys condition
  | .present key | .equals key _ | .notEquals key _ | .greaterThan key _
  | .greaterThanOrEqual key _ | .lessThan key _ | .lessThanOrEqual key _ | .isIn key _
  | .contains key _ => decide (key ∈ keys)

def allKeysExist (keys : BTreeMap VariableDefinition) (conditions : List Condition) : Bool :=
  match conditions with
  | [] => true
  | condition :: conditions => conditionKeysExist keys condition && allKeysExist keys conditions

end

end Pricing

end Products
