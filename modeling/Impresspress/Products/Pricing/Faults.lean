import Impresspress.Checked.Failures
import Impresspress.Products.Pricing.Replay

/-!
# Faults of an accepted offer

The validation of an offer does not read the bounds and the steps of its variables, the values that
its conditions compare with, how deep they are nested, or a fixed quantity. Pricing an offer that was
accepted fails with a complaint about the offer exactly if it comes upon a fault of these kinds.

## Main definitions

* `Products.Pricing.BoundsFault`, `Products.Pricing.TimeFault`: bounds that cannot be read or used.
* `Products.Pricing.ConditionFault`: a comparison in a condition that cannot be made.
* `Products.Pricing.PricingFault`: pricing comes upon a fault.

## Main results

* `Products.Pricing.failsWith_evaluateConditionAt`, `Products.Pricing.failsWith_parseInput`: when a
  condition and a value complain about the offer.
* `Products.Pricing.not_failsWith_resolveAmount`: the amounts of an accepted offer do not.
-/

namespace Products

namespace Pricing

open Checked Money

variable {cal : Calendar} {inputs : ValidatedInputs cal}

/-- An error that blames the offer. -/
def BlamesOffer (e : PricingError) : Prop := e.code = .invalidOffer ∨ e.code = .invalidCondition

instance (e : PricingError) : Decidable (BlamesOffer e) := inferInstanceAs (Decidable (_ ∨ _))

/-! ### Values -/

/-- A bound does not parse, or the step of a value within the bounds cannot be used. -/
inductive BoundsFault (definition : VariableDefinition) (value : Decimal) : Prop
  | minimum {text e} (hminimum : definition.minimum = some text)
      (hparse : Decimal.parse text = .error e)
  | maximum {text e} (hmaximum : definition.maximum = some text)
      (hparse : Decimal.parse text = .error e)
  | step {minimum maximum text} (hminimum : transpose Decimal.parse definition.minimum = .ok minimum)
      (hmaximum : transpose Decimal.parse definition.maximum = .ok maximum)
      (habove : checkMinimum definition value minimum = .ok ())
      (hbelow : checkMaximum definition value maximum = .ok ())
      (hstep : definition.step = some text)
      (hparse : ∀ step, Decimal.parse text = .ok step →
        ∃ e, value.isStepFrom (minimum.getD zero) step = .error e)

/-- A bound of a time is not one. -/
inductive TimeFault {Time : Type} [LinearOrder Time] (parse : String → Option Time)
    (definition : VariableDefinition) (value : Time) : Prop
  | minimum {text} (hminimum : definition.minimum = some text) (hparse : parse text = none)
  | maximum {text} (habove : ∀ bound ∈ definition.minimum.bind parse, bound ≤ value)
      (hmaximum : definition.maximum = some text) (hparse : parse text = none)

/-- A value is read, but not its bounds. -/
def InputFault (cal : Calendar) (definition : VariableDefinition) (value : Value) : Prop :=
  match definition.kind with
  | .number => ∃ decimal, decimalFromJson value = .ok decimal ∧ BoundsFault definition decimal
  | .integer => ∃ integer, value.asI64.or (value.asStr.bind parseI64) = some integer ∧
      BoundsFault definition (Decimal.fromInteger integer)
  | .date => ∃ date, value.asStr.bind cal.parseDate = some date ∧
      TimeFault cal.parseDate definition date
  | .dateTime => ∃ dateTime, value.asStr.bind cal.parseDateTime = some dateTime ∧
      TimeFault cal.parseDateTime definition dateTime
  | _ => False

variable {definition : VariableDefinition}

theorem failsWith_transpose {ε α β : Type} {bad : ε → Prop} {f : α → Except ε β} {value : Option α} :
    FailsWith bad (transpose f value) ↔ ∃ a, value = some a ∧ FailsWith bad (f a) := by
  simp only [FailsWith, transpose_eq_error]
  constructor
  · rintro ⟨e, ⟨a, ha, hf⟩, hbad⟩
    exact ⟨a, ha, e, hf, hbad⟩
  · rintro ⟨a, ha, e, hf, hbad⟩
    exact ⟨e, ⟨a, ha, hf⟩, hbad⟩

theorem blamesOffer_badDefinition (message : String) :
    BlamesOffer (badDefinition definition message) := .inl rfl

theorem not_blamesOffer_invalidInput (message : String) :
    ¬ BlamesOffer (invalidInput definition message) := by
  rintro (h | h) <;> cases h

theorem not_failsWith_checkMinimum {value : Decimal} {minimum : Option Decimal} :
    ¬ FailsWith BlamesOffer (checkMinimum definition value minimum) := by
  cases minimum with
  | none => exact failsWith_ok.mp
  | some minimum =>
    rw [checkMinimum, failsWith_bind, failsWith_mapErr]
    simp only [not_blamesOffer_invalidInput, failsWith_guard, failsWith_ok, and_false, or_false,
      exists_false]
    exact not_failsWith_false

theorem not_failsWith_checkMaximum {value : Decimal} {maximum : Option Decimal} :
    ¬ FailsWith BlamesOffer (checkMaximum definition value maximum) := by
  cases maximum with
  | none => exact failsWith_ok.mp
  | some maximum =>
    rw [checkMaximum, failsWith_bind, failsWith_mapErr]
    simp only [not_blamesOffer_invalidInput, failsWith_guard, failsWith_ok, and_false, or_false,
      exists_false]
    exact not_failsWith_false

theorem failsWith_checkStep {value : Decimal} {minimum : Option Decimal} :
    FailsWith BlamesOffer (checkStep definition value minimum) ↔
      ∃ text, definition.step = some text ∧ ∀ step, Decimal.parse text = .ok step →
        ∃ e, value.isStepFrom (minimum.getD zero) step = .error e := by
  unfold checkStep
  cases hstep : definition.step with
  | none => exact iff_of_false failsWith_ok.mp fun h => nomatch h.choose_spec.1
  | some text =>
    have hlast : ∀ aligns : Bool, ¬ FailsWith BlamesOffer (if aligns then .ok () else
        .error (invalidInput definition "does not align to the configured step")) := by
      intro aligns
      cases aligns with
      | true => exact failsWith_ok.mp
      | false => exact fun h => not_blamesOffer_invalidInput _ (failsWith_error.mp h)
    simp only [failsWith_bind, failsWith_mapErr, blamesOffer_badDefinition, failsWith_true_iff,
      mapErr_eq_ok, hlast, and_false, exists_false, or_false, Option.some.injEq, exists_eq_left']
    cases hparse : Decimal.parse text with
    | error e => exact iff_of_true (.inl ⟨e, rfl⟩) fun _ hstep => by cases hstep
    | ok step =>
      constructor
      · rintro (⟨e, he⟩ | ⟨other, hother, herror⟩)
        · cases he
        · obtain rfl := Except.ok.inj hother
          exact fun same hsame => Except.ok.inj hsame ▸ herror
      · exact fun h => .inr ⟨step, rfl, h step rfl⟩

theorem failsWith_validateBounds {value : Decimal} :
    FailsWith BlamesOffer (validateBounds definition value) ↔ BoundsFault definition value := by
  unfold validateBounds
  simp only [failsWith_bind, failsWith_mapErr, blamesOffer_badDefinition, failsWith_true_iff,
    transpose_eq_error, mapErr_eq_ok, not_failsWith_checkMinimum, not_failsWith_checkMaximum,
    failsWith_checkStep, false_or]
  constructor
  · rintro (⟨e, text, hminimum, hparse⟩ | ⟨minimum, hminimum, ⟨e, text, hmaximum, hparse⟩ |
      ⟨maximum, hmaximum, _, habove, _, hbelow, text, hstep, hparse⟩⟩)
    · exact .minimum hminimum hparse
    · exact .maximum hmaximum hparse
    · exact .step hminimum hmaximum habove hbelow hstep hparse
  · rintro (⟨hminimum, hparse⟩ | ⟨hmaximum, hparse⟩ |
      ⟨hminimum, hmaximum, habove, hbelow, hstep, hparse⟩)
    · exact .inl ⟨_, _, hminimum, hparse⟩
    · cases hminimum : transpose Decimal.parse definition.minimum with
      | error e =>
        obtain ⟨text, htext, herror⟩ := transpose_eq_error.mp hminimum
        exact .inl ⟨e, text, htext, herror⟩
      | ok minimum => exact .inr ⟨minimum, rfl, .inl ⟨_, _, hmaximum, hparse⟩⟩
    · exact .inr ⟨_, hminimum, .inr ⟨_, hmaximum, (), habove, (), hbelow, _, hstep, hparse⟩⟩

variable {Time : Type} [LinearOrder Time] {parse : String → Option Time}

theorem failsWith_validateTimeBounds {format early late : String} {value : Time} :
    FailsWith BlamesOffer (validateTimeBounds parse format early late definition value) ↔
      TimeFault parse definition value := by
  have hbound : ∀ bound : Option String, FailsWith BlamesOffer (transpose (fun raw =>
      okOr (parse raw) (PricingError.mk .invalidOffer (some definition.key) format)) bound) ↔
        ∃ text, bound = some text ∧ parse text = none := fun bound => by
    simp only [failsWith_transpose, failsWith_okOr, BlamesOffer, true_or, and_true]
  have hread : ∀ (bound : Option String) (time : Option Time), transpose (fun raw =>
      okOr (parse raw) (PricingError.mk .invalidOffer (some definition.key) format)) bound = .ok time ↔
        (∀ text, bound = some text → parse text ≠ none) ∧ time = bound.bind parse := by
    intro bound time
    cases bound with
    | none => exact ⟨fun h => ⟨(fun _ h => by cases h), (Except.ok.inj h).symm⟩, fun h => congrArg _ h.2.symm⟩
    | some text =>
      cases hparse : parse text <;> simp [transpose, hparse, okOr, Except.map, eq_comm]
  unfold validateTimeBounds
  simp only [failsWith_bind, hbound, hread, failsWith_guard, not_blamesOffer_invalidInput, and_false,
    false_or, failsWith_ok, exists_false, or_false, Option.any_eq_true, decide_eq_true_eq,
    not_exists, not_and, not_lt]
  constructor
  · rintro (⟨text, hminimum, hparse⟩ | ⟨_, ⟨-, rfl⟩, habove, text, hmaximum, hparse⟩)
    · exact .minimum hminimum hparse
    · exact .maximum habove hmaximum hparse
  · rintro (⟨hminimum, hparse⟩ | ⟨habove, hmaximum, hparse⟩)
    · exact .inl ⟨_, hminimum, hparse⟩
    · by_cases hminimum : ∀ text, definition.minimum = some text → parse text ≠ none
      · exact .inr ⟨_, ⟨hminimum, rfl⟩, habove, _, hmaximum, hparse⟩
      · push Not at hminimum
        exact .inl hminimum

theorem not_failsWith_parseOptions {seen : List String} {values : List Value} :
    ¬ FailsWith BlamesOffer (parseOptions cal definition seen values) := by
  induction values generalizing seen with
  | nil => exact failsWith_ok.mp
  | cons value values ih =>
    rw [parseOptions, failsWith_bind]
    simp only [failsWith_okOr, failsWith_guard, not_blamesOffer_invalidInput, ih, and_false,
      or_false, exists_false, not_false_eq_true]

/-- Reading a value blames the offer exactly if its bounds cannot be read. -/
theorem failsWith_parseInput {value : Value} :
    FailsWith BlamesOffer (parseInput cal definition value) ↔ InputFault cal definition value := by
  unfold parseInput InputFault
  cases definition.kind <;> dsimp only
  case number =>
    simp only [failsWith_bind, failsWith_mapErr, not_blamesOffer_invalidInput, not_failsWith_false,
      mapErr_eq_ok, failsWith_validateBounds, failsWith_pure, and_false, exists_false, or_false,
      false_or]
  case integer =>
    simp only [failsWith_bind, failsWith_okOr, not_blamesOffer_invalidInput, okOr_eq_ok,
      failsWith_validateBounds, failsWith_pure, and_false, exists_false, or_false, false_or]
  case date =>
    simp only [failsWith_bind, failsWith_okOr, not_blamesOffer_invalidInput, okOr_eq_ok,
      validateDateBounds, failsWith_validateTimeBounds, failsWith_pure, and_false, exists_false,
      or_false, false_or, Option.bind_eq_some_iff]
    tauto
  case dateTime =>
    simp only [failsWith_bind, failsWith_okOr, not_blamesOffer_invalidInput, okOr_eq_ok,
      validateDateTimeBounds, failsWith_validateTimeBounds, failsWith_pure, and_false, exists_false,
      or_false, false_or, Option.bind_eq_some_iff]
    tauto
  all_goals
    simp only [failsWith_bind, failsWith_okOr, failsWith_guard, not_blamesOffer_invalidInput,
      not_failsWith_parseOptions, failsWith_pure, and_false, exists_false, or_false]

/-- A value that is given is read, and its bounds cannot be; the values ahead of it are read. -/
def ReadFault (cal : Calendar) (raw : BTreeMap Value) : List VariableDefinition → Prop
  | [] => False
  | definition :: definitions =>
    match raw[definition.key]?.or definition.defaultValue with
    | some value => InputFault cal definition value ∨
        (∃ read, parseInput cal definition value = .ok read) ∧ ReadFault cal raw definitions
    | none => definition.required = false ∧ ReadFault cal raw definitions

theorem failsWith_readValues {raw : BTreeMap Value} {values : ValidatedInputs cal}
    {definitions : List VariableDefinition} :
    FailsWith BlamesOffer (readValues cal raw values definitions) ↔
      ReadFault cal raw definitions := by
  induction definitions generalizing values with
  | nil => exact failsWith_ok
  | cons definition definitions ih =>
    rw [readValues, ReadFault]
    cases raw[definition.key]?.or definition.defaultValue with
    | none =>
      have hmissing : ¬ BlamesOffer ⟨.missingInput, some definition.key, "input is required"⟩ := by
        simp [BlamesOffer]
      simp only [failsWith_guard, hmissing, and_false, false_or, ih, Bool.not_eq_true]
    | some value =>
      simp only [failsWith_bind, failsWith_parseInput, ih]
      refine or_congr_right ⟨?_, ?_⟩
      · rintro ⟨read, hread, h⟩
        exact ⟨⟨read, hread⟩, h⟩
      · rintro ⟨⟨read, hread⟩, h⟩
        exact ⟨read, hread, h⟩

/-! ### Conditions -/

/-- A part of the condition is evaluated that is nested too deeply or makes a comparison that cannot
be made. -/
inductive ConditionFault (inputs : ValidatedInputs cal) : ℕ → Condition → Prop
  | deep {depth condition} (hdeep : maxConditionDepth < depth) : ConditionFault inputs depth condition
  | all {depth front condition back}
      (hfront : ∀ c ∈ front, evaluateConditionAt inputs c (depth + 1) = .ok true)
      (h : ConditionFault inputs (depth + 1) condition) :
      ConditionFault inputs depth (.all (front ++ condition :: back))
  | any {depth front condition back}
      (hfront : ∀ c ∈ front, evaluateConditionAt inputs c (depth + 1) = .ok false)
      (h : ConditionFault inputs (depth + 1) condition) :
      ConditionFault inputs depth (.any (front ++ condition :: back))
  | not {depth condition} (h : ConditionFault inputs (depth + 1) condition) :
      ConditionFault inputs depth (.not condition)
  | equals {depth key value actual e} (hactual : inputs[key]? = some actual)
      (h : actual.equalsJson value = .error e) : ConditionFault inputs depth (.equals key value)
  | notEquals {depth key value actual e} (hactual : inputs[key]? = some actual)
      (h : actual.equalsJson value = .error e) : ConditionFault inputs depth (.notEquals key value)
  | greaterThan {depth key value actual e} (hactual : inputs[key]? = some actual)
      (h : actual.orderedJson value = .error e) : ConditionFault inputs depth (.greaterThan key value)
  | greaterThanOrEqual {depth key value actual e} (hactual : inputs[key]? = some actual)
      (h : actual.orderedJson value = .error e) :
      ConditionFault inputs depth (.greaterThanOrEqual key value)
  | lessThan {depth key value actual e} (hactual : inputs[key]? = some actual)
      (h : actual.orderedJson value = .error e) : ConditionFault inputs depth (.lessThan key value)
  | lessThanOrEqual {depth key value actual e} (hactual : inputs[key]? = some actual)
      (h : actual.orderedJson value = .error e) :
      ConditionFault inputs depth (.lessThanOrEqual key value)
  | isIn {depth key front value back actual e} (hactual : inputs[key]? = some actual)
      (hfront : ∀ v ∈ front, actual.equalsJson v = .ok false)
      (h : actual.equalsJson value = .error e) :
      ConditionFault inputs depth (.isIn key (front ++ value :: back))
  | containsNoText {depth key value} (h : value.asStr = none) :
      ConditionFault inputs depth (.contains key value)
  | containsOther {depth key value actual} (hactual : inputs[key]? = some actual)
      (htext : ∀ text, actual ≠ .text text) (hoptions : ∀ options, actual ≠ .multiSelect options) :
      ConditionFault inputs depth (.contains key value)

variable {key : String} {expected : Value} {values : List Value}

theorem not_failsWith_input : ¬ FailsWith BlamesOffer (input inputs key) := by
  unfold input
  simp [BlamesOffer]

theorem input_eq_ok {actual : ValidatedValue cal} :
    input inputs key = .ok actual ↔ inputs[key]? = some actual := okOr_eq_ok

theorem blamesOffer_invalidCondition (message : String) :
    BlamesOffer (invalidCondition key message) := .inr rfl

theorem failsWith_equality : FailsWith BlamesOffer (equality inputs key expected) ↔
    ∃ actual e, inputs[key]? = some actual ∧ actual.equalsJson expected = .error e := by
  unfold equality
  simp only [failsWith_bind, not_failsWith_input, failsWith_mapErr, blamesOffer_invalidCondition,
    failsWith_true_iff, input_eq_ok, false_or, exists_and_left]

theorem failsWith_orderedComparison :
    FailsWith BlamesOffer (orderedComparison inputs key expected) ↔
      ∃ actual e, inputs[key]? = some actual ∧ actual.orderedJson expected = .error e := by
  unfold orderedComparison
  simp only [failsWith_bind, not_failsWith_input, failsWith_mapErr, blamesOffer_invalidCondition,
    failsWith_true_iff, input_eq_ok, false_or, exists_and_left]

theorem failsWith_isOneOf : FailsWith BlamesOffer (isOneOf inputs key values) ↔
    ∃ front value back actual e, values = front ++ value :: back ∧ inputs[key]? = some actual ∧
      (∀ v ∈ front, actual.equalsJson v = .ok false) ∧ actual.equalsJson value = .error e := by
  induction values with
  | nil =>
    refine iff_of_false failsWith_ok.mp ?_
    rintro ⟨front, value, back, -, -, h, -⟩
    exact List.append_ne_nil_of_right_ne_nil _ (List.cons_ne_nil _ _) h.symm
  | cons value values ih =>
    rw [isOneOf, failsWith_bind, failsWith_equality]
    constructor
    · rintro (⟨actual, e, hactual, herror⟩ | ⟨equals, hequals, h⟩)
      · exact ⟨[], value, values, actual, e, rfl, hactual, List.forall_mem_nil _, herror⟩
      · cases equals with
        | true => exact (failsWith_ok.mp h).elim
        | false =>
          obtain ⟨front, later, back, actual, e, rfl, hactual, hfront, herror⟩ := ih.mp h
          obtain ⟨same, hsame, hequals⟩ := bind_eq_ok.mp hequals
          obtain rfl := Option.some.inj ((input_eq_ok.mp hsame).symm.trans hactual)
          exact ⟨value :: front, later, back, same, e, rfl, hactual,
            List.forall_mem_cons.mpr ⟨mapErr_eq_ok.mp hequals, hfront⟩, herror⟩
    · rintro ⟨front, later, back, actual, e, hvalues, hactual, hfront, herror⟩
      cases front with
      | nil =>
        obtain ⟨rfl, rfl⟩ := List.cons.inj hvalues
        exact .inl ⟨actual, e, hactual, herror⟩
      | cons first front =>
        obtain ⟨rfl, rfl⟩ := List.cons.inj hvalues
        obtain ⟨hfirst, hfront⟩ := List.forall_mem_cons.mp hfront
        refine .inr ⟨false, bind_eq_ok.mpr ⟨actual, input_eq_ok.mpr hactual,
          mapErr_eq_ok.mpr hfirst⟩, ih.mpr ⟨front, later, back, actual, e, rfl, hactual, hfront,
            herror⟩⟩

theorem failsWith_containment : FailsWith BlamesOffer (containment inputs key expected) ↔
    expected.asStr = none ∨ ∃ actual, inputs[key]? = some actual ∧
      (∀ text, actual ≠ .text text) ∧ ∀ options, actual ≠ .multiSelect options := by
  unfold containment
  simp only [failsWith_bind, failsWith_okOr, blamesOffer_invalidCondition, and_true,
    not_failsWith_input, false_or, okOr_eq_ok, input_eq_ok]
  constructor
  · rintro (hnone | ⟨text, -, actual, hactual, h⟩)
    · exact .inl hnone
    · refine .inr ⟨actual, hactual, ?_, ?_⟩
      all_goals
        rintro other rfl
        exact failsWith_ok.mp h
  · rintro (hnone | ⟨actual, hactual, htext, hoptions⟩)
    · exact .inl hnone
    · cases hexpected : expected.asStr with
      | none => exact .inl rfl
      | some text =>
        refine .inr ⟨text, rfl, actual, hactual, ?_⟩
        cases actual
        case text => exact absurd rfl (htext _)
        case multiSelect => exact absurd rfl (hoptions _)
        all_goals exact failsWith_error.mpr (blamesOffer_invalidCondition _)

mutual

/-- Evaluating a condition blames the offer exactly if it comes upon a fault. -/
theorem failsWith_evaluateConditionAt (inputs : ValidatedInputs cal) (condition : Condition)
    (depth : ℕ) : FailsWith BlamesOffer (evaluateConditionAt inputs condition depth) ↔
      ConditionFault inputs depth condition := by
  by_cases hdeep : maxConditionDepth < depth
  · rw [evaluateConditionAt.eq_def, if_pos hdeep]
    exact iff_of_true (failsWith_error.mpr (.inr rfl)) (.deep hdeep)
  · rw [evaluateConditionAt.eq_def, if_neg hdeep]
    cases condition with
    | always =>
      refine iff_of_false failsWith_ok.mp fun h => ?_
      cases h with
      | deep h => exact hdeep h
    | all conditions =>
      rw [failsWith_evaluateAll inputs conditions (depth + 1)]
      constructor
      · rintro ⟨front, condition, back, rfl, hfront, h⟩
        exact .all hfront h
      · intro h
        cases h with
        | deep h => exact absurd h hdeep
        | all hfront h => exact ⟨_, _, _, rfl, hfront, h⟩
    | any conditions =>
      rw [failsWith_evaluateAny inputs conditions (depth + 1)]
      constructor
      · rintro ⟨front, condition, back, rfl, hfront, h⟩
        exact .any hfront h
      · intro h
        cases h with
        | deep h => exact absurd h hdeep
        | any hfront h => exact ⟨_, _, _, rfl, hfront, h⟩
    | not condition =>
      rw [failsWith_map, failsWith_evaluateConditionAt inputs condition (depth + 1)]
      refine ⟨.not, fun h => ?_⟩
      cases h with
      | deep h => exact absurd h hdeep
      | not h => exact h
    | present key =>
      refine iff_of_false failsWith_ok.mp fun h => ?_
      cases h with
      | deep h => exact hdeep h
    | equals key value =>
      rw [failsWith_equality]
      refine ⟨fun ⟨_, _, hactual, h⟩ => .equals hactual h, fun h => ?_⟩
      cases h with
      | deep h => exact absurd h hdeep
      | equals hactual h => exact ⟨_, _, hactual, h⟩
    | notEquals key value =>
      rw [failsWith_map, failsWith_equality]
      refine ⟨fun ⟨_, _, hactual, h⟩ => .notEquals hactual h, fun h => ?_⟩
      cases h with
      | deep h => exact absurd h hdeep
      | notEquals hactual h => exact ⟨_, _, hactual, h⟩
    | greaterThan key value =>
      rw [failsWith_map, failsWith_orderedComparison]
      refine ⟨fun ⟨_, _, hactual, h⟩ => .greaterThan hactual h, fun h => ?_⟩
      cases h with
      | deep h => exact absurd h hdeep
      | greaterThan hactual h => exact ⟨_, _, hactual, h⟩
    | greaterThanOrEqual key value =>
      rw [failsWith_map, failsWith_orderedComparison]
      refine ⟨fun ⟨_, _, hactual, h⟩ => .greaterThanOrEqual hactual h, fun h => ?_⟩
      cases h with
      | deep h => exact absurd h hdeep
      | greaterThanOrEqual hactual h => exact ⟨_, _, hactual, h⟩
    | lessThan key value =>
      rw [failsWith_map, failsWith_orderedComparison]
      refine ⟨fun ⟨_, _, hactual, h⟩ => .lessThan hactual h, fun h => ?_⟩
      cases h with
      | deep h => exact absurd h hdeep
      | lessThan hactual h => exact ⟨_, _, hactual, h⟩
    | lessThanOrEqual key value =>
      rw [failsWith_map, failsWith_orderedComparison]
      refine ⟨fun ⟨_, _, hactual, h⟩ => .lessThanOrEqual hactual h, fun h => ?_⟩
      cases h with
      | deep h => exact absurd h hdeep
      | lessThanOrEqual hactual h => exact ⟨_, _, hactual, h⟩
    | isIn key values =>
      rw [failsWith_isOneOf]
      constructor
      · rintro ⟨front, value, back, actual, e, rfl, hactual, hfront, h⟩
        exact .isIn hactual hfront h
      · intro h
        cases h with
        | deep h => exact absurd h hdeep
        | isIn hactual hfront h => exact ⟨_, _, _, _, _, rfl, hactual, hfront, h⟩
    | contains key value =>
      rw [failsWith_containment]
      constructor
      · rintro (hnone | ⟨actual, hactual, htext, hoptions⟩)
        · exact .containsNoText hnone
        · exact .containsOther hactual htext hoptions
      · intro h
        cases h with
        | deep h => exact absurd h hdeep
        | containsNoText h => exact .inl h
        | containsOther hactual htext hoptions => exact .inr ⟨_, hactual, htext, hoptions⟩

theorem failsWith_evaluateAll (inputs : ValidatedInputs cal) (conditions : List Condition)
    (depth : ℕ) : FailsWith BlamesOffer (evaluateAll inputs conditions depth) ↔
      ∃ front condition back, conditions = front ++ condition :: back ∧
        (∀ c ∈ front, evaluateConditionAt inputs c depth = .ok true) ∧
          ConditionFault inputs depth condition := by
  cases conditions with
  | nil =>
    rw [evaluateAll.eq_def]
    refine iff_of_false failsWith_ok.mp ?_
    rintro ⟨front, condition, back, h, -⟩
    exact List.append_ne_nil_of_right_ne_nil _ (List.cons_ne_nil _ _) h.symm
  | cons condition conditions =>
    rw [evaluateAll.eq_def]
    dsimp only
    rw [failsWith_bind, failsWith_evaluateConditionAt inputs condition depth]
    constructor
    · rintro (h | ⟨holds, hholds, h⟩)
      · exact ⟨[], condition, conditions, rfl, List.forall_mem_nil _, h⟩
      · cases holds with
        | false => exact (failsWith_ok.mp h).elim
        | true =>
          obtain ⟨front, later, back, rfl, hfront, hfault⟩ :=
            (failsWith_evaluateAll inputs conditions depth).mp h
          exact ⟨condition :: front, later, back, rfl, List.forall_mem_cons.mpr ⟨hholds, hfront⟩,
            hfault⟩
    · rintro ⟨front, later, back, hconditions, hfront, hfault⟩
      cases front with
      | nil =>
        obtain ⟨rfl, rfl⟩ := List.cons.inj hconditions
        exact .inl hfault
      | cons first front =>
        obtain ⟨rfl, hrest⟩ := List.cons.inj hconditions
        obtain ⟨hfirst, hfront⟩ := List.forall_mem_cons.mp hfront
        exact .inr ⟨true, hfirst, (failsWith_evaluateAll inputs conditions depth).mpr
          ⟨front, later, back, hrest, hfront, hfault⟩⟩

theorem failsWith_evaluateAny (inputs : ValidatedInputs cal) (conditions : List Condition)
    (depth : ℕ) : FailsWith BlamesOffer (evaluateAny inputs conditions depth) ↔
      ∃ front condition back, conditions = front ++ condition :: back ∧
        (∀ c ∈ front, evaluateConditionAt inputs c depth = .ok false) ∧
          ConditionFault inputs depth condition := by
  cases conditions with
  | nil =>
    rw [evaluateAny.eq_def]
    refine iff_of_false failsWith_ok.mp ?_
    rintro ⟨front, condition, back, h, -⟩
    exact List.append_ne_nil_of_right_ne_nil _ (List.cons_ne_nil _ _) h.symm
  | cons condition conditions =>
    rw [evaluateAny.eq_def]
    dsimp only
    rw [failsWith_bind, failsWith_evaluateConditionAt inputs condition depth]
    constructor
    · rintro (h | ⟨holds, hholds, h⟩)
      · exact ⟨[], condition, conditions, rfl, List.forall_mem_nil _, h⟩
      · cases holds with
        | true => exact (failsWith_ok.mp h).elim
        | false =>
          obtain ⟨front, later, back, rfl, hfront, hfault⟩ :=
            (failsWith_evaluateAny inputs conditions depth).mp h
          exact ⟨condition :: front, later, back, rfl, List.forall_mem_cons.mpr ⟨hholds, hfront⟩,
            hfault⟩
    · rintro ⟨front, later, back, hconditions, hfront, hfault⟩
      cases front with
      | nil =>
        obtain ⟨rfl, rfl⟩ := List.cons.inj hconditions
        exact .inl hfault
      | cons first front =>
        obtain ⟨rfl, hrest⟩ := List.cons.inj hconditions
        obtain ⟨hfirst, hfront⟩ := List.forall_mem_cons.mp hfront
        exact .inr ⟨false, hfirst, (failsWith_evaluateAny inputs conditions depth).mpr
          ⟨front, later, back, hrest, hfront, hfault⟩⟩

end

/-! ### Amounts of an accepted offer -/

/-- The kind of variable that a value is for. -/
def ValidatedValue.kind : ValidatedValue cal → VariableKind
  | .number _ => .number
  | .integer _ => .integer
  | .boolean _ => .boolean
  | .date _ => .date
  | .dateTime _ => .dateTime
  | .select _ => .select
  | .multiSelect _ => .multiSelect
  | .text _ => .text

theorem kind_of_parseInput {value : Value} {read : ValidatedValue cal}
    (h : parseInput cal definition value = .ok read) : read.kind = definition.kind := by
  unfold parseInput at h
  cases hkind : definition.kind <;> rw [hkind] at h <;> dsimp only at h
  case number | integer =>
    obtain ⟨_, -, h⟩ := bind_eq_ok.mp h
    obtain ⟨_, -, h⟩ := bind_eq_ok.mp h
    obtain rfl := Except.ok.inj h
    rfl
  case boolean =>
    obtain ⟨_, -, h⟩ := bind_eq_ok.mp h
    obtain rfl := Except.ok.inj h
    rfl
  case date | dateTime =>
    obtain ⟨_, -, h⟩ := bind_eq_ok.mp h
    obtain ⟨_, -, h⟩ := bind_eq_ok.mp h
    obtain ⟨_, -, h⟩ := bind_eq_ok.mp h
    obtain rfl := Except.ok.inj h
    rfl
  case select | text =>
    obtain ⟨_, -, h⟩ := bind_eq_ok.mp h
    obtain ⟨-, h⟩ := guard_eq_ok.mp h
    obtain rfl := Except.ok.inj h
    rfl
  case multiSelect =>
    obtain ⟨_, -, h⟩ := bind_eq_ok.mp h
    obtain ⟨_, -, h⟩ := bind_eq_ok.mp h
    obtain rfl := Except.ok.inj h
    rfl

/-- Each value has the kind of its definition. -/
def WellKinded (definitions : List VariableDefinition) (inputs : ValidatedInputs cal) : Prop :=
  ∀ key value, inputs[key]? = some value → ∃ definition ∈ definitions,
    definition.key = key ∧ value.kind = definition.kind

theorem wellKinded_of_readValues {raw : BTreeMap Value} {values result : ValidatedInputs cal}
    {definitions all : List VariableDefinition} (hall : ∀ d ∈ definitions, d ∈ all)
    (hvalues : WellKinded all values) (h : readValues cal raw values definitions = .ok result) :
    WellKinded all result := by
  induction definitions generalizing values with
  | nil =>
    obtain rfl := Except.ok.inj h
    exact hvalues
  | cons definition definitions ih =>
    obtain ⟨hmem, hrest⟩ := List.forall_mem_cons.mp hall
    rw [readValues] at h
    cases hvalue : raw[definition.key]?.or definition.defaultValue with
    | none =>
      rw [hvalue] at h
      exact ih hrest hvalues (guard_eq_ok.mp h).2
    | some value =>
      rw [hvalue] at h
      obtain ⟨read, hread, h⟩ := bind_eq_ok.mp h
      refine ih hrest (fun key other hother => ?_) h
      rw [Std.ExtTreeMap.getElem?_insert] at hother
      split_ifs at hother with hkey
      · obtain rfl := Option.some.inj hother
        exact ⟨definition, hmem, Std.LawfulEqCmp.eq_of_compare hkey, kind_of_parseInput hread⟩
      · exact hvalues key other hother

/-- The variable has a value that is a number, or none. -/
def Numeric (inputs : ValidatedInputs cal) (key : String) : Prop :=
  ∀ value, inputs[key]? = some value → value.decimal ≠ none

theorem not_failsWith_decimalInput (h : Numeric inputs key) :
    ¬ FailsWith BlamesOffer (decimalInput inputs key) := by
  unfold decimalInput
  rw [failsWith_bind]
  rintro (hfails | ⟨value, hvalue, hfails⟩)
  · exact not_failsWith_input hfails
  · exact h value (input_eq_ok.mp hvalue) (failsWith_okOr.mp hfails).1

theorem not_blamesOffer_of_code {code : ErrorCode} {field : Option String} {message : String}
    (hoffer : code ≠ .invalidOffer) (hcondition : code ≠ .invalidCondition) :
    ¬ BlamesOffer ⟨code, field, message⟩ :=
  not_or.mpr ⟨hoffer, hcondition⟩

theorem not_failsWith_wholeInput (h : Numeric inputs key) (model : String) :
    ¬ FailsWith BlamesOffer (wholeInput inputs key model) := by
  unfold wholeInput
  rw [failsWith_bind]
  rintro (hfails | ⟨value, -, hfails⟩)
  · exact not_failsWith_decimalInput h hfails
  · exact not_blamesOffer_of_code (by decide) (by decide) (failsWith_okOr.mp hfails).2

theorem not_blamesOffer_tooLarge : ¬ BlamesOffer (tooLarge key) :=
  not_blamesOffer_of_code (by decide) (by decide)

theorem not_failsWith_perUnitAmount (h : Numeric inputs key) (unitAmountMinor : ℤ) :
    ¬ FailsWith BlamesOffer (perUnitAmount inputs key unitAmountMinor) := by
  unfold perUnitAmount
  rw [failsWith_bind]
  rintro (hfails | ⟨value, -, hfails⟩)
  · exact not_failsWith_decimalInput h hfails
  · rw [failsWith_bind, failsWith_mapErr] at hfails
    rcases hfails with hfails | ⟨amount, -, hfails⟩
    · obtain ⟨e, -, hblames⟩ := hfails
      exact not_blamesOffer_of_code (by decide) (by decide) hblames
    · rcases failsWith_guard.mp hfails with ⟨-, hblames⟩ | ⟨-, hfails⟩
      · exact not_blamesOffer_of_code (by decide) (by decide) hblames
      · exact failsWith_pure.mp hfails

theorem not_failsWith_tieredAmount {tiers : List PricingTier} (h : Numeric inputs key)
    (htiers : Increasing 0 tiers) (graduated : Bool) :
    ¬ FailsWith BlamesOffer (tieredAmount inputs key tiers graduated) := by
  intro hfails
  rcases failsWith_bind.mp hfails with hfails | ⟨units, -, hfails⟩
  · exact not_failsWith_wholeInput h _ hfails
  cases graduated with
  | true =>
    rcases failsWith_bind.mp hfails with hfails | ⟨amount, -, hfails⟩
    all_goals exact not_blamesOffer_tooLarge (failsWith_okOr.mp hfails).2
  | false =>
    rcases failsWith_bind.mp hfails with hfails | ⟨tier, -, hfails⟩
    · obtain ⟨tier, htier⟩ := htiers.exists_tierOf units
      exact nomatch htier.symm.trans (failsWith_okOr.mp hfails).1
    rcases failsWith_bind.mp hfails with hfails | ⟨amount, -, hfails⟩
    all_goals exact not_blamesOffer_tooLarge (failsWith_okOr.mp hfails).2

theorem not_failsWith_packageCount {units unitsPerPackage : ℕ} {rounding : PackageRounding} :
    ¬ FailsWith BlamesOffer (packageCount key units unitsPerPackage rounding) := by
  intro hfails
  cases rounding with
  | up =>
    rcases failsWith_bind.mp hfails with hfails | ⟨value, -, hfails⟩
    · exact not_blamesOffer_of_code (by decide) (by decide) (failsWith_okOr.mp hfails).2
    · rcases failsWith_guard.mp hfails with ⟨-, hblames⟩ | ⟨-, hfails⟩
      · exact not_blamesOffer_of_code (by decide) (by decide) hblames
      · exact failsWith_pure.mp hfails
  | exact =>
    unfold packageCount at hfails
    dsimp only at hfails
    split_ifs at hfails
    · exact failsWith_ok.mp hfails
    · exact not_blamesOffer_of_code (by decide) (by decide) (failsWith_error.mp hfails)

variable {offer : Offer} {component : OfferComponent}

/-- The definition of a key has the kind of the key's value. -/
theorem kind_of_wellKinded {definitions : List VariableDefinition} (h : WellKinded definitions inputs)
    (hnodup : (definitions.map (·.key)).Nodup) {value : ValidatedValue cal}
    (hvalue : inputs[key]? = some value) :
    (∀ definition ∈ definitions, definition.key = key → definition.kind = value.kind) ∧
      (definitions.find? (·.key = key)).map (·.kind) = some value.kind := by
  obtain ⟨definition, hmem, hkey, hkind⟩ := h key value hvalue
  have hunique : ∀ other ∈ definitions, other.key = key → other = definition :=
    fun other hother hsame => List.inj_on_of_nodup_map hnodup hother hmem (hsame.trans hkey.symm)
  refine ⟨fun other hother hsame => (hunique other hother hsame ▸ hkind).symm, ?_⟩
  cases hfind : definitions.find? (·.key = key) with
  | none =>
    have hnone := List.find?_eq_none.mp hfind definition hmem
    exact absurd (decide_eq_true hkey) hnone
  | some other =>
    have hsame := List.find?_some hfind
    rw [hunique other (List.mem_of_find?_eq_some hfind) (of_decide_eq_true hsame), hkind]
    rfl

theorem decimal_ne_none {value : ValidatedValue cal}
    (h : value.kind = .number ∨ value.kind = .integer) : value.decimal ≠ none := by
  cases value <;> simp_all [ValidatedValue.kind, ValidatedValue.decimal]

theorem scalar_ne_none {value : ValidatedValue cal}
    (h : value.kind = .select ∨ value.kind = .text) : value.scalar ≠ none := by
  cases value <;> simp_all [ValidatedValue.kind, ValidatedValue.scalar]

/-- The value of the variable that an amount rule reads has its kind. -/
theorem kindMatches_of_checkAmountKey {keys : BTreeMap VariableDefinition}
    (h : checkAmountKey offer keys component (some key) = .ok ())
    (hkinds : WellKinded offer.variables inputs) (hvalid : ValidVariables offer.variables)
    {value : ValidatedValue cal} (hvalue : inputs[key]? = some value) :
    kindMatches component.amount (some value.kind) = true := by
  obtain ⟨-, h⟩ := guard_eq_ok.mp h
  obtain ⟨hmatches, -⟩ := guard_eq_ok.mp h
  rw [(kind_of_wellKinded hkinds hvalid.nodup hvalue).2] at hmatches
  exact eq_true_of_ne_false hmatches

/-- The amount of an accepted component does not blame the offer, and is not negative. -/
theorem ruleAmount_valid {keys : BTreeMap VariableDefinition}
    (h : ValidComponent offer keys component) (hkinds : WellKinded offer.variables inputs)
    (hvalid : ValidVariables offer.variables) :
    ¬ FailsWith BlamesOffer (ruleAmount component.amount inputs) ∧
      ∀ amount, ruleAmount component.amount inputs = .ok amount → 0 ≤ amount := by
  obtain ⟨amountKey, hamount, hkey⟩ := h.amount
  have hmatches : ∀ key, amountKey = some key → ∀ value, inputs[key]? = some value →
      kindMatches component.amount (some value.kind) = true := fun _ heq _ hvalue =>
    kindMatches_of_checkAmountKey (heq ▸ hkey) hkinds hvalid hvalue
  have hnumeric : (∀ input prices, component.amount ≠ .lookup input prices) →
      (∀ unit, component.amount ≠ .fixed unit) → ∀ key, amountKey = some key →
        Numeric inputs key := by
    intro hlookup hfixed key heq value hvalue
    have hkind := hmatches key heq value hvalue
    refine decimal_ne_none ?_
    cases hrule : component.amount <;> rw [hrule] at hkind
    case lookup => exact absurd hrule (hlookup _ _)
    case fixed => exact absurd hrule (hfixed _)
    all_goals simpa [kindMatches] using hkind
  clear hkey
  cases hrule : component.amount <;> rw [hrule] at hamount hnumeric
  case fixed unit =>
    obtain ⟨hunit, -⟩ := guard_eq_ok.mp hamount
    refine ⟨failsWith_ok.mp, fun amount h => ?_⟩
    obtain rfl := Except.ok.inj h
    exact not_lt.mp hunit
  case perUnit key unit =>
    obtain ⟨hunit, heq⟩ := guard_eq_ok.mp hamount
    have hkey := hnumeric nofun nofun key (Except.ok.inj heq).symm
    refine ⟨not_failsWith_perUnitAmount hkey unit, fun amount h => ?_⟩
    obtain ⟨value, -, h⟩ := bind_eq_ok.mp h
    obtain ⟨product, -, h⟩ := bind_eq_ok.mp h
    obtain ⟨hproduct, h⟩ := guard_eq_ok.mp h
    obtain rfl := Except.ok.inj h
    exact not_lt.mp hproduct
  case flatPlusPerUnit base key unit =>
    obtain ⟨hnegative, heq⟩ := guard_eq_ok.mp hamount
    have hkey := hnumeric nofun nofun key (Except.ok.inj heq).symm
    constructor
    · intro hfails
      rcases failsWith_bind.mp hfails with hfails | ⟨amount, -, hfails⟩
      · exact not_failsWith_perUnitAmount hkey unit hfails
      · exact not_blamesOffer_tooLarge (failsWith_okOr.mp hfails).2
    · intro amount h
      obtain ⟨product, hproduct, h⟩ := bind_eq_ok.mp h
      obtain ⟨value, -, hproduct⟩ := bind_eq_ok.mp hproduct
      obtain ⟨_, -, hproduct⟩ := bind_eq_ok.mp hproduct
      obtain ⟨hnonneg, hproduct⟩ := guard_eq_ok.mp hproduct
      obtain rfl := Except.ok.inj hproduct
      obtain ⟨rfl, -⟩ := i64_eq_some_iff.mp (okOr_eq_ok.mp h)
      omega
  case lookup key prices =>
    obtain ⟨hprices, heq⟩ := guard_eq_ok.mp hamount
    constructor
    · intro hfails
      rcases failsWith_bind.mp hfails with hfails | ⟨value, hvalue, hfails⟩
      · exact not_failsWith_input hfails
      rcases failsWith_bind.mp hfails with hfails | ⟨selected, -, hfails⟩
      · have hkind := hmatches key (Except.ok.inj heq).symm value (input_eq_ok.mp hvalue)
        rw [hrule] at hkind
        exact scalar_ne_none (by simpa [kindMatches] using hkind) (failsWith_okOr.mp hfails).1
      · exact not_blamesOffer_of_code (by decide) (by decide) (failsWith_okOr.mp hfails).2
    · intro amount h
      obtain ⟨value, -, h⟩ := bind_eq_ok.mp h
      obtain ⟨selected, -, h⟩ := bind_eq_ok.mp h
      have hmem := Std.ExtTreeMap.mem_toList_iff_getElem?_eq_some.mpr (okOr_eq_ok.mp h)
      by_contra hneg
      exact hprices (.inr (List.any_eq_true.mpr ⟨_, hmem, decide_eq_true (not_le.mp hneg)⟩))
  case graduated key tiers =>
    obtain ⟨_, htiers, heq⟩ := bind_eq_ok.mp hamount
    have hincreasing := validateTiers_iff.mp (mapErr_eq_ok.mp htiers)
    have hkey := hnumeric nofun nofun key (Except.ok.inj heq).symm
    exact ⟨not_failsWith_tieredAmount hkey hincreasing true, fun amount h =>
      tieredAmount_nonneg hincreasing h⟩
  case volume key tiers =>
    obtain ⟨_, htiers, heq⟩ := bind_eq_ok.mp hamount
    have hincreasing := validateTiers_iff.mp (mapErr_eq_ok.mp htiers)
    have hkey := hnumeric nofun nofun key (Except.ok.inj heq).symm
    exact ⟨not_failsWith_tieredAmount hkey hincreasing false, fun amount h =>
      tieredAmount_nonneg hincreasing h⟩
  case package key unitsPerPackage packageAmount rounding =>
    obtain ⟨hnegative, heq⟩ := guard_eq_ok.mp hamount
    have hkey := hnumeric nofun nofun key (Except.ok.inj heq).symm
    constructor
    · intro hfails
      rcases failsWith_bind.mp hfails with hfails | ⟨units, -, hfails⟩
      · exact not_failsWith_wholeInput hkey _ hfails
      rcases failsWith_bind.mp hfails with hfails | ⟨packages, -, hfails⟩
      · exact not_failsWith_packageCount hfails
      rcases failsWith_bind.mp hfails with hfails | ⟨amount, -, hfails⟩
      all_goals exact not_blamesOffer_tooLarge (failsWith_okOr.mp hfails).2
    · intro amount h
      obtain ⟨units, -, h⟩ := bind_eq_ok.mp h
      obtain ⟨packages, -, h⟩ := bind_eq_ok.mp h
      obtain ⟨product, hproduct, h⟩ := bind_eq_ok.mp h
      obtain ⟨rfl, -⟩ := i128_eq_some_iff.mp (okOr_eq_ok.mp hproduct)
      obtain ⟨rfl, -⟩ := i64_eq_some_iff.mp (okOr_eq_ok.mp h)
      exact mul_nonneg (Int.natCast_nonneg _) (not_lt.mp (not_or.mp hnegative).2)

theorem not_failsWith_resolveAmount {keys : BTreeMap VariableDefinition}
    (h : ValidComponent offer keys component) (hkinds : WellKinded offer.variables inputs)
    (hvalid : ValidVariables offer.variables) :
    ¬ FailsWith BlamesOffer (resolveAmount component.amount inputs) := by
  obtain ⟨hfails, hnonneg⟩ := ruleAmount_valid h hkinds hvalid
  intro hresolve
  rcases failsWith_bind.mp hresolve with hrule | ⟨amount, hamount, hresolve⟩
  · exact hfails hrule
  · rcases failsWith_guard.mp hresolve with ⟨hneg, -⟩ | ⟨-, hresolve⟩
    · exact absurd hneg (not_lt.mpr (hnonneg amount hamount))
    · exact failsWith_pure.mp hresolve

/-- The quantity of an accepted component blames the offer exactly if it is fixed at zero. -/
theorem failsWith_resolveQuantity {keys : BTreeMap VariableDefinition}
    (h : ValidComponent offer keys component) (hkinds : WellKinded offer.variables inputs)
    (hvalid : ValidVariables offer.variables) :
    FailsWith BlamesOffer (resolveQuantity component.quantity inputs) ↔
      component.quantity = .fixed 0 := by
  have hquantity := h.quantity
  unfold checkQuantity at hquantity
  cases hrule : component.quantity with
  | fixed value =>
    unfold resolveQuantity
    dsimp only
    split_ifs with hpos
    · refine iff_of_false failsWith_ok.mp fun hzero => ?_
      cases hzero
      exact Nat.lt_irrefl _ hpos
    · obtain rfl := Nat.eq_zero_of_not_pos hpos
      exact iff_of_true (failsWith_error.mpr (.inl rfl)) rfl
  | fromInput key minimum maximum =>
    rw [hrule] at hquantity
    obtain ⟨hfault, -⟩ := guard_eq_ok.mp hquantity
    simp only [not_or, not_not, List.any_eq_true, decide_eq_true_eq] at hfault
    obtain ⟨-, -, -, definition, hdefinition, hkey, hkind⟩ := hfault
    have hnumeric : Numeric inputs key := fun value hvalue => decimal_ne_none (by
      rw [← (kind_of_wellKinded hkinds hvalid.nodup hvalue).1 definition hdefinition hkey]
      exact hkind)
    refine iff_of_false (fun hfails => ?_) nofun
    rcases failsWith_bind.mp hfails with hfails | ⟨value, -, hfails⟩
    · exact not_failsWith_decimalInput hnumeric hfails
    rcases failsWith_bind.mp hfails with hfails | ⟨quantity, -, hfails⟩
    · exact not_blamesOffer_of_code (by decide) (by decide) (failsWith_okOr.mp hfails).2
    · rcases failsWith_guard.mp hfails with ⟨-, hblames⟩ | ⟨-, hfails⟩
      · exact not_blamesOffer_of_code (by decide) (by decide) hblames
      · exact failsWith_pure.mp hfails

/-! ### Offers -/

/-- A component's condition is at fault, or the component is included with a quantity fixed at
zero. -/
def ComponentFault (inputs : ValidatedInputs cal) (component : OfferComponent) : Prop :=
  ConditionFault inputs 0 component.condition ∨
    evaluateCondition component.condition inputs = .ok true ∧
      (∃ amount, resolveAmount component.amount inputs = .ok amount) ∧
        component.quantity = .fixed 0

theorem failsWith_resolveComponent {keys : BTreeMap VariableDefinition} {requestQuantity : ℕ}
    (h : ValidComponent offer keys component) (hkinds : WellKinded offer.variables inputs)
    (hvalid : ValidVariables offer.variables) :
    FailsWith BlamesOffer (resolveComponent component inputs requestQuantity) ↔
      ComponentFault inputs component := by
  unfold resolveComponent ComponentFault
  rw [failsWith_bind, evaluateCondition, failsWith_evaluateConditionAt]
  refine or_congr_right ?_
  have hquantity := failsWith_resolveQuantity h hkinds hvalid
  have hincluded : FailsWith BlamesOffer (resolveIncluded component inputs requestQuantity) ↔
      (∃ amount, resolveAmount component.amount inputs = .ok amount) ∧
        component.quantity = .fixed 0 := by
    rw [← hquantity]
    constructor
    · intro hfails
      rcases failsWith_bind.mp hfails with hfails | ⟨amount, hamount, hfails⟩
      · exact absurd hfails (not_failsWith_resolveAmount h hkinds hvalid)
      rcases failsWith_bind.mp hfails with hfails | ⟨quantity, -, hfails⟩
      · exact ⟨⟨amount, hamount⟩, hfails⟩
      have hlarge : ¬ BlamesOffer
          ⟨.amountOverflow, some component.key, "quantity is too large"⟩ :=
        not_blamesOffer_of_code (by decide) (by decide)
      rcases failsWith_bind.mp hfails with hfails | ⟨product, -, hfails⟩
      · exact absurd (failsWith_okOr.mp hfails).2 hlarge
      rcases failsWith_bind.mp hfails with hfails | ⟨signed, -, hfails⟩
      · exact absurd (failsWith_okOr.mp hfails).2 hlarge
      rcases failsWith_bind.mp hfails with hfails | ⟨total, -, hfails⟩
      · exact absurd (failsWith_okOr.mp hfails).2 not_blamesOffer_tooLarge
      · exact (failsWith_pure.mp hfails).elim
    · rintro ⟨⟨amount, hamount⟩, hfails⟩
      exact failsWith_bind.mpr (.inr ⟨amount, hamount, failsWith_bind.mpr (.inl hfails)⟩)
  constructor
  · rintro ⟨holds, hholds, hfails⟩
    cases holds with
    | false => exact (failsWith_pure.mp hfails).elim
    | true => exact ⟨hholds, hincluded.mp hfails⟩
  · rintro ⟨hholds, hfails⟩
    exact ⟨true, hholds, hincluded.mpr hfails⟩

theorem not_failsWith_addTotal {subtotal : ℤ} {resolved : ResolvedComponent} :
    ¬ FailsWith BlamesOffer (addTotal key subtotal resolved) := by
  unfold addTotal
  split_ifs
  · exact fun hfails =>
      not_blamesOffer_of_code (by decide) (by decide) (failsWith_okOr.mp hfails).2
  · exact failsWith_ok.mp

/-- Pricing the components blames the offer exactly if one is at fault and those ahead of it are
priced. -/
theorem failsWith_resolveComponents {keys : BTreeMap VariableDefinition} {requestQuantity : ℕ}
    {subtotal : ℤ} {components : List OfferComponent}
    (h : ∀ component ∈ components, ValidComponent offer keys component)
    (hkinds : WellKinded offer.variables inputs) (hvalid : ValidVariables offer.variables) :
    FailsWith BlamesOffer (resolveComponents inputs requestQuantity subtotal components) ↔
      ∃ front component back, components = front ++ component :: back ∧
        (∃ resolved, resolveComponents inputs requestQuantity subtotal front = .ok resolved) ∧
          ComponentFault inputs component := by
  induction components generalizing subtotal with
  | nil =>
    refine iff_of_false failsWith_ok.mp ?_
    rintro ⟨front, component, back, h, -⟩
    exact List.append_ne_nil_of_right_ne_nil _ (List.cons_ne_nil _ _) h.symm
  | cons component components ih =>
    obtain ⟨hcomponent, hrest⟩ := List.forall_mem_cons.mp h
    rw [resolveComponents, failsWith_bind, failsWith_resolveComponent hcomponent hkinds hvalid]
    constructor
    · rintro (hfault | ⟨resolved, hresolved, hfails⟩)
      · exact ⟨[], component, components, rfl, ⟨_, rfl⟩, hfault⟩
      rcases failsWith_bind.mp hfails with hfails | ⟨next, hnext, hfails⟩
      · exact absurd hfails not_failsWith_addTotal
      rcases failsWith_bind.mp hfails with hfails | ⟨rest, -, hfails⟩
      · obtain ⟨front, later, back, rfl, ⟨priced, hpriced⟩, hfault⟩ := (ih hrest).mp hfails
        exact ⟨component :: front, later, back, rfl, ⟨_, bind_eq_ok.mpr ⟨resolved, hresolved,
          bind_eq_ok.mpr ⟨next, hnext, bind_eq_ok.mpr ⟨priced, hpriced, rfl⟩⟩⟩⟩, hfault⟩
      · exact (failsWith_pure.mp hfails).elim
    · rintro ⟨front, later, back, hcomponents, ⟨priced, hpriced⟩, hfault⟩
      cases front with
      | nil =>
        obtain ⟨rfl, rfl⟩ := List.cons.inj hcomponents
        exact .inl hfault
      | cons first front =>
        obtain ⟨rfl, hsplit⟩ := List.cons.inj hcomponents
        obtain ⟨resolved, hresolved, hpriced⟩ := bind_eq_ok.mp hpriced
        obtain ⟨next, hnext, hpriced⟩ := bind_eq_ok.mp hpriced
        obtain ⟨rest, hfront, -⟩ := bind_eq_ok.mp hpriced
        exact .inr ⟨resolved, hresolved, failsWith_bind.mpr (.inr ⟨next, hnext,
          failsWith_bind.mpr (.inl ((ih hrest).mpr ⟨front, later, back, hsplit, ⟨rest, hfront⟩,
            hfault⟩))⟩)⟩

/-- The request is answered as far as a value whose bounds are at fault, or as far as a component at
fault. -/
def PricingFault (cal : Calendar) (offer : Offer) (request : PricingPreviewRequest)
    (scope : InputScope) : Prop :=
  checkRequest offer request = .ok () ∧
    checkKeys (byKey offer.variables) scope request.inputs.keys = .ok () ∧
      (ReadFault cal request.inputs offer.variables ∨
        ∃ inputs, readValues cal request.inputs ∅ offer.variables = .ok inputs ∧
          ∃ front component back,
            offer.components.mergeSort componentLe = front ++ component :: back ∧
              (∃ resolved, resolveComponents inputs request.quantity 0 front = .ok resolved) ∧
                ComponentFault inputs component)

variable {request : PricingPreviewRequest} {scope : InputScope}

theorem not_failsWith_checkRequest : ¬ FailsWith BlamesOffer (checkRequest offer request) := by
  intro hfails
  rcases failsWith_guard.mp hfails with ⟨-, hblames⟩ | ⟨-, hfails⟩
  · exact not_blamesOffer_of_code (by decide) (by decide) hblames
  rcases failsWith_guard.mp hfails with ⟨-, hblames⟩ | ⟨-, hfails⟩
  · exact not_blamesOffer_of_code (by decide) (by decide) hblames
  · exact failsWith_ok.mp hfails

theorem not_failsWith_checkKeys {keys : BTreeMap VariableDefinition} {names : List String} :
    ¬ FailsWith BlamesOffer (checkKeys keys scope names) := by
  induction names with
  | nil => exact failsWith_ok.mp
  | cons name names ih =>
    rw [checkKeys]
    cases keys[name]? with
    | none => exact fun hfails =>
        not_blamesOffer_of_code (by decide) (by decide) (failsWith_error.mp hfails)
    | some definition =>
      intro hfails
      rcases failsWith_guard.mp hfails with ⟨-, hblames⟩ | ⟨-, hfails⟩
      · exact not_blamesOffer_of_code (by decide) (by decide) hblames
      · exact ih hfails

theorem not_failsWith_checkTotal {policy : CheckoutPolicy} {subtotal : ℤ} :
    ¬ FailsWith BlamesOffer (checkTotal policy subtotal) := by
  intro hfails
  rcases failsWith_guard.mp hfails with ⟨-, hblames⟩ | ⟨-, hfails⟩
  · exact not_blamesOffer_of_code (by decide) (by decide) hblames
  rcases failsWith_guard.mp hfails with ⟨-, hblames⟩ | ⟨-, hfails⟩
  · exact not_blamesOffer_of_code (by decide) (by decide) hblames
  rcases failsWith_guard.mp hfails with ⟨-, hblames⟩ | ⟨-, hfails⟩
  · exact not_blamesOffer_of_code (by decide) (by decide) hblames
  · exact failsWith_ok.mp hfails

/-- Pricing an accepted offer blames the offer exactly if it comes upon a fault. -/
theorem failsWith_evaluateOffer (h : ValidOffer offer) :
    FailsWith BlamesOffer (evaluateOffer cal offer request scope) ↔
      PricingFault cal offer request scope := by
  have hsorted : ∀ component ∈ offer.components.mergeSort componentLe,
      ValidComponent offer (byKey offer.variables) component :=
    fun component hcomponent => h.components component (List.mem_mergeSort.mp hcomponent)
  have hempty : WellKinded offer.variables (∅ : ValidatedInputs cal) := fun key value hvalue => by
    rw [Std.ExtTreeMap.getElem?_empty] at hvalue
    cases hvalue
  have hkinds := fun inputs (hread : readValues cal request.inputs ∅ offer.variables = .ok inputs) =>
    wellKinded_of_readValues (fun _ => id) hempty hread
  obtain ⟨currency, hcurrency⟩ := h.currency
  constructor
  · intro hfails
    rcases failsWith_bind.mp hfails with hfails | ⟨_, -, hfails⟩
    · rw [validateOffer_iff.mpr h] at hfails
      exact (failsWith_ok.mp hfails).elim
    rcases failsWith_bind.mp hfails with hfails | ⟨_, hrequest, hfails⟩
    · exact absurd hfails not_failsWith_checkRequest
    rcases failsWith_bind.mp hfails with hfails | ⟨inputs, hinputs, hfails⟩
    · rcases failsWith_bind.mp hfails with hfails | ⟨keys, hkeys, hfails⟩
      · rw [validateVariableDefinitions_eq_ok.mpr ⟨h.validVariables, rfl⟩] at hfails
        exact (failsWith_ok.mp hfails).elim
      obtain ⟨-, rfl⟩ := validateVariableDefinitions_eq_ok.mp hkeys
      rcases failsWith_bind.mp hfails with hfails | ⟨_, hnames, hfails⟩
      · exact absurd hfails not_failsWith_checkKeys
      · exact ⟨hrequest, hnames, .inl (failsWith_readValues.mp hfails)⟩
    · obtain ⟨-, hnames, hread⟩ := validateInputs_eq_ok.mp hinputs
      rcases failsWith_bind.mp hfails with hfails | ⟨resolved, -, hfails⟩
      · exact ⟨hrequest, hnames, .inr ⟨inputs, hread, (failsWith_resolveComponents hsorted
          (hkinds inputs hread) h.validVariables).mp hfails⟩⟩
      rcases failsWith_bind.mp hfails with hfails | ⟨_, -, hfails⟩
      · exact absurd hfails not_failsWith_checkTotal
      rcases failsWith_bind.mp hfails with hfails | ⟨_, -, hfails⟩
      · rw [mapErr_eq_ok.mpr hcurrency] at hfails
        exact (failsWith_ok.mp hfails).elim
      · exact (failsWith_pure.mp hfails).elim
  · rintro ⟨hrequest, hnames, hfault⟩
    refine failsWith_bind.mpr (.inr ⟨(), validateOffer_iff.mpr h, failsWith_bind.mpr (.inr
      ⟨(), hrequest, ?_⟩)⟩)
    rcases hfault with hfault | ⟨inputs, hread, hfault⟩
    · exact failsWith_bind.mpr (.inl (failsWith_bind.mpr (.inr ⟨byKey offer.variables,
        validateVariableDefinitions_eq_ok.mpr ⟨h.validVariables, rfl⟩,
        failsWith_bind.mpr (.inr ⟨(), hnames, failsWith_readValues.mpr hfault⟩)⟩)))
    · exact failsWith_bind.mpr (.inr ⟨inputs,
        validateInputs_eq_ok.mpr ⟨h.validVariables, hnames, hread⟩,
        failsWith_bind.mpr (.inl ((failsWith_resolveComponents hsorted (hkinds inputs hread)
          h.validVariables).mpr hfault))⟩)

/-- Coffee at a minimum of `half` a kilogram. -/
def halfCoffee : Offer :=
  { coffee with «variables» := coffee.variables.map fun definition =>
      if definition.key = "kilograms" then { definition with minimum := some "half" }
      else definition }

end Pricing

end Products
