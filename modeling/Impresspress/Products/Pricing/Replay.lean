import Impresspress.Products.ExactDecimals
import Impresspress.Products.Pricing.Totals

/-!
# Quotes replay

A value that was read is read again from its normal form, under the same constraints, as the same
value. An order that records the normal forms can therefore be priced again as it was.

## Main results

* `Products.Pricing.parseInput_normalizedJson`: the normal form of a value is read as the value.
* `Products.Pricing.validateInputs_normalized`: the normal forms of all values are read as the
  values.
-/

namespace Products

namespace Pricing

open Checked Money

variable {cal : Calendar} {definition : VariableDefinition}
  {definitions : List VariableDefinition} {raw : BTreeMap Value} {scope : InputScope}

/-- A date that was read is read from what is written of it. -/
structure Calendar.Lawful (cal : Calendar) : Prop where
  date : ∀ raw date, cal.parseDate raw = some date →
    cal.parseDate (cal.formatDate date) = some date
  dateTime : ∀ raw dateTime, cal.parseDateTime raw = some dateTime →
    cal.parseDateTime (cal.formatDateTime dateTime) = some dateTime

/-! ### One value -/

/-- Options that were read are allowed and different, and are read again. -/
theorem parseOptions_map {seen : List String} {values : List Value} {options : List String}
    (h : parseOptions cal definition seen values = .ok options) :
    ∃ read, options = seen ++ read ∧
      parseOptions cal definition seen (read.map .string) = .ok options := by
  induction values generalizing seen with
  | nil =>
    obtain rfl := Except.ok.inj h
    exact ⟨[], (List.append_nil _).symm, rfl⟩
  | cons value values ih =>
    obtain ⟨option, hoption, h⟩ := bind_eq_ok.mp h
    obtain ⟨hallowed, h⟩ := guard_eq_ok.mp h
    obtain ⟨hfresh, h⟩ := guard_eq_ok.mp h
    obtain ⟨read, rfl, hread⟩ := ih h
    refine ⟨option :: read, List.append_assoc .., bind_eq_ok.mpr ⟨option, rfl, ?_⟩⟩
    exact guard_eq_ok.mpr ⟨hallowed, guard_eq_ok.mpr ⟨hfresh, hread⟩⟩

theorem asI64_int (value : I64) : (Value.number (.int value)).asI64 = some value :=
  dif_pos value.2

/-- The normal form of a value is read as the value. -/
theorem parseInput_normalizedJson (hcal : cal.Lawful) {value : Value} {read : ValidatedValue cal}
    (h : parseInput cal definition value = .ok read) :
    parseInput cal definition read.normalizedJson = .ok read := by
  unfold parseInput at h ⊢
  cases hkind : definition.kind <;> rw [hkind] at h <;> dsimp only at h ⊢
  case number =>
    obtain ⟨decimal, -, h⟩ := bind_eq_ok.mp h
    obtain ⟨_, hbounds, h⟩ := bind_eq_ok.mp h
    obtain rfl := Except.ok.inj h
    exact bind_eq_ok.mpr ⟨decimal, mapErr_eq_ok.mpr (Decimal.parse_canonical decimal),
      bind_eq_ok.mpr ⟨(), hbounds, rfl⟩⟩
  case integer =>
    obtain ⟨integer, -, h⟩ := bind_eq_ok.mp h
    obtain ⟨_, hbounds, h⟩ := bind_eq_ok.mp h
    obtain rfl := Except.ok.inj h
    refine bind_eq_ok.mpr ⟨integer, okOr_eq_ok.mpr ?_, bind_eq_ok.mpr ⟨(), hbounds, rfl⟩⟩
    rw [ValidatedValue.normalizedJson, asI64_int, Option.some_or]
  case boolean =>
    obtain ⟨boolean, -, h⟩ := bind_eq_ok.mp h
    obtain rfl := Except.ok.inj h
    rfl
  case date =>
    obtain ⟨text, -, h⟩ := bind_eq_ok.mp h
    obtain ⟨date, hdate, h⟩ := bind_eq_ok.mp h
    obtain ⟨_, hbounds, h⟩ := bind_eq_ok.mp h
    obtain rfl := Except.ok.inj h
    exact bind_eq_ok.mpr ⟨cal.formatDate date, rfl, bind_eq_ok.mpr ⟨date,
      okOr_eq_ok.mpr (hcal.date text date (okOr_eq_ok.mp hdate)), bind_eq_ok.mpr ⟨(), hbounds, rfl⟩⟩⟩
  case dateTime =>
    obtain ⟨text, -, h⟩ := bind_eq_ok.mp h
    obtain ⟨dateTime, hdateTime, h⟩ := bind_eq_ok.mp h
    obtain ⟨_, hbounds, h⟩ := bind_eq_ok.mp h
    obtain rfl := Except.ok.inj h
    exact bind_eq_ok.mpr ⟨cal.formatDateTime dateTime, rfl, bind_eq_ok.mpr ⟨dateTime,
      okOr_eq_ok.mpr (hcal.dateTime text dateTime (okOr_eq_ok.mp hdateTime)),
      bind_eq_ok.mpr ⟨(), hbounds, rfl⟩⟩⟩
  case select =>
    obtain ⟨option, -, h⟩ := bind_eq_ok.mp h
    obtain ⟨hallowed, h⟩ := guard_eq_ok.mp h
    obtain rfl := Except.ok.inj h
    exact bind_eq_ok.mpr ⟨option, rfl, guard_eq_ok.mpr ⟨hallowed, rfl⟩⟩
  case multiSelect =>
    obtain ⟨values, -, h⟩ := bind_eq_ok.mp h
    obtain ⟨options, hoptions, h⟩ := bind_eq_ok.mp h
    obtain rfl := Except.ok.inj h
    obtain ⟨chosen, hchosen, hread⟩ := parseOptions_map hoptions
    rw [List.nil_append] at hchosen
    subst hchosen
    exact bind_eq_ok.mpr ⟨options.map .string, rfl, bind_eq_ok.mpr ⟨options, hread, rfl⟩⟩
  case text =>
    obtain ⟨text, -, h⟩ := bind_eq_ok.mp h
    obtain ⟨hlength, h⟩ := guard_eq_ok.mp h
    obtain rfl := Except.ok.inj h
    exact bind_eq_ok.mpr ⟨text, rfl, guard_eq_ok.mpr ⟨hlength, rfl⟩⟩

/-! ### All values -/

/-- Reading values leaves those of other keys. -/
theorem getElem?_of_readValues {values result : ValidatedInputs cal} {key : String}
    (hkey : ∀ definition ∈ definitions, definition.key ≠ key)
    (h : readValues cal raw values definitions = .ok result) : result[key]? = values[key]? := by
  induction definitions generalizing values with
  | nil =>
    obtain rfl := Except.ok.inj h
    rfl
  | cons definition definitions ih =>
    obtain ⟨hne, hrest⟩ := List.forall_mem_cons.mp hkey
    rw [readValues] at h
    cases hvalue : raw[definition.key]?.or definition.defaultValue with
    | none =>
      rw [hvalue] at h
      exact ih hrest (guard_eq_ok.mp h).2
    | some value =>
      rw [hvalue] at h
      obtain ⟨read, -, h⟩ := bind_eq_ok.mp h
      rw [ih hrest h, Std.ExtTreeMap.getElem?_insert,
        if_neg fun hsame => hne (Std.LawfulEqCmp.eq_of_compare hsame)]

/-- The values are read again from their normal forms. -/
theorem readValues_normalized (hcal : cal.Lawful) {values result : ValidatedInputs cal}
    (hnodup : (definitions.map (·.key)).Nodup)
    (hfresh : ∀ definition ∈ definitions, values[definition.key]? = none)
    (h : readValues cal raw values definitions = .ok result) :
    readValues cal result.normalized values definitions = .ok result := by
  induction definitions generalizing values with
  | nil => exact h
  | cons definition definitions ih =>
    obtain ⟨hlater, hnodup⟩ := List.nodup_cons.mp hnodup
    obtain ⟨hvalues, hfresh⟩ := List.forall_mem_cons.mp hfresh
    have hne : ∀ other ∈ definitions, other.key ≠ definition.key := fun other hother hsame =>
      hlater (List.mem_map.mpr ⟨other, hother, hsame⟩)
    have hnormalized : result.normalized[definition.key]? =
        result[definition.key]?.map ValidatedValue.normalizedJson := Std.ExtTreeMap.getElem?_map
    rw [readValues] at h ⊢
    rw [hnormalized]
    cases hvalue : raw[definition.key]?.or definition.defaultValue with
    | none =>
      rw [hvalue] at h
      obtain ⟨hrequired, h⟩ := guard_eq_ok.mp h
      have hdefault : definition.defaultValue = none := (Option.or_eq_none_iff.mp hvalue).2
      rw [getElem?_of_readValues hne h, hvalues, hdefault]
      exact guard_eq_ok.mpr ⟨hrequired, ih hnodup hfresh h⟩
    | some value =>
      rw [hvalue] at h
      obtain ⟨read, hread, h⟩ := bind_eq_ok.mp h
      rw [getElem?_of_readValues hne h, Std.ExtTreeMap.getElem?_insert_self, Option.map_some,
        Option.some_or]
      refine bind_eq_ok.mpr ⟨read, parseInput_normalizedJson hcal hread, ih hnodup ?_ h⟩
      intro other hother
      rw [Std.ExtTreeMap.getElem?_insert,
        if_neg fun hsame => hne other hother (Std.LawfulEqCmp.eq_of_compare hsame).symm]
      exact hfresh other hother

theorem checkKeys_eq_ok {keys : BTreeMap VariableDefinition} {names : List String} :
    checkKeys keys scope names = .ok () ↔ ∀ name ∈ names, ∃ definition, keys[name]? = some definition ∧
      ¬ (scope = .publicly ∧ definition.visibility ≠ .publicly) := by
  induction names with
  | nil => exact iff_of_true rfl (List.forall_mem_nil _)
  | cons name names ih =>
    rw [checkKeys, List.forall_mem_cons]
    cases hname : keys[name]? with
    | none => exact iff_of_false nofun fun h => nomatch h.1.choose_spec.1
    | some definition =>
      dsimp only
      rw [guard_eq_ok, ih]
      refine and_congr_left' ⟨fun h => ⟨definition, rfl, h⟩, ?_⟩
      rintro ⟨other, hother, h⟩
      obtain rfl := Option.some.inj hother
      exact h

theorem validateInputs_eq_ok {result : ValidatedInputs cal} :
    validateInputs cal definitions raw scope = .ok result ↔ ValidVariables definitions ∧
      checkKeys (byKey definitions) scope raw.keys = .ok () ∧
        readValues cal raw ∅ definitions = .ok result := by
  unfold validateInputs
  constructor
  · intro h
    obtain ⟨keys, hkeys, h⟩ := bind_eq_ok.mp h
    obtain ⟨_, hnames, hread⟩ := bind_eq_ok.mp h
    obtain ⟨hvalid, rfl⟩ := validateVariableDefinitions_eq_ok.mp hkeys
    exact ⟨hvalid, hnames, hread⟩
  · rintro ⟨hvalid, hnames, h⟩
    exact bind_eq_ok.mpr ⟨byKey definitions, validateVariableDefinitions_eq_ok.mpr ⟨hvalid, rfl⟩,
      bind_eq_ok.mpr ⟨(), hnames, h⟩⟩

/-- The normal forms of the values are read as the values by an owner. -/
theorem validateInputs_normalized (hcal : cal.Lawful) {inputs : ValidatedInputs cal}
    (h : validateInputs cal definitions raw scope = .ok inputs) :
    validateInputs cal definitions inputs.normalized .management = .ok inputs := by
  obtain ⟨hvalid, -, hread⟩ := validateInputs_eq_ok.mp h
  refine validateInputs_eq_ok.mpr ⟨hvalid, checkKeys_eq_ok.mpr fun name hname => ?_,
    readValues_normalized hcal hvalid.nodup (fun _ _ => Std.ExtTreeMap.getElem?_empty) hread⟩
  have hmem : name ∈ inputs := Std.ExtTreeMap.mem_map.mp (Std.ExtTreeMap.mem_keys.mp hname)
  have hkey : name ∈ byKey definitions := by
    by_contra hnot
    have hne : ∀ definition ∈ definitions, definition.key ≠ name := fun definition hdefinition hsame =>
      hnot ((mem_byKey_iff hvalid name).mpr ⟨definition, hdefinition, hsame⟩)
    have hnone := getElem?_of_readValues hne hread
    rw [Std.ExtTreeMap.getElem?_empty] at hnone
    rw [Std.ExtTreeMap.mem_iff_isSome_getElem?, hnone] at hmem
    cases hmem
  rw [Std.ExtTreeMap.mem_iff_isSome_getElem?, Option.isSome_iff_exists] at hkey
  obtain ⟨definition, hdefinition⟩ := hkey
  exact ⟨definition, hdefinition, fun hscope => nomatch hscope.1⟩

/-! ### Offers -/

/-- An offer is priced again as it was from the inputs and the quantity of a preview. -/
theorem evaluateOffer_replay (hcal : cal.Lawful) {offer : Offer} {request : PricingPreviewRequest}
    {preview : PricingPreview} (h : evaluateOffer cal offer request scope = .ok preview) :
    evaluateOffer cal offer
        { offerId := offer.id, quantity := preview.quantity, inputs := preview.inputs }
        .management = .ok preview := by
  obtain ⟨hvalid, hrequest, inputs, hinputs, resolved, hresolved, htotal, currency, hcurrency, rfl⟩ :=
    evaluateOffer_eq_ok.mp h
  obtain ⟨-, hquantity⟩ := guard_eq_ok.mp hrequest
  obtain ⟨hquantity, -⟩ := guard_eq_ok.mp hquantity
  exact evaluateOffer_eq_ok.mpr ⟨hvalid,
    guard_eq_ok.mpr ⟨not_not.mpr rfl, guard_eq_ok.mpr ⟨hquantity, rfl⟩⟩,
    inputs, validateInputs_normalized hcal hinputs, resolved, hresolved, htotal, currency, hcurrency,
    rfl⟩

theorem lawful_noDates : noDates.Lawful := ⟨nofun, nofun⟩

/-- The quote for two bags records `1.5` kilograms and no gift. -/
theorem evaluateOffer_replay_coffee :
    coffeePreview.inputs["kilograms"]? = some (.string "1.5") ∧
      evaluateOffer noDates coffee
          { offerId := coffee.id, quantity := coffeePreview.quantity, inputs := coffeePreview.inputs }
          .management = .ok coffeePreview :=
  ⟨by rfl, evaluateOffer_replay lawful_noDates evaluateOffer_coffee⟩

end Pricing

end Products
