import Impresspress.Products.Pricing.Evaluate

/-!
# What validation says

## Main definitions

* `Products.Pricing.ValidVariables`, `Products.Pricing.ValidComponent`, `Products.Pricing.ValidOffer`:
  what the variables, a component and an offer have to be.

## Main results

* `Products.Pricing.validateOffer_iff`: an offer is accepted exactly if it is valid.
-/

namespace Products

namespace Pricing

open Checked Money

/-! ### Variables -/

/-- A definition that is accepted by itself. -/
structure ValidDefinition (definition : VariableDefinition) : Prop where
  key : isVariableKey definition.key = true
  allowed : definition.kind = .select ∨ definition.kind = .multiSelect →
    definition.allowedValues ≠ []

/-- Definitions of different keys, each of them accepted by itself. -/
structure ValidVariables (definitions : List VariableDefinition) : Prop where
  nodup : (definitions.map (·.key)).Nodup
  valid : ∀ definition ∈ definitions, ValidDefinition definition

/-- The definitions by their keys. -/
def byKey (definitions : List VariableDefinition) : BTreeMap VariableDefinition :=
  definitions.foldl (fun keys definition => keys.insert definition.key definition) ∅

variable {definitions : List VariableDefinition} {keys : BTreeMap VariableDefinition}

theorem checkDefinitions_eq_ok {result : BTreeMap VariableDefinition} :
    checkDefinitions keys definitions = .ok result ↔
      ValidVariables definitions ∧ (∀ definition ∈ definitions, definition.key ∉ keys) ∧
        result = definitions.foldl (fun keys definition => keys.insert definition.key definition)
          keys := by
  induction definitions generalizing keys with
  | nil =>
    simp only [checkDefinitions, Except.ok.injEq, List.foldl_nil]
    exact ⟨fun h => ⟨⟨List.nodup_nil, List.forall_mem_nil _⟩, List.forall_mem_nil _, h.symm⟩,
      fun h => h.2.2.symm⟩
  | cons definition definitions ih =>
    have hinsert : ∀ other : VariableDefinition,
        other.key ∉ keys.insert definition.key definition ↔
          definition.key ≠ other.key ∧ other.key ∉ keys := fun other => by
      rw [Std.ExtTreeMap.mem_insert, not_or, Std.LawfulEqCmp.compare_eq_iff_eq]
    rw [checkDefinitions]
    split_ifs with hkey hmem hallowed
    · refine iff_of_false nofun fun h => ?_
      have hvalid := (h.1.valid definition List.mem_cons_self).key
      rw [hkey] at hvalid
      cases hvalid
    · exact iff_of_false nofun fun h => h.2.1 definition List.mem_cons_self hmem
    · exact iff_of_false nofun fun h =>
        (h.1.valid definition List.mem_cons_self).allowed hallowed.1 hallowed.2
    · rw [ih]
      have hdefinition : ValidDefinition definition :=
        ⟨eq_true_of_ne_false hkey, fun hkind hnil => hallowed ⟨hkind, hnil⟩⟩
      constructor
      · rintro ⟨⟨hnodup, hvalid⟩, hfresh, hresult⟩
        refine ⟨⟨List.nodup_cons.mpr ⟨?_, hnodup⟩, List.forall_mem_cons.mpr ⟨hdefinition, hvalid⟩⟩,
          List.forall_mem_cons.mpr ⟨hmem, fun other hother => ((hinsert other).mp
            (hfresh other hother)).2⟩, hresult⟩
        intro hlater
        obtain ⟨other, hother, hsame⟩ := List.mem_map.mp hlater
        exact ((hinsert other).mp (hfresh other hother)).1 hsame.symm
      · rintro ⟨⟨hnodup, hvalid⟩, hfresh, hresult⟩
        obtain ⟨hlater, hnodup⟩ := List.nodup_cons.mp hnodup
        refine ⟨⟨hnodup, (List.forall_mem_cons.mp hvalid).2⟩, fun other hother => ?_, hresult⟩
        exact (hinsert other).mpr ⟨fun hsame => hlater (List.mem_map.mpr ⟨other, hother, hsame.symm⟩),
          (List.forall_mem_cons.mp hfresh).2 other hother⟩

theorem validateVariableDefinitions_eq_ok {result : BTreeMap VariableDefinition} :
    validateVariableDefinitions definitions = .ok result ↔
      ValidVariables definitions ∧ result = byKey definitions := by
  unfold validateVariableDefinitions
  rw [checkDefinitions_eq_ok]
  exact ⟨fun h => ⟨h.1, h.2.2⟩, fun h => ⟨h.1, fun _ _ => Std.ExtTreeMap.not_mem_empty, h.2⟩⟩

/-- Each key gives its definition. -/
theorem getElem?_byKey (h : ValidVariables definitions) (key : String) :
    (byKey definitions)[key]? = definitions.find? (·.key = key) := by
  suffices hfold : ∀ keys : BTreeMap VariableDefinition,
      (definitions.foldl (fun keys definition => keys.insert definition.key definition) keys)[key]? =
        (definitions.find? (·.key = key)).or keys[key]? by
    rw [byKey, hfold, Std.ExtTreeMap.getElem?_empty, Option.or_none]
  have hnodup := h.nodup
  clear h
  induction definitions with
  | nil => exact fun keys => rfl
  | cons definition definitions ih =>
    intro keys
    obtain ⟨hlater, hrest⟩ := List.nodup_cons.mp hnodup
    rw [List.foldl_cons, ih hrest, Std.ExtTreeMap.getElem?_insert]
    by_cases hkey : definition.key = key
    · have hnone : definitions.find? (·.key = key) = none := by
        refine List.find?_eq_none.mpr fun other hother hsame => hlater ?_
        exact List.mem_map.mpr ⟨other, hother, (of_decide_eq_true hsame).trans hkey.symm⟩
      rw [hnone, List.find?_cons_of_pos (p := fun d : VariableDefinition => decide (d.key = key))
        (decide_eq_true hkey), hkey, if_pos Std.ReflCmp.compare_self, Option.none_or,
        Option.some_or]
    · rw [List.find?_cons_of_neg (p := fun d : VariableDefinition => decide (d.key = key))
        (by simpa using hkey), if_neg fun hsame => hkey (Std.LawfulEqCmp.eq_of_compare hsame)]

theorem mem_byKey_iff (h : ValidVariables definitions) (key : String) :
    key ∈ byKey definitions ↔ ∃ definition ∈ definitions, definition.key = key := by
  rw [Std.ExtTreeMap.mem_iff_isSome_getElem?, getElem?_byKey h, List.find?_isSome]
  simp only [decide_eq_true_eq]

/-! ### Components -/

/-- A component that is accepted by itself. -/
structure ValidComponent (offer : Offer) (keys : BTreeMap VariableDefinition)
    (component : OfferComponent) : Prop where
  condition : conditionKeysExist keys component.condition = true
  recurrence : recurrenceMatches offer.mode offer.recurringInterval offer.intervalCount component =
    true
  amount : ∃ amountKey, validateAmount component.key component.amount = .ok amountKey ∧
    checkAmountKey offer keys component amountKey = .ok ()
  quantity : checkQuantity offer keys component = .ok ()

variable {offer : Offer} {components : List OfferComponent}

theorem checkComponents_eq_ok {seen : List String} :
    checkComponents offer keys seen components = .ok () ↔
      (components.map (·.key)).Nodup ∧ (∀ component ∈ components, component.key ∉ seen) ∧
        ∀ component ∈ components, ValidComponent offer keys component := by
  induction components generalizing seen with
  | nil => exact iff_of_true rfl ⟨List.nodup_nil, List.forall_mem_nil _, List.forall_mem_nil _⟩
  | cons component components ih =>
    have hseen : (∀ other ∈ components, other.key ∉ component.key :: seen) ↔
        component.key ∉ components.map (·.key) ∧ ∀ other ∈ components, other.key ∉ seen := by
      simp only [List.mem_cons, not_or, List.mem_map, not_exists, not_and]
      exact forall₂_and
    rw [checkComponents, List.map_cons, List.nodup_cons, List.forall_mem_cons,
      List.forall_mem_cons]
    split_ifs with hfault
    · refine iff_of_false nofun fun h => ?_
      rcases hfault with hmem | hcondition | hrecurrence
      · exact h.2.1.1 hmem
      · exact Bool.false_ne_true (hcondition.symm.trans h.2.2.1.condition)
      · exact Bool.false_ne_true (hrecurrence.symm.trans h.2.2.1.recurrence)
    · obtain ⟨hmem, hfault⟩ := not_or.mp hfault
      obtain ⟨hcondition, hrecurrence⟩ := not_or.mp hfault
      constructor
      · intro h
        obtain ⟨amountKey, hamount, h⟩ := bind_eq_ok.mp h
        obtain ⟨_, hkey, h⟩ := bind_eq_ok.mp h
        obtain ⟨_, hquantity, h⟩ := bind_eq_ok.mp h
        obtain ⟨hnodup, hfresh, hvalid⟩ := ih.mp h
        obtain ⟨hnot, hfresh⟩ := hseen.mp hfresh
        exact ⟨⟨hnot, hnodup⟩, ⟨hmem, hfresh⟩, ⟨eq_true_of_ne_false hcondition,
          eq_true_of_ne_false hrecurrence, ⟨amountKey, hamount, hkey⟩, hquantity⟩, hvalid⟩
      · rintro ⟨⟨hnot, hnodup⟩, ⟨-, hfresh⟩, ⟨-, -, ⟨amountKey, hamount, hkey⟩, hquantity⟩, hvalid⟩
        refine bind_eq_ok.mpr ⟨amountKey, hamount, bind_eq_ok.mpr ⟨(), hkey, bind_eq_ok.mpr ⟨(),
          hquantity, ih.mpr ⟨hnodup, hseen.mpr ⟨hnot, hfresh⟩, hvalid⟩⟩⟩⟩

/-! ### Offers -/

/-- An offer that is accepted. -/
structure ValidOffer (offer : Offer) : Prop where
  currency : ∃ currency, normalizeCurrency offer.currency = .ok currency
  numbers : ¬ (offer.version = 0 ∨ offer.intervalCount = 0 ∨ offer.components = [])
  mode : ¬ ((offer.mode = .payment ∧ offer.recurringInterval ≠ none) ∨
    (offer.mode = .subscription ∧ offer.recurringInterval = none))
  checkout : validateCheckoutPolicy offer.checkout = .ok ()
  validVariables : ValidVariables offer.variables
  nodup : (offer.components.map (·.key)).Nodup
  components : ∀ component ∈ offer.components, ValidComponent offer (byKey offer.variables) component
  billing : ¬ (offer.components.any (isTiered ·.amount) = true ∧ offer.billingScheme ≠ .tiered)

/-- An offer is accepted exactly if it is valid. -/
theorem validateOffer_iff : validateOffer offer = .ok () ↔ ValidOffer offer := by
  unfold validateOffer
  constructor
  · intro h
    obtain ⟨currency, hcurrency, h⟩ := bind_eq_ok.mp h
    obtain ⟨hnumbers, h⟩ := guard_eq_ok.mp h
    obtain ⟨hmode, h⟩ := guard_eq_ok.mp h
    obtain ⟨_, hcheckout, h⟩ := bind_eq_ok.mp h
    obtain ⟨keys, hkeys, h⟩ := bind_eq_ok.mp h
    obtain ⟨_, hcomponents, h⟩ := bind_eq_ok.mp h
    obtain ⟨hbilling, -⟩ := guard_eq_ok.mp h
    obtain ⟨hvariables, rfl⟩ := validateVariableDefinitions_eq_ok.mp hkeys
    obtain ⟨hnodup, -, hvalid⟩ := checkComponents_eq_ok.mp hcomponents
    exact ⟨⟨currency, mapErr_eq_ok.mp hcurrency⟩, hnumbers, hmode, hcheckout, hvariables, hnodup,
      hvalid, hbilling⟩
  · rintro ⟨⟨currency, hcurrency⟩, hnumbers, hmode, hcheckout, hvariables, hnodup, hvalid, hbilling⟩
    exact bind_eq_ok.mpr ⟨currency, mapErr_eq_ok.mpr hcurrency,
      guard_eq_ok.mpr ⟨hnumbers, guard_eq_ok.mpr ⟨hmode, bind_eq_ok.mpr ⟨(), hcheckout,
        bind_eq_ok.mpr ⟨byKey offer.variables,
          validateVariableDefinitions_eq_ok.mpr ⟨hvariables, rfl⟩,
          bind_eq_ok.mpr ⟨(), checkComponents_eq_ok.mpr ⟨hnodup, fun _ _ => List.not_mem_nil, hvalid⟩,
            guard_eq_ok.mpr ⟨hbilling, rfl⟩⟩⟩⟩⟩⟩⟩

/-- The order of the components does not matter. -/
theorem ValidOffer.perm (h : ValidOffer offer) (hperm : components.Perm offer.components) :
    ValidOffer { offer with components := components } where
  currency := h.currency
  numbers := by
    rintro (hversion | hinterval | hnil)
    · exact h.numbers (.inl hversion)
    · exact h.numbers (.inr (.inl hinterval))
    · change components = [] at hnil
      rw [hnil] at hperm
      exact h.numbers (.inr (.inr hperm.nil_eq.symm))
  mode := h.mode
  checkout := h.checkout
  validVariables := h.validVariables
  nodup := (hperm.map _).nodup_iff.mpr h.nodup
  components := fun component hcomponent =>
    have hvalid := h.components component (hperm.mem_iff.mp hcomponent)
    ⟨hvalid.condition, hvalid.recurrence, hvalid.amount, hvalid.quantity⟩
  billing := by
    rintro ⟨htiered, hscheme⟩
    refine h.billing ⟨?_, hscheme⟩
    rw [List.any_eq_true] at htiered ⊢
    obtain ⟨component, hcomponent, htiered⟩ := htiered
    exact ⟨component, hperm.mem_iff.mp hcomponent, htiered⟩

end Pricing

end Products
