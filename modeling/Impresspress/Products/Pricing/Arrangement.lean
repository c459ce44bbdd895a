import Impresspress.Products.Pricing.Replay

/-!
# The arrangement of an offer

The ids of the components of an offer only show in its previews, and the order in which its
components are listed does not matter at all. The order of its variables decides which of several
faults of a request is reported, and nothing else.

## Main definitions

* `Products.Pricing.PricingPreview.renamed`: a preview with other ids of components.
* `Products.Pricing.Reads`: the value of a variable, said of it by itself.

## Main results

* `Products.Pricing.evaluateOffer_renamed`: other ids of components, and another order of them.
* `Products.Pricing.evaluateOffer_reordered`: another order of the variables.
-/

namespace Products

namespace Pricing

open Checked Money

variable {cal : Calendar} {offer : Offer} {request : PricingPreviewRequest} {scope : InputScope}

/-! ### The ids of the components -/

/-- The component with the id that its key has. -/
def OfferComponent.renamed (name : String → String) (component : OfferComponent) :
    OfferComponent :=
  { component with id := name component.key }

def ResolvedComponent.renamed (name : String → String) (resolved : ResolvedComponent) :
    ResolvedComponent :=
  { resolved with componentId := name resolved.key }

/-- The preview with the ids that the keys of its components have. -/
def PricingPreview.renamed (name : String → String) (preview : PricingPreview) : PricingPreview :=
  { preview with components := preview.components.map (·.renamed name) }

variable {name : String → String} {inputs : ValidatedInputs cal} {quantity : ℕ}

theorem resolveIncluded_renamed (component : OfferComponent) :
    resolveIncluded (component.renamed name) inputs quantity =
      (·.renamed name) <$> resolveIncluded component inputs quantity := by
  simp only [resolveIncluded, map_bind, map_pure]
  rfl

theorem resolveComponent_renamed (component : OfferComponent) :
    resolveComponent (component.renamed name) inputs quantity =
      (·.renamed name) <$> resolveComponent component inputs quantity := by
  simp only [resolveComponent, map_bind]
  refine congrArg _ (funext fun holds => ?_)
  cases holds with
  | true => exact resolveIncluded_renamed component
  | false => rfl

theorem addTotal_renamed (key : String) (subtotal : ℤ) (resolved : ResolvedComponent) :
    addTotal key subtotal (resolved.renamed name) = addTotal key subtotal resolved := rfl

theorem resolveComponents_renamed (subtotal : ℤ) (components : List OfferComponent) :
    resolveComponents inputs quantity subtotal (components.map (·.renamed name)) =
      (fun resolved => (resolved.1, resolved.2.map (·.renamed name))) <$>
        resolveComponents inputs quantity subtotal components := by
  induction components generalizing subtotal with
  | nil => rfl
  | cons component components ih =>
    simp only [List.map_cons, resolveComponents, resolveComponent_renamed, bind_map_left,
      addTotal_renamed, ih, map_bind, map_pure]
    rfl

theorem mergeSort_renamed (components : List OfferComponent) :
    (components.map (·.renamed name)).mergeSort componentLe =
      (components.mergeSort componentLe).map (·.renamed name) :=
  (List.map_mergeSort (f := OfferComponent.renamed name) fun _ _ _ _ => rfl).symm

/-- Other ids do not make an offer invalid. -/
theorem ValidOffer.renamed (h : ValidOffer offer) (name : String → String) :
    ValidOffer { offer with components := offer.components.map (·.renamed name) } where
  currency := h.currency
  numbers := by
    rintro (hversion | hinterval | hnil)
    · exact h.numbers (.inl hversion)
    · exact h.numbers (.inr (.inl hinterval))
    · exact h.numbers (.inr (.inr (List.map_eq_nil_iff.mp hnil)))
  mode := h.mode
  checkout := h.checkout
  validVariables := h.validVariables
  nodup := by
    rw [List.map_map]
    exact h.nodup
  components := by
    refine List.forall_mem_map.mpr fun component hcomponent => ?_
    have hvalid := h.components component hcomponent
    exact ⟨hvalid.condition, hvalid.recurrence, hvalid.amount, hvalid.quantity⟩
  billing := by
    rw [List.any_map]
    exact h.billing

/-- An offer with other ids of components, in another order, has the same previews up to these
ids, and the same faults. -/
theorem evaluateOffer_renamed (h : ValidOffer offer) {components : List OfferComponent}
    (hperm : components.Perm (offer.components.map (·.renamed name))) :
    evaluateOffer cal { offer with components := components } request scope =
      (·.renamed name) <$> evaluateOffer cal offer request scope := by
  have hvalid := (h.renamed name).perm hperm
  have hsort : components.mergeSort componentLe =
      (offer.components.mergeSort componentLe).map (·.renamed name) := by
    rw [← mergeSort_renamed]
    exact (mergeSort_eq_of_perm hperm.symm (h.renamed name).nodup).symm
  have hleft : validateOffer { offer with components := components } = .ok () :=
    validateOffer_iff.mpr hvalid
  simp only [evaluateOffer, hleft, validateOffer_iff.mpr h, hsort, resolveComponents_renamed,
    map_bind, bind_map_left, map_pure]
  rfl

/-- What the shop and its payment provider call an offer does not show in its previews. -/
theorem evaluateOffer_relabelled (h : ValidOffer offer) (productId stripeProductId
    stripePriceId : String) :
    evaluateOffer cal { offer with
        productId := productId
        stripeProductId := stripeProductId
        stripePriceId := stripePriceId } request scope = evaluateOffer cal offer request scope := by
  have hvalid : ValidOffer { offer with
      productId := productId
      stripeProductId := stripeProductId
      stripePriceId := stripePriceId } :=
    ⟨h.currency, h.numbers, h.mode, h.checkout, h.validVariables, h.nodup, fun component hmem =>
      have hcomponent := h.components component hmem
      ⟨hcomponent.condition, hcomponent.recurrence, hcomponent.amount, hcomponent.quantity⟩,
      h.billing⟩
  have hright := validateOffer_iff.mpr h
  have hleft := validateOffer_iff.mpr hvalid
  simp only [evaluateOffer, hleft, hright]
  rfl

/-! ### The order of the variables -/

variable {definition : VariableDefinition} {definitions others : List VariableDefinition}
  {raw : BTreeMap Value}

theorem ValidVariables.perm (h : ValidVariables definitions)
    (hperm : others.Perm definitions) : ValidVariables others where
  nodup := (hperm.map _).nodup_iff.mpr h.nodup
  valid := fun definition hdefinition => h.valid definition (hperm.mem_iff.mp hdefinition)

/-- Each key has one definition, whatever the order. -/
theorem find?_eq_of_perm (h : ValidVariables definitions) (hperm : others.Perm definitions)
    (key : String) : others.find? (·.key = key) = definitions.find? (·.key = key) := by
  have hone : ∀ definition ∈ definitions, ∀ other ∈ definitions, definition.key = other.key →
      definition = other := fun _ hdefinition _ hother => List.inj_on_of_nodup_map h.nodup
        hdefinition hother
  cases hleft : others.find? (·.key = key) with
  | none =>
    refine (List.find?_eq_none.mpr fun definition hdefinition => ?_).symm
    exact List.find?_eq_none.mp hleft definition (hperm.mem_iff.mpr hdefinition)
  | some left =>
    have hmem := hperm.mem_iff.mp (List.mem_of_find?_eq_some hleft)
    have hkey : left.key = key := by simpa using List.find?_some hleft
    cases hright : definitions.find? (·.key = key) with
    | none => exact absurd (decide_eq_true hkey) (List.find?_eq_none.mp hright left hmem)
    | some right =>
      have hkey' : right.key = key := by simpa using List.find?_some hright
      rw [hone left hmem right (List.mem_of_find?_eq_some hright) (hkey.trans hkey'.symm)]

theorem byKey_eq_of_perm (h : ValidVariables definitions) (hperm : others.Perm definitions) :
    byKey others = byKey definitions :=
  Std.ExtTreeMap.ext_getElem? fun {key} => by
    rw [getElem?_byKey (h.perm hperm), getElem?_byKey h, find?_eq_of_perm h hperm]

/-- Another order of the variables does not make an offer invalid. -/
theorem ValidOffer.reordered (h : ValidOffer offer) (hperm : others.Perm offer.variables) :
    ValidOffer { offer with «variables» := others } where
  currency := h.currency
  numbers := h.numbers
  mode := h.mode
  checkout := h.checkout
  validVariables := h.validVariables.perm hperm
  nodup := h.nodup
  components := by
    intro component hcomponent
    have hvalid := h.components component hcomponent
    have hkeys := byKey_eq_of_perm h.validVariables hperm
    have hamount : ∀ keys amountKey, checkAmountKey { offer with «variables» := others } keys
        component amountKey = checkAmountKey offer keys component amountKey := by
      intro keys amountKey
      cases amountKey with
      | none => rfl
      | some key =>
        simp only [checkAmountKey, find?_eq_of_perm h.validVariables hperm]
    have hquantity : ∀ keys, checkQuantity { offer with «variables» := others } keys component =
        checkQuantity offer keys component := by
      intro keys
      simp only [checkQuantity, hperm.any_eq]
    refine ⟨hkeys ▸ hvalid.condition, hvalid.recurrence, ?_, ?_⟩
    · simp only [hkeys, hamount]
      exact hvalid.amount
    · rw [hkeys, hquantity]
      exact hvalid.quantity
  billing := h.billing

/-- The value of a variable: what is given for it, or else its default, read by its definition. -/
def Reads (raw : BTreeMap Value) (definition : VariableDefinition) (result : ValidatedInputs cal) :
    Prop :=
  match raw[definition.key]?.or definition.defaultValue with
  | some value => ∃ read, parseInput cal definition value = .ok read ∧
      result[definition.key]? = some read
  | none => definition.required = false ∧ result[definition.key]? = none

theorem Reads.unique {result result' : ValidatedInputs cal} (h : Reads raw definition result)
    (h' : Reads raw definition result') : result[definition.key]? = result'[definition.key]? := by
  unfold Reads at h h'
  cases hvalue : raw[definition.key]?.or definition.defaultValue with
  | none =>
    rw [hvalue] at h h'
    exact h.2.trans h'.2.symm
  | some value =>
    rw [hvalue] at h h'
    obtain ⟨read, hread, hresult⟩ := h
    obtain ⟨read', hread', hresult'⟩ := h'
    obtain rfl := Except.ok.inj (hread.symm.trans hread')
    exact hresult.trans hresult'.symm

/-- The values are those of each variable by itself. -/
theorem readsAll_of_readValues {values result : ValidatedInputs cal}
    (hnodup : (definitions.map (·.key)).Nodup)
    (hfresh : ∀ definition ∈ definitions, values[definition.key]? = none)
    (h : readValues cal raw values definitions = .ok result) :
    ∀ definition ∈ definitions, Reads raw definition result := by
  induction definitions generalizing values with
  | nil => exact List.forall_mem_nil _
  | cons definition definitions ih =>
    obtain ⟨hlater, hnodup⟩ := List.nodup_cons.mp hnodup
    obtain ⟨hvalues, hfresh⟩ := List.forall_mem_cons.mp hfresh
    have hne : ∀ other ∈ definitions, other.key ≠ definition.key := fun other hother hsame =>
      hlater (List.mem_map.mpr ⟨other, hother, hsame⟩)
    rw [readValues] at h
    refine List.forall_mem_cons.mpr ?_
    unfold Reads
    cases hvalue : raw[definition.key]?.or definition.defaultValue with
    | none =>
      rw [hvalue] at h
      obtain ⟨hrequired, h⟩ := guard_eq_ok.mp h
      exact ⟨⟨eq_false_of_ne_true hrequired, (getElem?_of_readValues hne h).trans hvalues⟩,
        ih hnodup hfresh h⟩
    | some value =>
      rw [hvalue] at h
      obtain ⟨read, hread, h⟩ := bind_eq_ok.mp h
      refine ⟨⟨read, hread, ?_⟩, ih hnodup (fun other hother => ?_) h⟩
      · rw [getElem?_of_readValues hne h, Std.ExtTreeMap.getElem?_insert_self]
      · rw [Std.ExtTreeMap.getElem?_insert,
          if_neg fun hsame => hne other hother (Std.LawfulEqCmp.eq_of_compare hsame).symm]
        exact hfresh other hother

/-- Where each variable by itself is read, all are. -/
theorem exists_readValues {wanted : ValidatedInputs cal} (values : ValidatedInputs cal)
    (h : ∀ definition ∈ definitions, Reads raw definition wanted) :
    ∃ result, readValues cal raw values definitions = .ok result := by
  induction definitions generalizing values with
  | nil => exact ⟨values, rfl⟩
  | cons definition definitions ih =>
    obtain ⟨hreads, hrest⟩ := List.forall_mem_cons.mp h
    rw [readValues]
    unfold Reads at hreads
    cases hvalue : raw[definition.key]?.or definition.defaultValue with
    | none =>
      rw [hvalue] at hreads
      obtain ⟨result, hresult⟩ := ih values hrest
      exact ⟨result, guard_eq_ok.mpr ⟨ne_true_of_eq_false hreads.1, hresult⟩⟩
    | some value =>
      rw [hvalue] at hreads
      obtain ⟨read, hread, -⟩ := hreads
      obtain ⟨result, hresult⟩ := ih (values.insert definition.key read) hrest
      exact ⟨result, bind_eq_ok.mpr ⟨read, hread, hresult⟩⟩

theorem readValues_reordered (hnodup : (definitions.map (·.key)).Nodup)
    (hperm : others.Perm definitions) {result : ValidatedInputs cal}
    (h : readValues cal raw ∅ definitions = .ok result) :
    readValues cal raw ∅ others = .ok result := by
  have hempty : ∀ definition : VariableDefinition,
      (∅ : ValidatedInputs cal)[definition.key]? = none := fun _ => Std.ExtTreeMap.getElem?_empty
  have hreads := readsAll_of_readValues hnodup (fun definition _ => hempty definition) h
  obtain ⟨result', hresult'⟩ := exists_readValues ∅
    fun definition hdefinition => hreads definition (hperm.mem_iff.mp hdefinition)
  have hreads' := readsAll_of_readValues ((hperm.map _).nodup_iff.mpr hnodup)
    (fun definition _ => hempty definition) hresult'
  suffices hsame : result' = result from hsame ▸ hresult'
  refine Std.ExtTreeMap.ext_getElem? fun {key} => ?_
  by_cases hknown : ∃ definition ∈ definitions, definition.key = key
  · obtain ⟨definition, hdefinition, rfl⟩ := hknown
    exact (hreads' definition (hperm.mem_iff.mpr hdefinition)).unique
      (hreads definition hdefinition)
  · have hne : ∀ definition ∈ definitions, definition.key ≠ key :=
      fun definition hdefinition hkey => hknown ⟨definition, hdefinition, hkey⟩
    rw [getElem?_of_readValues hne h,
      getElem?_of_readValues (fun definition hdefinition => hne definition
        (hperm.mem_iff.mp hdefinition)) hresult']

theorem validateInputs_reordered (hperm : others.Perm definitions) {result : ValidatedInputs cal}
    (h : validateInputs cal definitions raw scope = .ok result) :
    validateInputs cal others raw scope = .ok result := by
  obtain ⟨hvalid, hnames, hread⟩ := validateInputs_eq_ok.mp h
  refine validateInputs_eq_ok.mpr ⟨hvalid.perm hperm, ?_,
    readValues_reordered hvalid.nodup hperm hread⟩
  rw [byKey_eq_of_perm hvalid hperm]
  exact hnames

theorem evaluateOffer_of_reordered {preview : PricingPreview}
    (hperm : others.Perm offer.variables)
    (h : evaluateOffer cal offer request scope = .ok preview) :
    evaluateOffer cal { offer with «variables» := others } request scope = .ok preview := by
  obtain ⟨hvalid, hrequest, inputs, hinputs, hrest⟩ := evaluateOffer_eq_ok.mp h
  exact evaluateOffer_eq_ok.mpr ⟨hvalid.reordered hperm, hrequest, inputs,
    validateInputs_reordered hperm hinputs, hrest⟩

/-- An offer whose variables are listed in another order has the same previews. -/
theorem evaluateOffer_reordered {preview : PricingPreview} (hperm : others.Perm offer.variables) :
    evaluateOffer cal { offer with «variables» := others } request scope = .ok preview ↔
      evaluateOffer cal offer request scope = .ok preview := by
  refine ⟨fun h => ?_, evaluateOffer_of_reordered hperm⟩
  have hback : evaluateOffer cal
      { { offer with «variables» := others } with «variables» := offer.variables } request scope =
        .ok preview := evaluateOffer_of_reordered hperm.symm h
  exact hback

end Pricing

end Products
