import Impresspress.Products.Pricing.Tiers
import Impresspress.Products.Pricing.Validity
import Mathlib.Data.List.Nodup

/-!
# Totals are exact

Each step of a price is checked, so that a price that is given is the exact one. Since components
are priced in an order of their own, the order in which an offer lists them does not matter.

## Main definitions

* `Products.Pricing.ExactComponent`: what a component of a preview says.

## Main results

* `Products.Pricing.evaluateOffer_eq_ok`: when an offer is priced, and as what.
* `Products.Pricing.mergeSort_eq_of_perm`: components of different keys have one order.
-/

namespace Products

namespace Pricing

open Checked Money

variable {cal : Calendar} {offer : Offer} {request : PricingPreviewRequest} {scope : InputScope}
  {inputs : ValidatedInputs cal} {requestQuantity : ℕ}

/-! ### The order of the components -/

theorem componentLe_trans (a b c : OfferComponent) (hab : componentLe a b = true)
    (hbc : componentLe b c = true) : componentLe a c = true := by
  simp only [componentLe, decide_eq_true_eq] at *
  rcases hab with hab | ⟨hab, hkey⟩ <;> rcases hbc with hbc | ⟨hbc, hkey'⟩
  · exact .inl (hab.trans hbc)
  · exact .inl (hbc ▸ hab)
  · exact .inl (hab ▸ hbc)
  · exact .inr ⟨hab.trans hbc, String.le_trans hkey hkey'⟩

theorem componentLe_total (a b : OfferComponent) :
    (componentLe a b || componentLe b a) = true := by
  simp only [componentLe, Bool.or_eq_true, decide_eq_true_eq]
  rcases lt_trichotomy a.sortOrder b.sortOrder with hlt | heq | hgt
  · exact .inl (.inl hlt)
  · exact (String.le_total a.key b.key).imp (fun h => .inr ⟨heq, h⟩) fun h => .inr ⟨heq.symm, h⟩
  · exact .inr (.inl hgt)

theorem key_eq_of_componentLe {a b : OfferComponent} (hab : componentLe a b = true)
    (hba : componentLe b a = true) : a.key = b.key := by
  simp only [componentLe, decide_eq_true_eq] at *
  rcases hab with hab | ⟨hab, hkey⟩ <;> rcases hba with hba | ⟨hba, hkey'⟩
  · exact absurd (hab.trans hba) (lt_irrefl _)
  · exact absurd (hba ▸ hab) (lt_irrefl _)
  · exact absurd (hab ▸ hba) (lt_irrefl _)
  · exact String.le_antisymm hkey hkey'

/-- Components of different keys have one order. -/
theorem mergeSort_eq_of_perm {left right : List OfferComponent} (hperm : left.Perm right)
    (hnodup : (left.map (·.key)).Nodup) :
    left.mergeSort componentLe = right.mergeSort componentLe := by
  have hsame : (left.mergeSort componentLe).Perm (right.mergeSort componentLe) :=
    (List.mergeSort_perm left _).trans (hperm.trans (List.mergeSort_perm right _).symm)
  refine List.Perm.eq_of_pairwise (fun a b ha hb hab hba => ?_)
    (List.pairwise_mergeSort componentLe_trans componentLe_total left)
    (List.pairwise_mergeSort componentLe_trans componentLe_total right) hsame
  exact List.inj_on_of_nodup_map hnodup (List.mem_mergeSort.mp ha)
    (hperm.mem_iff.mpr (List.mem_mergeSort.mp hb)) (key_eq_of_componentLe hab hba)

/-! ### Components -/

/-- What a component of a preview says of the offer's component. -/
structure ExactComponent (inputs : ValidatedInputs cal) (requestQuantity : ℕ)
    (component : OfferComponent) (resolved : ResolvedComponent) : Prop where
  componentId : resolved.componentId = component.id
  key : resolved.key = component.key
  condition : evaluateCondition component.condition inputs = .ok resolved.included
  included : resolved.included = true → ∃ quantity,
    resolveAmount component.amount inputs = .ok resolved.unitAmountMinor ∧
      resolveQuantity component.quantity inputs = .ok quantity ∧
        resolved.quantity = quantity * requestQuantity ∧
          resolved.totalAmountMinor = resolved.unitAmountMinor * quantity * requestQuantity
  excluded : resolved.included = false →
    resolved.unitAmountMinor = 0 ∧ resolved.quantity = 0 ∧ resolved.totalAmountMinor = 0

theorem resolveComponent_exact {component : OfferComponent} {resolved : ResolvedComponent}
    (h : resolveComponent component inputs requestQuantity = .ok resolved) :
    ExactComponent inputs requestQuantity component resolved := by
  obtain ⟨holds, hcondition, h⟩ := bind_eq_ok.mp h
  cases holds with
  | false =>
    obtain rfl := Except.ok.inj h
    exact ⟨rfl, rfl, hcondition, nofun, fun _ => ⟨rfl, rfl, rfl⟩⟩
  | true =>
    change resolveIncluded component inputs requestQuantity = _ at h
    obtain ⟨unitAmount, hamount, h⟩ := bind_eq_ok.mp h
    obtain ⟨componentQuantity, hquantity, h⟩ := bind_eq_ok.mp h
    obtain ⟨quantity, hu64, h⟩ := bind_eq_ok.mp h
    obtain ⟨signed, hi64, h⟩ := bind_eq_ok.mp h
    obtain ⟨total, htotal, h⟩ := bind_eq_ok.mp h
    obtain ⟨rfl, -⟩ := u64_eq_some_iff.mp (okOr_eq_ok.mp hu64)
    obtain ⟨rfl, -⟩ := i64_eq_some_iff.mp (okOr_eq_ok.mp hi64)
    obtain ⟨rfl, -⟩ := i64_eq_some_iff.mp (okOr_eq_ok.mp htotal)
    obtain rfl := Except.ok.inj h
    refine ⟨rfl, rfl, hcondition, fun _ => ⟨componentQuantity, hamount, hquantity, rfl, ?_⟩, nofun⟩
    rw [Nat.cast_mul, mul_assoc]

/-- The total of the components that are included. -/
def includedTotal (components : List ResolvedComponent) : ℤ :=
  ((components.filter (·.included)).map (·.totalAmountMinor)).sum

/-- The components are priced one by one, and their totals are added up. -/
theorem resolveComponents_exact {components : List OfferComponent} {subtotal : ℤ}
    {result : ℤ × List ResolvedComponent}
    (h : resolveComponents inputs requestQuantity subtotal components = .ok result) :
    List.Forall₂ (ExactComponent inputs requestQuantity) components result.2 ∧
      result.1 = subtotal + includedTotal result.2 := by
  induction components generalizing subtotal result with
  | nil =>
    obtain rfl := Except.ok.inj h
    exact ⟨.nil, (add_zero _).symm⟩
  | cons component components ih =>
    obtain ⟨resolved, hresolved, h⟩ := bind_eq_ok.mp h
    obtain ⟨next, hnext, h⟩ := bind_eq_ok.mp h
    obtain ⟨rest, hrest, h⟩ := bind_eq_ok.mp h
    obtain rfl := Except.ok.inj h
    obtain ⟨hall, htotal⟩ := ih hrest
    refine ⟨.cons (resolveComponent_exact hresolved) hall, htotal.trans ?_⟩
    unfold includedTotal
    unfold addTotal at hnext
    split_ifs at hnext with hincluded
    · obtain ⟨rfl, -⟩ := i64_eq_some_iff.mp (okOr_eq_ok.mp hnext)
      rw [List.filter_cons_of_pos hincluded, List.map_cons, List.sum_cons, add_assoc]
    · obtain rfl := Except.ok.inj hnext
      rw [List.filter_cons_of_neg hincluded]

/-! ### Offers -/

theorem checkTotal_eq_ok {policy : CheckoutPolicy} {subtotal : ℤ} :
    checkTotal policy subtotal = .ok () ↔ 0 < subtotal ∧
      (∀ minimum ∈ policy.minimumTotalMinor, minimum ≤ subtotal) ∧
        ∀ maximum ∈ policy.maximumTotalMinor, subtotal ≤ maximum := by
  unfold checkTotal
  simp only [guard_eq_ok, not_le, Option.any_eq_true, not_exists, not_and, decide_eq_true_eq,
    not_lt, and_true]
  rfl

/-- When an offer is priced, and as what. -/
theorem evaluateOffer_eq_ok {preview : PricingPreview} :
    evaluateOffer cal offer request scope = .ok preview ↔
      ValidOffer offer ∧ checkRequest offer request = .ok () ∧
        ∃ inputs, validateInputs cal offer.variables request.inputs scope = .ok inputs ∧
          ∃ resolved, resolveComponents inputs request.quantity 0
              (offer.components.mergeSort componentLe) = .ok resolved ∧
            checkTotal offer.checkout resolved.1 = .ok () ∧
              ∃ currency, normalizeCurrency offer.currency = .ok currency ∧
                preview = assemblePreview offer request inputs.normalized resolved.1 resolved.2
                  currency := by
  unfold evaluateOffer
  constructor
  · intro h
    obtain ⟨_, hvalid, h⟩ := bind_eq_ok.mp h
    obtain ⟨_, hrequest, h⟩ := bind_eq_ok.mp h
    obtain ⟨inputs, hinputs, h⟩ := bind_eq_ok.mp h
    obtain ⟨resolved, hresolved, h⟩ := bind_eq_ok.mp h
    obtain ⟨_, htotal, h⟩ := bind_eq_ok.mp h
    obtain ⟨currency, hcurrency, h⟩ := bind_eq_ok.mp h
    exact ⟨validateOffer_iff.mp hvalid, hrequest, inputs, hinputs, resolved, hresolved, htotal,
      currency, mapErr_eq_ok.mp hcurrency, (Except.ok.inj h).symm⟩
  · rintro ⟨hvalid, hrequest, inputs, hinputs, resolved, hresolved, htotal, currency, hcurrency, rfl⟩
    exact bind_eq_ok.mpr ⟨(), validateOffer_iff.mpr hvalid, bind_eq_ok.mpr ⟨(), hrequest,
      bind_eq_ok.mpr ⟨inputs, hinputs, bind_eq_ok.mpr ⟨resolved, hresolved, bind_eq_ok.mpr ⟨(),
        htotal, bind_eq_ok.mpr ⟨currency, mapErr_eq_ok.mpr hcurrency, rfl⟩⟩⟩⟩⟩⟩

/-- The components of a preview, its subtotal, and the order of the offer's components. -/
theorem evaluateOffer_totals {preview : PricingPreview}
    (h : evaluateOffer cal offer request scope = .ok preview) :
    (∃ inputs, validateInputs cal offer.variables request.inputs scope = .ok inputs ∧
      List.Forall₂ (ExactComponent inputs request.quantity)
        (offer.components.mergeSort componentLe) preview.components) ∧
    preview.amounts.subtotalMinor = includedTotal preview.components ∧
    0 < preview.amounts.subtotalMinor ∧
    (∀ minimum ∈ offer.checkout.minimumTotalMinor, minimum ≤ preview.amounts.subtotalMinor) ∧
    (∀ maximum ∈ offer.checkout.maximumTotalMinor, preview.amounts.subtotalMinor ≤ maximum) ∧
    ∀ components, components.Perm offer.components →
      evaluateOffer cal { offer with components := components } request scope = .ok preview := by
  obtain ⟨hvalid, hrequest, inputs, hinputs, resolved, hresolved, htotal, currency, hcurrency, rfl⟩ :=
    evaluateOffer_eq_ok.mp h
  obtain ⟨hall, hsum⟩ := resolveComponents_exact hresolved
  obtain ⟨hpos, hminimum, hmaximum⟩ := checkTotal_eq_ok.mp htotal
  refine ⟨⟨inputs, hinputs, hall⟩, hsum.trans (zero_add _), hpos, hminimum, hmaximum, ?_⟩
  intro components hperm
  have hsort := mergeSort_eq_of_perm hperm.symm hvalid.nodup
  exact evaluateOffer_eq_ok.mpr ⟨hvalid.perm hperm, hrequest, inputs, hinputs, resolved,
    hsort ▸ hresolved, htotal, currency, hcurrency, rfl⟩

/-- Coffee by weight, and gift wrapping. -/
def coffee : Offer where
  id := "offer_1"
  productId := "coffee"
  version := 1
  name := "Coffee"
  mode := .payment
  currency := "nzd"
  pricingModel := .components
  recurringInterval := none
  intervalCount := 1
  usageType := .licensed
  billingScheme := .perUnit
  taxBehavior := .unspecified
  «variables» :=
    [{ key := "kilograms", kind := .number, label := "Kilograms", helpText := "", required := true
       defaultValue := none, allowedValues := [], minimum := some "0.5", maximum := none
       step := some "0.25", maximumLength := none, visibility := .publicly, sortOrder := 0 },
     { key := "gift", kind := .boolean, label := "Gift", helpText := "", required := false
       defaultValue := some (.bool false), allowedValues := [], minimum := none, maximum := none
       step := none, maximumLength := none, visibility := .publicly, sortOrder := 1 }]
  components :=
    [{ id := "row_1", key := "bag", label := "Bag", description := "", sortOrder := 0
       required := true, amount := .perUnit "kilograms" 1000, quantity := .fixed 1
       condition := .always, recurrence := none, stripePriceId := "", metadata := ∅ },
     { id := "row_2", key := "wrap", label := "Wrapping", description := "", sortOrder := 1
       required := false, amount := .fixed 300, quantity := .fixed 1
       condition := .equals "gift" (.bool true), recurrence := none, stripePriceId := ""
       metadata := ∅ }]
  checkout :=
    { minimumTotalMinor := none, maximumTotalMinor := some 100000, allowPromotionCodes := false
      automaticTax := false, collectBillingAddress := false, collectShippingAddress := false
      allowedShippingCountries := [], shippingOptions := [], createCustomer := false
      requireTermsConsent := false, trialDays := 0 }
  stripeProductId := ""
  stripePriceId := ""

/-- Two bags of one and a half kilograms. -/
def twoBags : PricingPreviewRequest where
  offerId := "offer_1"
  quantity := 2
  inputs := (∅ : BTreeMap Value).insert "kilograms" (.string "+1.50")

def coffeeInputs : ValidatedInputs noDates :=
  ((∅ : ValidatedInputs noDates).insert "kilograms"
    (.number ⟨15, 1, by decide, by decide, by decide, by decide⟩)).insert "gift" (.boolean false)

def coffeePreview : PricingPreview :=
  assemblePreview coffee twoBags coffeeInputs.normalized 3000
    [{ componentId := "row_1", key := "bag", label := "Bag", included := true, required := true
       unitAmountMinor := 1500, quantity := 2, totalAmountMinor := 3000, reason := "included" },
     { componentId := "row_2", key := "wrap", label := "Wrapping", included := false
       required := false, unitAmountMinor := 0, quantity := 0, totalAmountMinor := 0
       reason := "condition_not_met" }] "NZD"

theorem evaluateOffer_coffee :
    evaluateOffer noDates coffee twoBags .publicly = .ok coffeePreview := by
  have hvalid : validateOffer coffee = .ok () := by rfl
  have hinputs : validateInputs noDates coffee.variables twoBags.inputs .publicly =
      .ok coffeeInputs := by rfl
  have hsorted : coffee.components.mergeSort componentLe = coffee.components :=
    List.mergeSort_of_pairwise (by decide)
  have hresolved : resolveComponents coffeeInputs 2 0 coffee.components =
      .ok (3000, coffeePreview.components) := by rfl
  have htotal : checkTotal coffee.checkout 3000 = .ok () := by decide
  have hcurrency : normalizeCurrency "nzd" = .ok "NZD" := by decide
  exact evaluateOffer_eq_ok.mpr ⟨validateOffer_iff.mp hvalid, by decide, coffeeInputs, hinputs,
    (3000, coffeePreview.components), hsorted.symm ▸ hresolved, htotal, "NZD", hcurrency, rfl⟩

theorem evaluateOffer_totals_coffee :
    evaluateOffer noDates { coffee with components := coffee.components.reverse } twoBags .publicly =
        .ok coffeePreview ∧
      coffeePreview.amounts.subtotalMinor = includedTotal coffeePreview.components := by
  obtain ⟨-, hsum, -, -, -, hperm⟩ := evaluateOffer_totals evaluateOffer_coffee
  exact ⟨hperm _ (List.reverse_perm _), hsum⟩

end Pricing

end Products
