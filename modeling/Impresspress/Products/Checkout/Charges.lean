import Impresspress.Products.Checkout.Forms
import Impresspress.Products.Pricing.Totals

/-!
# Stripe is asked to charge the preview

Both forms have one line item for each component of a preview that is included. Read as Stripe reads
it, where a price of the catalogue stands for the amount that is stored in it, a line item charges the
component's amount, in the currency and with the recurrence of the offer.

## Main definitions

* `Products.Checkout.chargeOf`: what Stripe charges for a line item.
* `Products.Checkout.Synced`: the prices that the components refer to were validated.
* `Products.Checkout.StripeForm`: a form that is built for a preview.

## Main results

* `Products.Checkout.chargeOf_lineItem`: the line item of a component charges its amount.
-/

namespace Products

namespace Checkout

open Checked Text Money Pricing

/-! ### What Stripe charges -/

/-- What is charged for a line item. -/
structure Charge where
  currency : String
  recurrence : Option (Option String × Option ℕ)
  unitAmountMinor : ℤ
  quantity : ℕ
  deriving DecidableEq

/-- The amount that is charged. -/
def Charge.amountMinor (charge : Charge) : ℤ := charge.unitAmountMinor * charge.quantity

/-- The recurrence of a line item that has its own price. -/
def inlineRecurrence (item : Form) : Option (Option String × Option ℕ) :=
  (item.lookup "[price_data][recurring][interval]").map fun interval =>
    (some interval, (item.lookup "[price_data][recurring][interval_count]").bind readNat)

/-- What Stripe charges for a line item: the price of the catalogue, or that of the item. -/
def chargeOf (prices : String → Option StripePrice) (item : Form) : Option Charge := do
  let quantity ← (item.lookup "[quantity]").bind readNat
  match item.lookup "[price]" with
  | some priceId => do
    let price ← prices priceId
    let currency ← price.currency
    let unitAmountMinor ← price.unitAmount
    return ⟨currency, price.recurring.map fun recurring =>
      (recurring.interval, recurring.intervalCount), unitAmountMinor, quantity⟩
  | none => do
    let currency ← item.lookup "[price_data][currency]"
    let unitAmountMinor ← (item.lookup "[price_data][unit_amount]").bind readInt
    return ⟨currency, inlineRecurrence item, unitAmountMinor, quantity⟩

/-- The recurrence of an offer. -/
def offerRecurrence (offer : Offer) : Option (Option String × Option ℕ) :=
  match offer.mode with
  | .payment => none
  | .subscription => some (offer.recurringInterval.map wireEnum, some offer.intervalCount)

/-- The prices of the catalogue that the components refer to are there, and were validated. -/
def Synced (prices : String → Option StripePrice) (stripeProductId : String) (livemode : Bool)
    (offer : Offer) : Prop :=
  ∀ component ∈ offer.components, ∀ unitAmountMinor, component.amount = .fixed unitAmountMinor →
    "price_".toList <+: trim component.stripePriceId.toList →
      ∃ price id, prices (trimmed component.stripePriceId) = some price ∧
        validateStripePrice price none stripeProductId offer unitAmountMinor livemode true = .ok id

/-- The form that one of the two builders gives for a preview. -/
inductive StripeForm (offer : Offer) (preview : PricingPreview) (form : Form) : Prop
  | checkout (productName orderId : String) (request : CheckoutRequest)
      (successUrl cancelUrl : String) (automaticTax : Bool) (platformCountry : Option String)
      (feeMinor : ℤ) (feeBasisPoints : ℕ)
      (hform : buildOfferCheckoutForm offer preview productName orderId request successUrl
        cancelUrl automaticTax platformCountry feeMinor feeBasisPoints = .ok form)
  | paymentLink (productName presetId : String) (afterCompletionUrl : Option String)
      (automaticTax : Bool) (platformCountry : Option String) (feeMinor : ℤ)
      (feeBasisPoints : ℕ)
      (hform : paymentLinkForm offer preview productName presetId afterCompletionUrl
        automaticTax platformCountry feeMinor feeBasisPoints = .ok form)

variable {cal : Calendar} {offer : Offer} {preview : PricingPreview} {form : Form}
  {prices : String → Option StripePrice} {stripeProductId : String} {livemode : Bool}
  {currency productName : String} {component : ResolvedComponent}

/-! ### A line item -/

theorem syncedComponentPrice_eq_some {priceId : String}
    (h : syncedComponentPrice offer component = some priceId) :
    ∃ source ∈ offer.components, source.amount = .fixed component.unitAmountMinor ∧
      "price_".toList <+: trim source.stripePriceId.toList ∧
        priceId = trimmed source.stripePriceId := by
  obtain ⟨source, hsource, h⟩ := List.exists_of_findSome?_eq_some h
  split at h
  · rename_i unitAmountMinor hamount
    obtain ⟨⟨-, rfl, hprefix⟩, hid⟩ := Option.ite_none_right_eq_some.mp h
    exact ⟨source, hsource, hamount, hprefix, (Option.some.inj hid).symm⟩
  · cases h

/-- What a price that was validated says. -/
theorem validateStripePrice_eq_ok {price : StripePrice} {expectedId : Option String}
    {unitAmountMinor : ℤ} {active : Bool} {id : String}
    (h : validateStripePrice price expectedId stripeProductId offer unitAmountMinor livemode active =
      .ok id) :
    eqIgnoreAsciiCase (price.currency.getD "").toList offer.currency.toList = true ∧
      price.unitAmount = some unitAmountMinor ∧ recurringMatches offer price = true := by
  obtain ⟨hnot, -⟩ := guard_eq_ok.mp h
  simp only [not_or, ne_eq, not_not] at hnot
  obtain ⟨-, -, -, -, hcurrency, hamount, -, hrecurring⟩ := hnot
  exact ⟨Bool.eq_true_of_not_eq_false hcurrency, hamount,
    Bool.eq_true_of_not_eq_false hrecurring⟩

/-- A price that recurs as the offer does has its recurrence. -/
theorem recurrence_of_recurringMatches {price : StripePrice}
    (h : recurringMatches offer price = true) :
    (price.recurring.map fun recurring => (recurring.interval, recurring.intervalCount)) =
      offerRecurrence offer := by
  unfold recurringMatches at h
  unfold offerRecurrence
  cases hmode : offer.mode with
  | payment =>
    simp only [hmode, decide_eq_true_eq] at h
    rw [h]
    rfl
  | subscription =>
    simp only [hmode, decide_eq_true_eq] at h
    obtain ⟨hinterval, hcount, -⟩ := h
    cases hrecurring : price.recurring with
    | none =>
      rw [hrecurring] at hcount
      cases hcount
    | some recurring =>
      rw [hrecurring] at hinterval hcount
      exact congrArg some (Prod.ext hinterval hcount)

/-- The fields of the recurrence of an offer that has the one its mode asks for. -/
theorem recurringFields_eq_ok {recurring : Form} (h : recurringFields offer = .ok recurring) :
    (offer.mode = .payment ∧ recurring = []) ∨
      ∃ interval, offer.mode = .subscription ∧ offer.recurringInterval = some interval ∧
        recurring = [("[recurring][interval]", wireEnum interval),
          ("[recurring][interval_count]", toString offer.intervalCount)] := by
  unfold recurringFields at h
  split at h
  · rename_i hmode
    exact .inl ⟨hmode, (Except.ok.inj h).symm⟩
  · cases h
  · rename_i interval hmode hinterval
    exact .inr ⟨interval, hmode, hinterval, (Except.ok.inj h).symm⟩

/-- A line item that refers to a price of the catalogue. -/
theorem chargeOf_price {price : StripePrice} {priceId code : String} {unitAmountMinor : ℤ}
    (quantity : ℕ) (hprice : prices priceId = some price) (hcode : price.currency = some code)
    (hunit : price.unitAmount = some unitAmountMinor) (hrecurring : recurringMatches offer price) :
    chargeOf prices [("[price]", priceId), ("[quantity]", toString quantity)] =
      some ⟨code, offerRecurrence offer, unitAmountMinor, quantity⟩ := by
  have hlookup : List.lookup "[quantity]" [("[price]", priceId), ("[quantity]", toString quantity)] =
      some (toString quantity) := rfl
  have hlookup' : List.lookup "[price]" [("[price]", priceId), ("[quantity]", toString quantity)] =
      some priceId := rfl
  simp only [chargeOf, hlookup, hlookup', Option.bind_some, readNat_toString, Option.bind_eq_bind,
    hprice, hcode, hunit, recurrence_of_recurringMatches hrecurring]
  rfl

/-- A line item with its own price. -/
theorem chargeOf_priceData {recurring : Form} {name tax : String} (unitAmountMinor : ℤ)
    (quantity : ℕ) (hrecurring : recurringFields offer = .ok recurring) :
    chargeOf prices (Form.nest "[price_data]" ([("[currency]", currency),
        ("[unit_amount]", toString unitAmountMinor), ("[product_data][name]", name),
        ("[tax_behavior]", tax)] ++ recurring) ++ [("[quantity]", toString quantity)]) =
      some ⟨currency, offerRecurrence offer, unitAmountMinor, quantity⟩ := by
  generalize hitem : Form.nest "[price_data]" _ ++ _ = item
  have hfields : item.lookup "[quantity]" = some (toString quantity) ∧
      item.lookup "[price]" = none ∧ item.lookup "[price_data][currency]" = some currency ∧
      item.lookup "[price_data][unit_amount]" = some (toString unitAmountMinor) ∧
      inlineRecurrence item = offerRecurrence offer := by
    obtain ⟨hmode, rfl⟩ | ⟨interval, hmode, hinterval, rfl⟩ := recurringFields_eq_ok hrecurring
    · rw [← hitem, offerRecurrence, hmode]
      exact ⟨rfl, rfl, rfl, rfl, rfl⟩
    · rw [← hitem, offerRecurrence, hmode, hinterval]
      refine ⟨rfl, rfl, rfl, rfl, ?_⟩
      change some (some (wireEnum interval), readNat (toString offer.intervalCount)) = _
      rw [readNat_toString]
      rfl
  obtain ⟨hquantity, hprice, hcurrency, hunit, hrecurrence⟩ := hfields
  simp only [chargeOf, hquantity, hprice, hcurrency, hunit, hrecurrence, Option.bind_some,
    readNat_toString, readInt_toString, Option.bind_eq_bind]
  rfl

/-- The line item of a component charges its amount, in the currency and with the recurrence of the
offer. -/
theorem chargeOf_lineItem (hsynced : Synced prices stripeProductId livemode offer)
    (hcurrency : normalizeCurrency offer.currency = .ok currency) {item : Form}
    (hitem : lineItem offer (toAsciiLowercase currency) productName component = .ok item) :
    ∃ code, normalizeCurrency code = .ok currency ∧ chargeOf prices item =
      some ⟨code, offerRecurrence offer, component.unitAmountMinor, component.quantity⟩ := by
  unfold lineItem at hitem
  cases hprice : syncedComponentPrice offer component with
  | some priceId =>
    rw [hprice] at hitem
    obtain rfl := Except.ok.inj hitem
    obtain ⟨source, hsource, hamount, hprefix, rfl⟩ := syncedComponentPrice_eq_some hprice
    obtain ⟨price, id, hfound, hvalid⟩ := hsynced source hsource _ hamount hprefix
    obtain ⟨hsame, hunit, hrecurring⟩ := validateStripePrice_eq_ok hvalid
    have hread := (normalizeCurrency_of_eqIgnoreAsciiCase hsame).trans hcurrency
    cases hcode : price.currency with
    | none =>
      rw [hcode] at hread
      have hempty : normalizeCurrency "" = .error "currency must be a three-letter ISO code" := by
        decide
      cases hempty.symm.trans hread
    | some code =>
      rw [hcode] at hread
      exact ⟨code, hread, chargeOf_price _ hfound hcode hunit hrecurring⟩
  | none =>
    rw [hprice] at hitem
    obtain ⟨recurring, hrecurring, hitem⟩ := bind_eq_ok.mp hitem
    obtain rfl := Except.ok.inj hitem
    have hlower : normalizeCurrency (toAsciiLowercase currency) = .ok currency :=
      (normalizeCurrency_map sameLetter_toLower currency).trans
        (normalizeCurrency_normalized hcurrency)
    exact ⟨_, hlower, chargeOf_priceData _ _ hrecurring⟩

/-! ### The line items of a form -/

theorem lineItems_eq_ok {components : List ResolvedComponent} {items : List Form}
    (h : lineItems offer currency productName components = .ok items) :
    List.Forall₂ (fun component item => lineItem offer currency productName component = .ok item)
      components items := by
  induction components generalizing items with
  | nil =>
    obtain rfl := Except.ok.inj h
    exact .nil
  | cons component components ih =>
    obtain ⟨item, hitem, h⟩ := bind_eq_ok.mp h
    obtain ⟨rest, hrest, h⟩ := bind_eq_ok.mp h
    obtain rfl := Except.ok.inj h
    exact .cons hitem (ih hrest)

/-- No key of the form begins as those of line items do. -/
def Foreign (form : Form) : Prop := ∀ field ∈ form, field.1.toList.head? ≠ some 'l'

theorem foreign_nil : Foreign [] := List.forall_mem_nil _

theorem foreign_cons {key value : String} :
    Foreign ((key, value) :: form) ↔ key.toList.head? ≠ some 'l' ∧ Foreign form :=
  List.forall_mem_cons

theorem Foreign.append {front back : Form} (hfront : Foreign front) (hback : Foreign back) :
    Foreign (front ++ back) := List.forall_mem_append.mpr ⟨hfront, hback⟩

theorem foreign_ite {condition : Prop} [Decidable condition] (h : Foreign form) :
    Foreign (if condition then form else []) := by
  split
  · exact h
  · exact foreign_nil

/-- The entries of a list of another name. -/
theorem foreign_entries {name : String} (c : Char) (hname : name.toList.head? = some c)
    (hc : c ≠ 'l') (index : ℕ) (list : List Form) : Foreign (Form.entries name index list) := by
  induction list generalizing index with
  | nil => exact foreign_nil
  | cons entry rest ih =>
    refine Foreign.append (fun field hfield => ?_) (ih (index + 1))
    obtain ⟨inner, -, rfl⟩ := List.mem_map.mp hfield
    rw [String.toList_append, toList_indexed, List.append_assoc, List.head?_append, hname]
    simpa using hc

theorem foreign_orderFields (orderId : String) : Foreign (orderFields offer orderId) := by
  unfold orderFields
  cases offer.mode <;> simp [foreign_cons, foreign_nil]

theorem foreign_emailFields (request : CheckoutRequest) : Foreign (emailFields request) := by
  unfold emailFields
  split
  · exact foreign_nil
  · simp [foreign_cons, foreign_nil]

theorem foreign_presentationFields {successUrl cancelUrl : String}
    {presentation : CheckoutPresentation}
    (h : presentationFields successUrl cancelUrl presentation = .ok form) : Foreign form := by
  cases presentation with
  | hosted =>
    obtain rfl := Except.ok.inj h
    simp [foreign_cons, foreign_nil]
  | embedded =>
    obtain rfl := Except.ok.inj h
    simp [foreign_cons, foreign_nil]
  | paymentLink => cases h

theorem foreign_collectionFields (automaticTax : Bool) (policy : CheckoutPolicy) :
    Foreign (collectionFields automaticTax policy) := by
  unfold collectionFields
  refine ((foreign_ite ?_).append (foreign_ite ?_)).append (foreign_ite ?_) <;>
    simp [foreign_cons, foreign_nil]

theorem foreign_customerFields : Foreign (customerFields offer) := by
  unfold customerFields
  refine ((foreign_ite ?_).append (foreign_ite ?_)).append (foreign_ite ?_) <;>
    simp [foreign_cons, foreign_nil]

theorem foreign_feeFields {amountKey percentKey : String} {feeMinor : ℤ} {feeBasisPoints : ℕ}
    (hamount : amountKey.toList.head? ≠ some 'l') (hpercent : percentKey.toList.head? ≠ some 'l') :
    Foreign (feeFields offer amountKey percentKey feeMinor feeBasisPoints) := by
  refine foreign_ite ?_
  cases offer.mode with
  | payment => exact foreign_cons.mpr ⟨hamount, foreign_nil⟩
  | subscription => exact foreign_cons.mpr ⟨hpercent, foreign_nil⟩

theorem foreign_linkFields (presetId : String) (afterCompletionUrl : Option String) :
    Foreign (linkFields offer presetId afterCompletionUrl) := by
  unfold linkFields
  refine Foreign.append (Foreign.append ?_ (foreign_ite ?_)) ?_
  · simp [foreign_cons, foreign_nil]
  · simp [foreign_cons, foreign_nil]
  · cases afterCompletionUrl <;> simp [foreign_cons, foreign_nil]

theorem foreign_shippingAddress {platformCountry : Option String}
    (h : pushShippingAddressCollection offer platformCountry = .ok form) : Foreign form := by
  unfold pushShippingAddressCollection at h
  split at h
  · obtain rfl := Except.ok.inj h
    exact foreign_nil
  · obtain ⟨countries, -, h⟩ := bind_eq_ok.mp h
    obtain rfl := Except.ok.inj h
    intro field hfield
    obtain ⟨entry, -, rfl⟩ := List.mem_map.mp hfield
    rw [toList_indexed]
    simp

/-- A form is other fields, and the line items of the components that are included. -/
theorem StripeForm.lineItems (h : StripeForm offer preview form) :
    ∃ productName others items, Foreign others ∧
      lineItems offer (toAsciiLowercase preview.amounts.currency) productName
        (preview.components.filter (·.included)) = .ok items ∧
      form = others ++ Form.entries "line_items" 0 items := by
  cases h with
  | checkout productName orderId request successUrl cancelUrl automaticTax platformCountry feeMinor
      feeBasisPoints hform =>
    obtain ⟨presentation, hpresentation, hform⟩ := bind_eq_ok.mp hform
    obtain ⟨address, haddress, hform⟩ := bind_eq_ok.mp hform
    obtain ⟨items, hitems, hform⟩ := bind_eq_ok.mp hform
    obtain ⟨-, hform⟩ := guard_eq_ok.mp hform
    refine ⟨productName, _, items, ?_, hitems, (Except.ok.inj hform).symm⟩
    exact (((((((foreign_orderFields orderId).append (foreign_emailFields request)).append
      (foreign_presentationFields hpresentation)).append (foreign_collectionFields _ _)).append
      (foreign_shippingAddress haddress)).append (foreign_entries 's' rfl (by decide) 0 _)).append
      foreign_customerFields).append (foreign_feeFields (by decide) (by decide))
  | paymentLink productName presetId afterCompletionUrl automaticTax platformCountry feeMinor
      feeBasisPoints hform =>
    obtain ⟨-, hform⟩ := guard_eq_ok.mp hform
    obtain ⟨address, haddress, hform⟩ := bind_eq_ok.mp hform
    obtain ⟨_, -, hform⟩ := bind_eq_ok.mp hform
    obtain ⟨items, hitems, hform⟩ := bind_eq_ok.mp hform
    refine ⟨productName, _, items, ?_, hitems, (Except.ok.inj hform).symm⟩
    exact (((((foreign_linkFields presetId afterCompletionUrl).append
      (foreign_collectionFields _ _)).append (foreign_shippingAddress haddress)).append
      (foreign_entries 's' rfl (by decide) 0 _)).append foreign_customerFields).append
      (foreign_feeFields (by decide) (by decide))

/-! ### The charges of a preview -/

/-- What is charged for a component. -/
structure ExactCharge (offer : Offer) (currency : String) (component : ResolvedComponent)
    (charge : Charge) : Prop where
  currency : normalizeCurrency charge.currency = .ok currency
  recurrence : charge.recurrence = offerRecurrence offer
  unitAmountMinor : charge.unitAmountMinor = component.unitAmountMinor
  quantity : charge.quantity = component.quantity

theorem exists_charges (hsynced : Synced prices stripeProductId livemode offer)
    (hcurrency : normalizeCurrency offer.currency = .ok currency)
    {components : List ResolvedComponent} {items : List Form}
    (hitems : List.Forall₂ (fun component item =>
      lineItem offer (toAsciiLowercase currency) productName component = .ok item)
      components items) :
    ∃ charges : List Charge,
      List.Forall₂ (fun item charge => chargeOf prices item = some charge) items charges ∧
        List.Forall₂ (ExactCharge offer currency) components charges := by
  induction hitems with
  | nil => exact ⟨[], .nil, .nil⟩
  | cons hitem _ ih =>
    obtain ⟨charges, hread, hexact⟩ := ih
    obtain ⟨code, hcode, hcharge⟩ := chargeOf_lineItem hsynced hcurrency hitem
    exact ⟨_ :: charges, .cons hcharge hread, .cons ⟨hcode, rfl, rfl, rfl⟩ hexact⟩

/-- A component that is included is there at least once, and its total is that of its units. -/
theorem included_exact {inputs : ValidatedInputs cal} {requestQuantity : ℕ}
    {source : OfferComponent} {keys : BTreeMap VariableDefinition}
    (hvalid : ValidComponent offer keys source) (hrequest : requestQuantity ≠ 0)
    (hexact : ExactComponent inputs requestQuantity source component)
    (hincluded : component.included = true) :
    component.quantity ≠ 0 ∧
      component.totalAmountMinor = component.unitAmountMinor * component.quantity := by
  obtain ⟨quantity, -, hquantity, hproduct, htotal⟩ := hexact.included hincluded
  have hpos : quantity ≠ 0 := by
    have hcheck := hvalid.quantity
    unfold checkQuantity at hcheck
    unfold resolveQuantity at hquantity
    split at hquantity
    · split_ifs at hquantity with hvalue
      exact Except.ok.inj hquantity ▸ hvalue.ne'
    · rename_i key minimum maximum hrule
      rw [hrule] at hcheck
      obtain ⟨hminimum, -⟩ := guard_eq_ok.mp hcheck
      obtain ⟨value, -, hquantity⟩ := bind_eq_ok.mp hquantity
      obtain ⟨n, -, hquantity⟩ := bind_eq_ok.mp hquantity
      obtain ⟨hbounds, hquantity⟩ := guard_eq_ok.mp hquantity
      obtain rfl := Except.ok.inj hquantity
      simp only [not_or] at hminimum hbounds
      omega
  rw [htotal, hproduct, Nat.cast_mul, mul_assoc]
  exact ⟨Nat.mul_ne_zero hpos hrequest, rfl⟩

/-- Of the components of a preview, those that are included are there at least once. -/
theorem evaluateOffer_included {request : PricingPreviewRequest} {scope : InputScope}
    (h : evaluateOffer cal offer request scope = .ok preview) :
    ∀ component ∈ preview.components, component.included = true → component.quantity ≠ 0 ∧
      component.totalAmountMinor = component.unitAmountMinor * component.quantity := by
  obtain ⟨hvalid, hrequest, inputs, -, resolved, hresolved, -, currency, -, rfl⟩ :=
    evaluateOffer_eq_ok.mp h
  obtain ⟨hall, -⟩ := resolveComponents_exact hresolved
  intro component hcomponent hincluded
  obtain ⟨i, hi, rfl⟩ := List.getElem_of_mem hcomponent
  have hi' : i < (offer.components.mergeSort componentLe).length := hall.length_eq ▸ hi
  have hsource : (offer.components.mergeSort componentLe)[i] ∈ offer.components :=
    List.mem_mergeSort.mp (List.getElem_mem hi')
  obtain ⟨-, hquantity⟩ := guard_eq_ok.mp hrequest
  obtain ⟨hquantity, -⟩ := guard_eq_ok.mp hquantity
  exact included_exact (hvalid.components _ hsource) (fun hzero => hquantity (.inl hzero))
    (hall.get hi' hi) hincluded

theorem sum_charges {components : List ResolvedComponent} {charges : List Charge}
    (hexact : List.Forall₂ (ExactCharge offer currency) components charges)
    (htotals : ∀ component ∈ components,
      component.totalAmountMinor = component.unitAmountMinor * component.quantity) :
    (charges.map Charge.amountMinor).sum =
      (components.map (·.totalAmountMinor)).sum := by
  induction hexact with
  | nil => rfl
  | cons hcharge _ ih =>
    obtain ⟨htotal, htotals⟩ := List.forall_mem_cons.mp htotals
    rw [List.map_cons, List.map_cons, List.sum_cons, List.sum_cons, ih htotals, htotal,
      Charge.amountMinor, hcharge.unitAmountMinor, hcharge.quantity]

/-- A form has a line item for each component that is included, and they charge the subtotal of the
preview, in its currency and with the recurrence of the offer. -/
theorem stripeForm_charges {request : PricingPreviewRequest} {scope : InputScope}
    (hpreview : evaluateOffer cal offer request scope = .ok preview)
    (hsynced : Synced prices stripeProductId livemode offer)
    (hform : StripeForm offer preview form) :
    ∃ charges : List Charge,
      (∀ i, Form.under (indexed "line_items" i) form ≠ [] ↔ i < charges.length) ∧
      (∀ i, (hi : i < charges.length) →
        chargeOf prices (Form.under (indexed "line_items" i) form) = some charges[i]) ∧
      List.Forall₂ (ExactCharge offer preview.amounts.currency)
        (preview.components.filter fun component => component.included ∧ component.quantity ≠ 0)
        charges ∧
      (charges.map Charge.amountMinor).sum =
        preview.amounts.subtotalMinor := by
  have hincluded := evaluateOffer_included hpreview
  obtain ⟨-, hsum, -⟩ := evaluateOffer_totals hpreview
  have hcurrency : normalizeCurrency offer.currency = .ok preview.amounts.currency := by
    obtain ⟨-, -, inputs, -, resolved, -, -, currency, hcurrency, rfl⟩ :=
      evaluateOffer_eq_ok.mp hpreview
    exact hcurrency
  obtain ⟨productName, others, items, hothers, hitems, rfl⟩ := hform.lineItems
  obtain ⟨charges, hread, hexact⟩ := exists_charges hsynced hcurrency (lineItems_eq_ok hitems)
  have hunder (i : ℕ) : Form.under (indexed "line_items" i)
      (others ++ Form.entries "line_items" 0 items) = items[i]?.getD [] := by
    have hnone : Form.under (indexed "line_items" i) others = [] :=
      Form.under_eq_nil fun field hfield hprefix => hothers field hfield <| by
        obtain ⟨rest, hrest⟩ := hprefix
        rw [← hrest, toList_indexed]
        rfl
    have hentry := Form.under_entries "line_items" 0 i items
    rw [Nat.zero_add] at hentry
    rw [Form.under_append, hnone, List.nil_append, hentry]
  have hsame : (preview.components.filter fun component =>
      component.included ∧ component.quantity ≠ 0) = preview.components.filter (·.included) :=
    List.filter_congr fun component hcomponent => by
      have := hincluded component hcomponent
      grind
  refine ⟨charges, fun i => ?_, fun i hi => ?_, hsame ▸ hexact, ?_⟩
  · rw [hunder, ← hread.length_eq]
    by_cases hi : i < items.length
    · have hcharge := hread.get hi (hread.length_eq ▸ hi)
      rw [List.getElem?_eq_getElem hi, Option.getD_some]
      refine iff_of_true (fun hnil => ?_) hi
      rw [List.get_eq_getElem, hnil] at hcharge
      cases hcharge
    · rw [List.getElem?_eq_none (Nat.le_of_not_lt hi)]
      exact iff_of_false (fun h => h rfl) hi
  · have hi' : i < items.length := hread.length_eq ▸ hi
    rw [hunder, List.getElem?_eq_getElem hi', Option.getD_some]
    exact hread.get hi' hi
  · rw [hsum, sum_charges hexact fun component hcomponent => ?_]
    · rfl
    · obtain ⟨hmem, hin⟩ := List.mem_filter.mp hcomponent
      exact (hincluded component hmem hin).2

/-- Two seats a month, at a price of the catalogue. -/
def membership : Offer :=
  { coffee with
    mode := .subscription
    recurringInterval := some .month
    «variables» := []
    components :=
      [{ id := "row_3", key := "seat", label := "Seat", description := "", sortOrder := 0
         required := true, amount := .fixed 1200, quantity := .fixed 2, condition := .always
         recurrence := none, stripePriceId := "price_seat", metadata := ∅ }] }

def threeMemberships : PricingPreviewRequest := ⟨"offer_1", 3, ∅⟩

def membershipPreview : PricingPreview :=
  assemblePreview membership threeMemberships ∅ 7200
    [{ componentId := "row_3", key := "seat", label := "Seat", included := true, required := true
       unitAmountMinor := 1200, quantity := 6, totalAmountMinor := 7200, reason := "included" }]
    "NZD"

/-- A catalogue with the price of a seat. -/
def seatPrices (priceId : String) : Option StripePrice :=
  if priceId = "price_seat" then
    some ⟨some "price_seat", some true, some "prod_seat", some "nzd", some 1200, some true,
      some ⟨some "month", some 1, some "licensed"⟩⟩
  else none

def membershipForm : Form :=
  [("metadata[offer_id]", "offer_1"), ("metadata[offer_version]", "1"),
    ("after_completion[type]", "hosted_confirmation"), ("line_items[0][price]", "price_seat"),
    ("line_items[0][quantity]", "6")]

theorem evaluateOffer_membership :
    evaluateOffer noDates membership threeMemberships .management = .ok membershipPreview := by
  have hvalid : validateOffer membership = .ok () := by rfl
  have hinputs : validateInputs noDates membership.variables threeMemberships.inputs .management =
      .ok ∅ := by rfl
  have hsorted : membership.components.mergeSort componentLe = membership.components :=
    List.mergeSort_of_pairwise (by decide)
  have hresolved : resolveComponents (∅ : ValidatedInputs noDates) 3 0 membership.components =
      .ok (7200, membershipPreview.components) := by rfl
  have htotal : checkTotal membership.checkout 7200 = .ok () := by decide
  have hcurrency : normalizeCurrency "nzd" = .ok "NZD" := by decide
  exact evaluateOffer_eq_ok.mpr ⟨validateOffer_iff.mp hvalid, by decide, ∅, hinputs,
    (7200, membershipPreview.components), hsorted.symm ▸ hresolved, htotal, "NZD", hcurrency, rfl⟩

theorem stripeForm_charges_membership :
    ∃ charges : List Charge,
      (∀ i, Form.under (indexed "line_items" i) membershipForm ≠ [] ↔ i < charges.length) ∧
      (charges.map Charge.amountMinor).sum = 7200 := by
  have hsynced : Synced seatPrices "prod_seat" true membership := by
    intro component hcomponent unitAmountMinor hamount _
    obtain rfl := List.mem_singleton.mp hcomponent
    obtain rfl := AmountRule.fixed.inj hamount
    exact ⟨_, "price_seat", rfl, by decide⟩
  have hform : paymentLinkForm membership membershipPreview "Gym" "" none false none 0 0 =
      .ok membershipForm := by rfl
  obtain ⟨charges, hlines, -, -, hsum⟩ := stripeForm_charges evaluateOffer_membership hsynced
    (.paymentLink _ _ _ _ _ _ _ hform)
  exact ⟨charges, hlines, hsum⟩

end Checkout

end Products
