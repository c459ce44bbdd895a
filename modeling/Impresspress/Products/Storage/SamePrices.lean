import Impresspress.Checked.Lists
import Impresspress.Products.Pricing.Arrangement
import Impresspress.Products.Storage.Saving

/-!
# A saved offer has the prices of its definition

An offer that was saved is read back with its variables in the order of their sort orders, and with
the ids of the rows for its components. It is priced like the offer that was built from the
definition; only the ids in a preview differ, and which of several faults is reported.

## Main definitions

* `Products.Storage.Storable`: a definition that its rows tell.
* `Products.Storage.Tables.componentId`: the ids of the rows of an offer's components.

## Main results

* `Products.Storage.Holds.get`: what a saved offer is read as.
* `Products.Storage.pricedAlike_of_perm`: how an offer that was rearranged is priced.
-/

namespace Products

namespace Storage

open Checked Pricing Relational

variable {backend : Backend} {serde : Serde} {tables tables' : Tables} {record : Record}
  {offerId productId createdBy : String} {version : ℕ} {definition : OfferDefinitionRequest}
  {offer : Offer}

/-! ### Building an offer -/

theorem not_isBlank {text : String} (h : isBlank text = false) : text ≠ "" := by
  rintro rfl
  cases h

/-- An offer that is built is valid, and its variables have labels. -/
theorem buildOffer_eq_ok (h : buildOffer offerId productId version definition = .ok offer) :
    (∃ currency, offer = offerOf offerId productId version definition currency) ∧
      ValidOffer offer ∧ ∀ input ∈ definition.variables, input.label ≠ "" := by
  obtain ⟨-, h⟩ := guard_eq_ok.mp h
  obtain ⟨hlabels, h⟩ := guard_eq_ok.mp h
  obtain ⟨-, h⟩ := guard_eq_ok.mp h
  obtain ⟨-, h⟩ := guard_eq_ok.mp h
  obtain ⟨currency, -, h⟩ := bind_eq_ok.mp h
  obtain ⟨_, hvalid, h⟩ := bind_eq_ok.mp h
  obtain rfl := Except.ok.inj h
  refine ⟨⟨currency, rfl⟩, validateOffer_iff.mp (mapErr_eq_ok.mp hvalid), fun input hinput => ?_⟩
  refine not_isBlank (eq_false_of_ne_true fun hblank => hlabels ?_)
  exact List.any_eq_true.mpr ⟨input, hinput, by rw [hblank, Bool.or_true]⟩

/-- A definition that its rows tell: each value in them is read back, and no bound is an empty
text. -/
structure Storable (serde : Serde) (definition : OfferDefinitionRequest) : Prop where
  eachVariable : ∀ input ∈ definition.variables, StorableVariable serde input
  eachComponent : ∀ component ∈ definition.components, StorableComponent serde component
  checkout : serde.checkout.ReadsBack definition.checkout
  intervalCount : definition.intervalCount < 2 ^ 32
  fewVariables : definition.variables.length ≤ unpagedLimit
  fewComponents : definition.components.length ≤ unpagedLimit

/-! ### What is saved -/

/-- The rows of an offer are there. -/
structure Holds (backend : Backend) (serde : Serde) (tables : Tables) (offer : Offer)
    (definition : OfferDefinitionRequest) : Prop where
  offerRow : ∃ record, tables.offers.find? (·.id = offer.id) = some record ∧
    record.Has backend.toFlags (definitionData serde offer)
  variableRows : ∃ new, List.Forall₂ (fun input row => ∃ data,
      Variables.dataFor serde offer.id input = .ok data ∧ row.Has backend.toFlags data)
        definition.variables new ∧
    (tables.variables.rows.filter (Children.ofOffer offer.id)).Perm new
  componentRows : ∃ new, List.Forall₂ (fun component row => ∃ data,
      Components.dataFor serde offer.id component = .ok data ∧ row.Has backend.toFlags data)
        definition.components new ∧
    (tables.components.rows.filter (Children.ofOffer offer.id)).Perm new

theorem Record.Has.mono {flags : Flags} {data part : Columns} (h : record.Has flags data)
    (hpart : ∀ column ∈ part, column ∈ data) : record.Has flags part :=
  fun column hcolumn => h column (hpart column hcolumn)

/-- Columns of other names do not show. -/
theorem Record.Has.update {flags : Flags} {data other : Columns} (h : record.Has flags data)
    (hother : ∀ column ∈ data, column.1 ∉ other.map (·.1)) :
    Record.Has flags { record with data := flags.columns other ++ record.data } data := by
  intro column hcolumn
  have hnone : (flags.columns other).lookup column.1 = none := by
    rw [List.lookup_eq_none_iff]
    rintro _ hmem
    obtain ⟨written, hwritten, rfl⟩ := List.mem_map.mp hmem
    exact bne_iff_ne.mpr fun hsame => hother column hcolumn
      (List.mem_map.mpr ⟨written, hwritten, hsame.symm⟩)
  rw [Record.get, List.lookup_append, hnone, Option.none_or]
  exact h column hcolumn

/-- The row that is found after an update. -/
theorem find?_updateOffer (data : Columns) :
    (tables.updateOffer backend offerId data).offers.find? (·.id = offerId) =
      (tables.offers.find? (·.id = offerId)).map fun row =>
        { row with data := backend.columns data ++ row.data } := by
  dsimp only [Tables.updateOffer, updateById]
  rw [List.find?_map]
  have hid : ((fun row : Record => decide (row.id = offerId)) ∘ fun row : Record =>
      if row.id = offerId then { row with data := backend.columns data ++ row.data } else row) =
        fun row => decide (row.id = offerId) := by
    funext row
    dsimp only [Function.comp]
    split_ifs <;> rfl
  rw [hid]
  cases hfound : tables.offers.find? (·.id = offerId) with
  | none => rfl
  | some row =>
    have hrow : row.id = offerId := by simpa using List.find?_some hfound
    rw [Option.map_some, Option.map_some, if_pos hrow]

/-- Replacing the children leaves the row of the offer. -/
theorem replaceChildren_eq_ok (offer : Offer) {draws : tables.Draws}
    (h : tables.replaceChildren backend serde draws offerId definition = .ok tables')
    (hid : offer.id = offerId) (hrow : ∃ record,
      tables.offers.find? (·.id = offer.id) = some record ∧
        record.Has backend.toFlags (definitionData serde offer)) :
    Holds backend serde tables' offer definition := by
  obtain ⟨newVariables, hvariables, h⟩ := bind_eq_ok.mp h
  obtain ⟨newComponents, hcomponents, h⟩ := bind_eq_ok.mp h
  cases h
  subst hid
  obtain ⟨new, hwrote, hnew⟩ := Children.replaceForOffer_eq_ok hvariables
  obtain ⟨new', hwrote', hnew'⟩ := Children.replaceForOffer_eq_ok hcomponents
  exact ⟨hrow, ⟨new, hwrote.imp fun _ _ => Children.has_of_wrote, hnew⟩,
    ⟨new', hwrote'.imp fun _ _ => Children.has_of_wrote, hnew'⟩⟩

/-- The fence does not show. -/
theorem Holds.settle (h : Holds backend serde tables offer definition) (b : Bool) :
    Holds backend serde (tables.updateOffer backend offer.id [("draft_updating", .bool b)]) offer
      definition := by
  obtain ⟨⟨record, hfound, hhas⟩, hvariables, hcomponents⟩ := h
  have hname : ∀ column ∈ definitionData serde offer,
      column.1 ∉ [("draft_updating", Value.bool b)].map (·.1) := by
    intro column hcolumn hmem
    have hnames : "draft_updating" ∉ (definitionData serde offer).map (·.1) := by
      simp [definitionData]
    exact hnames (List.mem_map.mpr ⟨column, hcolumn, List.mem_singleton.mp hmem⟩)
  refine ⟨⟨_, ?_, hhas.update hname⟩, hvariables, hcomponents⟩
  rw [find?_updateOffer, hfound]
  rfl

theorem nodup_definitionData : ((definitionData serde offer).map (·.1)).Nodup := by
  simp [definitionData]

/-- The version that an offer is saved as. -/
def Tables.nextVersion (tables : Tables) (offerId : String) : ℕ :=
  (tables.offers.find? (·.id = offerId)).elim 1 fun record =>
    (record.i64Field "version").toNat + 1

theorem id_of_buildOffer (h : buildOffer offerId productId version definition = .ok offer) :
    offer.id = offerId := by
  obtain ⟨⟨currency, rfl⟩, -⟩ := buildOffer_eq_ok h
  rfl

/-- A new offer that was saved is there. -/
theorem holds_create {draws : tables.Draws}
    (h : tables.create backend serde draws offerId productId createdBy definition = .ok tables') :
    ∃ offer, buildOffer offerId productId (tables.nextVersion offerId) definition = .ok offer ∧
      tables.nextVersion offerId < 2 ^ 32 ∧ Holds backend serde tables' offer definition := by
  obtain ⟨offer, hbuild, h⟩ := bind_eq_ok.mp h
  obtain rfl := id_of_buildOffer hbuild
  split_ifs at h with hnew
  obtain ⟨saved, hsaved, h⟩ := bind_eq_ok.mp h
  cases h
  have hnone : tables.offers.find? (·.id = offer.id) = none :=
    List.find?_eq_none.mpr fun row hrow hid => hnew
      (List.mem_map.mpr ⟨row, hrow, of_decide_eq_true hid⟩)
  have hversion : tables.nextVersion offer.id = 1 := by
    rw [Tables.nextVersion, hnone]
    rfl
  have hhas : Record.Has backend.toFlags
      ⟨offer.id, backend.columns (Tables.newOfferData serde offer createdBy) ++ []⟩
      (definitionData serde offer) :=
    Record.Has.mono (Record.has_columns _ _ _ (by simp [Tables.newOfferData, definitionData]))
      fun column hcolumn => List.mem_append_left _ hcolumn
  rw [List.append_nil] at hhas
  rw [hversion]
  refine ⟨offer, hbuild, by norm_num,
    Holds.settle (replaceChildren_eq_ok offer hsaved rfl ⟨_, ?_, hhas⟩) false⟩
  rw [List.find?_append, hnone, Option.none_or]
  exact List.find?_cons_of_pos (decide_eq_true rfl)

/-- A draft that was saved again is there. -/
theorem holds_updateDraft {draws : tables.Draws}
    (h : tables.updateDraft backend serde draws offerId productId definition = .ok tables') :
    ∃ offer, buildOffer offerId productId (tables.nextVersion offerId) definition = .ok offer ∧
      tables.nextVersion offerId < 2 ^ 32 ∧ Holds backend serde tables' offer definition := by
  obtain ⟨record, hrecord, h⟩ := bind_eq_ok.mp h
  obtain ⟨-, h⟩ := guard_eq_ok.mp h
  obtain ⟨previous, hprevious, h⟩ := bind_eq_ok.mp h
  obtain ⟨version, hversion, h⟩ := bind_eq_ok.mp h
  obtain ⟨offer, hbuild, h⟩ := bind_eq_ok.mp h
  obtain ⟨saved, hsaved, h⟩ := bind_eq_ok.mp h
  cases h
  obtain rfl := id_of_buildOffer hbuild
  obtain ⟨hprevious, -⟩ := u32_eq_some.mp (okOr_eq_ok.mp hprevious)
  obtain ⟨hversion, hsmall⟩ := u32_eq_some.mp (okOr_eq_ok.mp hversion)
  have hnext : tables.nextVersion offer.id = version := by
    rw [Tables.nextVersion, okOr_eq_ok.mp hrecord, Option.elim_some, hprevious]
    omega
  have hhas : Record.Has backend.toFlags
      ⟨record.id, backend.columns
        (definitionData serde offer ++ [("draft_updating", .bool true)]) ++ record.data⟩
      (definitionData serde offer) :=
    Record.Has.mono (Record.has_columns _ _ _ (by simp [definitionData]))
      fun column hcolumn => List.mem_append_left _ hcolumn
  rw [hnext]
  refine ⟨offer, hbuild, hsmall,
    Holds.settle (replaceChildren_eq_ok offer hsaved rfl ⟨_, ?_, hhas⟩) false⟩
  rw [find?_updateOffer, okOr_eq_ok.mp hrecord, Option.map_some]

/-! ### What is read -/

/-- The id of the row of a component. -/
def Tables.componentId (tables : Tables) (offerId key : String) : String :=
  (tables.components.rows.find? fun row =>
    row.strField "offer_id" = offerId ∧ row.strField "component_key" = key).elim "" (·.id)

/-- An offer has one row for each key. -/
theorem componentId_of_mem {row : Record} {key : String} (hrow : row ∈ tables.components.rows)
    (hoffer : row.strField "offer_id" = offerId) (hkey : row.strField "component_key" = key) :
    tables.componentId offerId key = row.id := by
  rw [Tables.componentId]
  cases hfound : tables.components.rows.find? fun row =>
      row.strField "offer_id" = offerId ∧ row.strField "component_key" = key with
  | none =>
    exact absurd (decide_eq_true ⟨hoffer, hkey⟩) (List.find?_eq_none.mp hfound row hrow)
  | some other =>
    have hother := List.find?_some hfound
    rw [decide_eq_true_eq] at hother
    have hsame : other = row := List.inj_on_of_nodup_map tables.components.keys
      (List.mem_of_find?_eq_some hfound) hrow
        (Prod.ext (hother.1.trans hoffer.symm) (hother.2.trans hkey.symm))
    exact congrArg Record.id hsame

theorem sortOrderLe_trans (a b c : Record) (hab : sortOrderLe a b = true)
    (hbc : sortOrderLe b c = true) : sortOrderLe a c = true :=
  decide_eq_true ((of_decide_eq_true hab).trans (of_decide_eq_true hbc))

theorem sortOrderLe_total (a b : Record) : (sortOrderLe a b || sortOrderLe b a) = true := by
  simpa [sortOrderLe] using le_total (a.i64Field "sort_order") (b.i64Field "sort_order")

/-- The rows of an offer are listed where there are not too many. -/
theorem listForOffer_of_length {δ : Type} (kind : ChildKind δ)
    {children : Children kind.keyColumn} {new : List Record}
    (hnew : (children.rows.filter (Children.ofOffer offerId)).Perm new)
    (hfew : new.length ≤ unpagedLimit) :
    ∃ rows, children.listForOffer backend kind offerId = .ok rows ∧ rows.Perm new := by
  have hperm := (backend.arrange_perm _).trans hnew
  exact ⟨_, if_neg (not_lt.mpr (hperm.length_eq ▸ hfew)), hperm⟩

/-- The variables are read in the order of their sort orders. -/
theorem Holds.readVariables (h : Holds backend serde tables offer definition)
    (hstorable : Storable serde definition)
    (hlabels : ∀ input ∈ definition.variables, input.label ≠ "") :
    ∃ rows ordered,
      tables.variables.listForOffer backend (Variables.kind serde) offer.id = .ok rows ∧
      (rows.mergeSort sortOrderLe).mapM (variableFromRecord serde) = .ok ordered ∧
        ordered.Perm definition.variables ∧
          ordered.Pairwise fun left right => left.sortOrder ≤ right.sortOrder := by
  obtain ⟨new, hwrote, hnew⟩ := h.variableRows
  have hfew : new.length ≤ unpagedLimit := hwrote.length_eq ▸ hstorable.fewVariables
  obtain ⟨rows, hrows, hperm⟩ := listForOffer_of_length (Variables.kind serde) hnew hfew
  have hread : List.Forall₂ (fun row input => variableFromRecord serde row = .ok input ∧
      row.i64Field "sort_order" = input.sortOrder) new definition.variables := by
    refine forall₂_flip hwrote fun input hinput row _ => ?_
    rintro ⟨data, hdata, hhas⟩
    have hinput' := hstorable.eachVariable input hinput
    refine ⟨variableFromRecord_of_has (hlabels input hinput) hinput' hdata hhas, ?_⟩
    exact sortOrder_of_has hinput' hdata hhas
  obtain ⟨ordered, hordered, hsame⟩ :=
    List.perm_comp_forall₂ ((List.mergeSort_perm rows sortOrderLe).trans hperm) hread
  refine ⟨rows, ordered, hrows, mapM_eq_ok.mpr (hordered.imp fun _ _ h => h.1), hsame, ?_⟩
  have horders := map_eq_of_forall₂ (hordered.imp fun _ _ h => h.2)
  have hsorted := (List.pairwise_mergeSort sortOrderLe_trans sortOrderLe_total rows).imp
    fun {left right} (h : sortOrderLe left right = true) => of_decide_eq_true h
  rw [← List.pairwise_map (f := fun row : Record => row.i64Field "sort_order"), horders,
    List.pairwise_map] at hsorted
  exact hsorted

/-- The components are read with the ids of their rows. -/
theorem Holds.readComponents (h : Holds backend serde tables offer definition)
    (hstorable : Storable serde definition) :
    ∃ rows components,
      tables.components.listForOffer backend (Components.kind serde) offer.id = .ok rows ∧
        (rows.mergeSort componentRowLe).mapM (componentFromRecord serde) = .ok components ∧
          components.Perm ((definition.components.map (componentOf offer.id)).map
            (·.renamed (tables.componentId offer.id))) := by
  obtain ⟨new, hwrote, hnew⟩ := h.componentRows
  have hfew : new.length ≤ unpagedLimit := hwrote.length_eq ▸ hstorable.fewComponents
  obtain ⟨rows, hrows, hperm⟩ := listForOffer_of_length (Components.kind serde) hnew hfew
  have hread : List.Forall₂ (fun row component => componentFromRecord serde row =
      .ok ((componentOf offer.id component).renamed (tables.componentId offer.id)))
        new definition.components := by
    refine forall₂_flip hwrote fun component hcomponent row hrow => ?_
    rintro ⟨data, hdata, hhas⟩
    obtain ⟨hmem, hoffer⟩ := List.mem_filter.mp (hnew.mem_iff.mpr hrow)
    obtain ⟨-, -, hkey⟩ := (Components.kind serde).columns offer.id component data hdata
    have hid : tables.componentId offer.id (componentOf offer.id component).key = row.id :=
      componentId_of_mem hmem (Children.ofOffer_iff.mp hoffer) (hhas.strField hkey)
    rw [OfferComponent.renamed, hid]
    exact componentFromRecord_of_has (hstorable.eachComponent component hcomponent) hdata hhas
  obtain ⟨ordered, hordered, hsame⟩ :=
    List.perm_comp_forall₂ ((List.mergeSort_perm rows componentRowLe).trans hperm) hread
  rw [List.map_map]
  exact ⟨rows, _, hrows, mapM_eq_ok.mpr (List.forall₂_map_right_iff.mpr hordered), hsame.map _⟩

/-- The interval is read back; none is written as an empty text. -/
theorem intervalFromRecord_of_has {flags : Flags}
    (h : record.Has flags (definitionData serde offer)) :
    intervalFromRecord serde record = .ok offer.recurringInterval := by
  have hmem : ("recurring_interval", Value.string (offer.recurringInterval.elim "" wireEnum)) ∈
      definitionData serde offer := by simp [definitionData]
  rw [intervalFromRecord]
  cases hinterval : offer.recurringInterval with
  | none =>
    rw [hinterval] at hmem
    rw [h.optionalText_empty hmem]
    rfl
  | some interval =>
    rw [hinterval] at hmem
    rw [h.optionalText (StoredEnum.nonempty interval) hmem]
    exact transpose_eq_ok_some.mpr ⟨_, rfl, okOr_eq_ok.mpr (StoredEnum.read interval)⟩

/-- The row of an offer is read as the offer. -/
theorem offerFromRecord_of_has {flags : Flags} {inputs : List VariableDefinition}
    {components : List OfferComponent} (hversion : offer.version < 2 ^ 32)
    (hinterval : offer.intervalCount < 2 ^ 32) (hcheckout : serde.checkout.ReadsBack offer.checkout)
    (h : record.Has flags (definitionData serde offer)) :
    offerFromRecord serde record inputs components =
      .ok { offer with
        id := record.id
        productId := record.strField "product_id"
        «variables» := inputs
        components := components
        stripeProductId := record.strField "stripe_product_id"
        stripePriceId := "" } := by
  have hrecurring := intervalFromRecord_of_has h
  have hversion' : u32 (record.i64Field "version") = some offer.version := by
    rw [h.i64Field (n := offer.version) (by simp [definitionData, integer]) (by omega)]
    exact u32_eq_some.mpr ⟨rfl, hversion⟩
  have hinterval' : u32 (record.i64Field "interval_count") = some offer.intervalCount := by
    rw [h.i64Field (n := offer.intervalCount) (by simp [definitionData, integer]) (by omega)]
    exact u32_eq_some.mpr ⟨rfl, hinterval⟩
  have hmode : enumColumnOr serde.debug record "mode" OfferMode.payment = .ok offer.mode :=
    h.enumColumnOr (by simp [definitionData])
  have hmodel : enumColumnOr serde.debug record "pricing_model" PricingModel.fixed =
      .ok offer.pricingModel := h.enumColumnOr (by simp [definitionData])
  have husage : enumColumnOr serde.debug record "usage_type" UsageType.licensed =
      .ok offer.usageType := h.enumColumnOr (by simp [definitionData])
  have hbilling : enumColumnOr serde.debug record "billing_scheme" BillingScheme.perUnit =
      .ok offer.billingScheme := h.enumColumnOr (by simp [definitionData])
  have htax : enumColumnOr serde.debug record "tax_behavior" TaxBehavior.unspecified =
      .ok offer.taxBehavior := h.enumColumnOr (by simp [definitionData])
  have hconfig : jsonText serde.checkout defaultCheckout record "config_json" "offer" =
      .ok offer.checkout := h.jsonText hcheckout (by simp [definitionData])
  have hname : record.strField "name" = offer.name := h.strField (by simp [definitionData])
  have hcurrency : record.strField "currency" = offer.currency :=
    h.strField (by simp [definitionData])
  have hprice : record.strField "stripe_price_id" = "" := h.strField (by simp [definitionData])
  rw [offerFromRecord, hrecurring, hversion', hinterval', hmode, hmodel, husage, hbilling, htax,
    hconfig, hname, hcurrency, hprice]
  rfl

/-- Read the offer with this id. -/
def Tables.get (backend : Backend) (serde : Serde) (tables : Tables) (offerId : String) :
    Except WaferError Offer := do
  let record ← okOr (tables.offers.find? (·.id = offerId)) ⟨.notFound, "record not found"⟩
  tables.hydrate backend serde record

/-- A saved offer is read as what was saved: its variables in order, its components with the ids of
their rows, and the names that the shop and the payment provider have for it. -/
theorem Holds.get (h : Holds backend serde tables offer definition)
    (hbuild : buildOffer offerId productId version definition = .ok offer)
    (hversion : version < 2 ^ 32) (hstorable : Storable serde definition) :
    ∃ ordered components product stripe,
      tables.get backend serde offer.id = .ok { offer with
        productId := product
        «variables» := ordered
        components := components
        stripeProductId := stripe
        stripePriceId := "" } ∧
      ordered.Perm definition.variables ∧
        ordered.Pairwise (fun left right => left.sortOrder ≤ right.sortOrder) ∧
          components.Perm (offer.components.map (·.renamed (tables.componentId offer.id))) := by
  obtain ⟨⟨currency, hoffer⟩, -, hlabels⟩ := buildOffer_eq_ok hbuild
  have hversion' : offer.version < 2 ^ 32 := hoffer ▸ hversion
  have hinterval : offer.intervalCount < 2 ^ 32 := hoffer ▸ hstorable.intervalCount
  have hcheckout : serde.checkout.ReadsBack offer.checkout := hoffer ▸ hstorable.checkout
  have hparts : offer.components = definition.components.map (componentOf offer.id) := hoffer ▸ rfl
  obtain ⟨record, hfound, hhas⟩ := h.offerRow
  have hid : record.id = offer.id := by simpa using List.find?_some hfound
  obtain ⟨rows, ordered, hrows, hordered, hperm, hsorted⟩ := h.readVariables hstorable hlabels
  obtain ⟨rows', components, hrows', hcomponents, hperm'⟩ := h.readComponents hstorable
  refine ⟨ordered, components, record.strField "product_id", record.strField "stripe_product_id",
    bind_eq_ok.mpr ⟨record, okOr_eq_ok.mpr hfound, ?_⟩, hperm, hsorted, hparts ▸ hperm'⟩
  rw [Tables.hydrate, hid]
  refine bind_eq_ok.mpr ⟨rows, hrows, bind_eq_ok.mpr ⟨ordered, hordered, bind_eq_ok.mpr
    ⟨rows', hrows', bind_eq_ok.mpr ⟨components, hcomponents, ?_⟩⟩⟩⟩
  rw [offerFromRecord_of_has hversion' hinterval hcheckout hhas, hid]

/-! ### Prices -/

/-- How a stored offer is priced, compared with the offer that was built: the same previews with
other ids of components, and a fault where there was one. `ordered` are the variables in the order
of their sort orders; the fault is that of the offer with its variables in this order. -/
structure PricedAlike (cal : Calendar) (name : String → String) (ordered : List VariableDefinition)
    (offer stored : Offer) (request : PricingPreviewRequest) (scope : InputScope) : Prop where
  same : evaluateOffer cal stored request scope =
    (·.renamed name) <$> evaluateOffer cal { offer with «variables» := ordered } request scope
  ok : ∀ preview, evaluateOffer cal offer request scope = .ok preview →
    evaluateOffer cal stored request scope = .ok (preview.renamed name)
  error : ∀ fault, evaluateOffer cal offer request scope = .error fault →
    ∃ fault', evaluateOffer cal stored request scope = .error fault'
  inOrder : offer.variables.Pairwise (fun left right => left.sortOrder < right.sortOrder) →
    evaluateOffer cal stored request scope =
      (·.renamed name) <$> evaluateOffer cal offer request scope

/-- Variables of different sort orders have one order. -/
theorem eq_of_sorted {ordered inputs : List VariableDefinition} (hperm : ordered.Perm inputs)
    (hordered : ordered.Pairwise fun left right => left.sortOrder ≤ right.sortOrder)
    (hinputs : inputs.Pairwise fun left right => left.sortOrder < right.sortOrder) :
    ordered = inputs := by
  have hnodup : (inputs.map (·.sortOrder)).Nodup :=
    (List.pairwise_map.mpr hinputs).imp fun h => h.ne
  refine List.Perm.eq_of_pairwise (fun a b ha hb hab hba => ?_) hordered (hinputs.imp le_of_lt)
    hperm
  exact List.inj_on_of_nodup_map hnodup (hperm.mem_iff.mp ha) hb (le_antisymm hab hba)

theorem pricedAlike_of_perm {ordered : List VariableDefinition} {components : List OfferComponent}
    {name : String → String} (hvalid : ValidOffer offer) (hperm : ordered.Perm offer.variables)
    (hsorted : ordered.Pairwise fun left right => left.sortOrder ≤ right.sortOrder)
    (hcomponents : components.Perm (offer.components.map (·.renamed name)))
    (product stripe price : String) (cal : Calendar) (request : PricingPreviewRequest)
    (scope : InputScope) :
    PricedAlike cal name ordered offer { offer with
      productId := product
      «variables» := ordered
      components := components
      stripeProductId := stripe
      stripePriceId := price } request scope := by
  have hreordered := hvalid.reordered hperm
  have hsame : evaluateOffer cal { offer with
      productId := product
      «variables» := ordered
      components := components
      stripeProductId := stripe
      stripePriceId := price } request scope =
        (·.renamed name) <$>
          evaluateOffer cal { offer with «variables» := ordered } request scope :=
    (evaluateOffer_relabelled ((hreordered.renamed name).perm hcomponents) product stripe
      price).trans (evaluateOffer_renamed hreordered hcomponents)
  refine ⟨hsame, fun preview hpreview => ?_, fun fault hfault => ?_, fun hinputs => ?_⟩
  · rw [hsame, (evaluateOffer_reordered hperm).mpr hpreview]
    rfl
  · rw [hsame]
    cases hordered : evaluateOffer cal { offer with «variables» := ordered } request scope with
    | error fault' => exact ⟨fault', rfl⟩
    | ok preview =>
      rw [(evaluateOffer_reordered hperm).mp hordered] at hfault
      cases hfault
  · rw [hsame, eq_of_sorted hperm hsorted hinputs]

theorem Holds.pricedAlike (h : Holds backend serde tables offer definition)
    (hbuild : buildOffer offerId productId version definition = .ok offer)
    (hversion : version < 2 ^ 32) (hstorable : Storable serde definition) :
    ∃ stored ordered, tables.get backend serde offerId = .ok stored ∧
      ordered.Perm definition.variables ∧
        ordered.Pairwise (fun left right => left.sortOrder ≤ right.sortOrder) ∧
          ∀ cal request scope, PricedAlike cal (tables.componentId offerId) ordered offer stored
            request scope := by
  obtain ⟨ordered, components, product, stripe, hget, hperm, hsorted, hcomponents⟩ :=
    h.get hbuild hversion hstorable
  obtain ⟨⟨currency, hoffer⟩, hvalid, -⟩ := buildOffer_eq_ok hbuild
  obtain rfl := id_of_buildOffer hbuild
  have hinputs : offer.variables = definition.variables := hoffer ▸ rfl
  exact ⟨_, ordered, hget, hperm, hsorted, fun cal request scope =>
    pricedAlike_of_perm hvalid (hinputs ▸ hperm) hsorted hcomponents product stripe "" cal request
      scope⟩

/-- A codec of one value. -/
def known {α : Type} (text : String) (value : α) : Codec α where
  toText _ := text
  fromText raw := if raw = text then .ok value else .error "expected value at line 1 column 1"
  fromValue _ := .error "invalid type"

theorem readsBack_known {α : Type} {text : String} (value : α) (h : text ≠ "") :
    (known text value).ReadsBack value := ⟨if_pos rfl, h⟩

/-- The texts of the parts of `bag`. -/
def bagSerde : Serde where
  value := known "null" .null
  texts := known "[]" []
  amount := known "\x7b\"type\":\"fixed\",\"unit_amount_minor\":1450\x7d" (.fixed 1450)
  quantity := known "\x7b\"type\":\"fixed\",\"value\":1\x7d" (.fixed 1)
  condition := known "\x7b\"op\":\"always\"\x7d" .always
  recurrence := known "\x7b\"interval\":\"month\",\"interval_count\":1\x7d" ⟨.month, 1⟩
  metadata := known "\x7b\x7d" ∅
  checkout := known ("\x7b\"minimum_total_minor\":null,\"maximum_total_minor\":null," ++
    "\"allow_promotion_codes\":false,\"automatic_tax\":false,\"collect_billing_address\":false," ++
    "\"collect_shipping_address\":false,\"allowed_shipping_countries\":[]," ++
    "\"shipping_options\":[],\"create_customer\":false,\"require_terms_consent\":false," ++
    "\"trial_days\":0\x7d") defaultCheckout
  unknownVariant text := "unknown variant " ++ text
  debug text := "\"" ++ text ++ "\""

def bag : OfferDefinitionRequest where
  name := "Coffee"
  mode := .payment
  currency := "nzd"
  pricingModel := .fixed
  recurringInterval := none
  intervalCount := 1
  usageType := .licensed
  billingScheme := .perUnit
  taxBehavior := .unspecified
  «variables» := []
  components :=
    [{ key := "bag", label := "Bag", description := "", sortOrder := 0, required := true
       amount := .fixed 1450, quantity := .fixed 1, condition := .always, recurrence := none
       metadata := ∅ }]
  checkout := defaultCheckout

def plainBackend : Backend where
  flag := .bool
  flagIsSet_flag _ := rfl
  arrange rows := rows
  arrange_perm := List.Perm.refl

def noTables : Tables where
  offers := []
  nodup := List.nodup_nil
  «variables» := ⟨[], List.nodup_nil, List.nodup_nil⟩
  components := ⟨[], List.nodup_nil, List.nodup_nil⟩

/-- The id of a row is drawn with its key. -/
def rowIds : Uuids [] where
  draw key := "row_" ++ key
  injective _ _ h := String.append_right_inj _ |>.mp h
  fresh _ := List.not_mem_nil

def noDraws : noTables.Draws := ⟨rowIds, rowIds⟩

theorem storable_bag : Storable bagSerde bag where
  eachVariable := List.forall_mem_nil _
  eachComponent := List.forall_mem_singleton.mpr
    { amount := readsBack_known _ (by decide)
      quantity := readsBack_known _ (by decide)
      condition := readsBack_known _ (by decide)
      condition_ne := by decide
      recurrence := nofun
      metadata := readsBack_known _ (by decide)
      sortOrder := by decide }
  checkout := readsBack_known _ (by decide)
  intervalCount := by decide
  fewVariables := by decide
  fewComponents := by decide

theorem exists_created_bag : ∃ tables',
    noTables.create plainBackend bagSerde noDraws "offer_1" "coffee" "admin" bag = .ok tables' := by
  have hok : (noTables.create plainBackend bagSerde noDraws "offer_1" "coffee" "admin" bag).isOk =
      true := by rfl
  cases hcreate : noTables.create plainBackend bagSerde noDraws "offer_1" "coffee" "admin" bag with
  | ok tables' => exact ⟨tables', rfl⟩
  | error _ =>
    rw [hcreate] at hok
    cases hok

/-- One value, or faults of one code. -/
def SameResult : Except PricingError PricingPreview → Except PricingError PricingPreview → Prop
  | .ok preview, .ok preview' => preview = preview'
  | .error fault, .error fault' => fault.code = fault'.code
  | _, _ => False

/-- The offer that `bag` describes. -/
def bagOffer : Offer := offerOf "offer_1" "coffee" 1 bag "NZD"

def oneBag : PricingPreviewRequest where
  offerId := "offer_1"
  quantity := 1
  inputs := ∅

def bagLine : ResolvedComponent where
  componentId := "offer_1:bag"
  key := "bag"
  label := "Bag"
  included := true
  required := true
  unitAmountMinor := 1450
  quantity := 1
  totalAmountMinor := 1450
  reason := "included"

theorem evaluateOffer_bag : evaluateOffer noDates bagOffer oneBag .publicly =
    .ok (assemblePreview bagOffer oneBag (∅ : ValidatedInputs noDates).normalized 1450 [bagLine]
      "NZD") := by
  have hvalid : validateOffer bagOffer = .ok () := by rfl
  have hinputs : validateInputs noDates bagOffer.variables oneBag.inputs .publicly = .ok ∅ := by rfl
  have hsorted : bagOffer.components.mergeSort componentLe = bagOffer.components :=
    List.mergeSort_singleton _
  have hresolved : resolveComponents (∅ : ValidatedInputs noDates) 1 0 bagOffer.components =
      .ok (1450, [bagLine]) := by rfl
  exact evaluateOffer_eq_ok.mpr ⟨validateOffer_iff.mp hvalid, by decide, ∅, hinputs,
    (1450, [bagLine]), hsorted.symm ▸ hresolved, by decide, "NZD", by decide, rfl⟩

end Storage

end Products
