import Impresspress.Products.Storage.Rows
import Impresspress.Relational.Families

/-!
# Saving and reading an offer

A new offer is saved by creating its row and the rows of its variables and components; a draft is
saved by updating its row, and the rows whose keys are still there. An offer is read from its row
and these rows, whose order is that of their sort orders.

That a draft is not published while it is being saved is the matter of `Products.Offers`.

## Main definitions

* `Products.Storage.Backend`: what a database decides.
* `Products.Storage.Tables`: the tables; no offer has two variables or two components of one key.
* `Products.Storage.Tables.create`, `Products.Storage.Tables.updateDraft`: saving an offer.
* `Products.Storage.Tables.hydrate`: reading it.

## Main results

* `Products.Storage.Children.replaceForOffer_eq_ok`: the rows of an offer are those of its
  definitions.

Source: `blocks/products/repo/offers.rs`, `blocks/products/repo/variables.rs`,
`blocks/products/repo/offer_components.rs`, `db_read.rs`.
-/

namespace Products

namespace Storage

open Checked Pricing Relational

/-! ### Reading tables -/

/-- A database: the order in which rows come is its own. -/
structure Backend extends Flags where
  arrange : List Record → List Record
  arrange_perm : ∀ rows, (arrange rows).Perm rows

def unpagedLimit : ℕ := 10000

/-- The rows of a read that is believed to be small. -/
def listBounded (collection bound : String) (rows : List Record) :
    Except WaferError (List Record) :=
  if unpagedLimit < rows.length then
    .error ⟨.internal, s!"bounded read of {collection} returned more than {unpagedLimit} rows, " ++
      s!"so its stated bound no longer holds (one row per {bound}); this read has to become " ++
      "a paginated or aggregated one"⟩
  else .ok rows

/-! ### The children of offers -/

/-- A kind of rows that belong to offers: their table, and what is written for a definition. -/
structure ChildKind (δ : Type) where
  collection : String
  bound : String
  keyColumn : String
  key : δ → String
  dataFor : String → δ → Except WaferError Columns
  duplicate : String → String
  columns : ∀ offerId definition data, dataFor offerId definition = .ok data →
    (data.map (·.1)).Nodup ∧ ("offer_id", .string offerId) ∈ data ∧
      (keyColumn, .string (key definition)) ∈ data

/-- The rows of such a table: no two have one id, and no two of one offer have one key. -/
structure Children (keyColumn : String) where
  rows : List Record
  nodup : (rows.map (·.id)).Nodup
  keys : (rows.map fun row => (row.strField "offer_id", row.strField keyColumn)).Nodup

/-- The ids that are drawn for the rows of new keys. -/
structure Uuids (rows : List Record) where
  draw : String → String
  injective : Function.Injective draw
  fresh : ∀ key, draw key ∉ rows.map (·.id)

namespace Children

variable {δ : Type} (backend : Backend) (kind : ChildKind δ)

/-- Whether a row belongs to the offer. -/
def ofOffer (offerId : String) (row : Record) : Bool := row.strField "offer_id" = offerId

theorem ofOffer_iff {offerId : String} {row : Record} :
    ofOffer offerId row = true ↔ row.strField "offer_id" = offerId := decide_eq_true_iff

def listForOffer (children : Children kind.keyColumn) (offerId : String) :
    Except WaferError (List Record) :=
  listBounded kind.collection kind.bound
    (backend.arrange (children.rows.filter (ofOffer offerId)))

/-- The rows of an offer as a family. -/
def family (offerId : String) (draw : String → String) :
    Family Record δ Columns String String WaferError where
  id := (·.id)
  mine := ofOffer offerId
  keyOf := (·.strField kind.keyColumn)
  key := kind.key
  data := kind.dataFor offerId
  create definition data := ⟨draw (kind.key definition), backend.columns data⟩
  update data row := { row with data := backend.columns data ++ row.data }
  duplicate definition := ⟨.invalidArgument, kind.duplicate (kind.key definition)⟩

variable {backend} {kind} {children : Children kind.keyColumn} {offerId : String}
  {draw : String → String} {definition : δ} {row : Record}

/-- A row that was written has the columns of its definition. -/
theorem has_of_wrote (h : (family backend kind offerId draw).Wrote definition row) :
    ∃ data, kind.dataFor offerId definition = .ok data ∧ row.Has backend.toFlags data := by
  obtain ⟨data, hdata, hrow⟩ := h
  have hnodup := (kind.columns offerId definition data hdata).1
  rcases hrow with rfl | ⟨old, rfl⟩
  · have hhas := Record.has_columns backend.toFlags (draw (kind.key definition)) [] hnodup
    rw [List.append_nil] at hhas
    exact ⟨data, hdata, hhas⟩
  · exact ⟨data, hdata, Record.has_columns _ _ _ hnodup⟩

/-- It belongs to the offer, and has the key of its definition. -/
theorem strField_of_wrote (h : (family backend kind offerId draw).Wrote definition row) :
    row.strField "offer_id" = offerId ∧ row.strField kind.keyColumn = kind.key definition := by
  obtain ⟨data, hdata, hhas⟩ := has_of_wrote h
  obtain ⟨-, hoffer, hkey⟩ := kind.columns offerId definition data hdata
  exact ⟨hhas.strField hoffer, hhas.strField hkey⟩

theorem lawful_family (hdraw : Function.Injective draw) :
    (family backend kind offerId draw).Lawful draw where
  id_update _ _ := rfl
  id_create _ _ := rfl
  mine_update _ data row hdata :=
    ofOffer_iff.mpr (strField_of_wrote ⟨data, hdata, .inr ⟨row, rfl⟩⟩).1
  mine_create _ data hdata :=
    ofOffer_iff.mpr (strField_of_wrote ⟨data, hdata, .inl rfl⟩).1
  injective := hdraw

theorem listForOffer_eq_ok {rows : List Record}
    (h : children.listForOffer backend kind offerId = .ok rows) :
    rows.Perm (children.rows.filter (ofOffer offerId)) := by
  obtain ⟨-, hrows⟩ := guard_eq_ok.mp h
  exact Except.ok.inj hrows ▸ backend.arrange_perm _

/-- What replacing the rows of an offer gives. -/
theorem replace_eq_ok {existing result : List Record} {definitions : List δ}
    (uuids : Uuids children.rows)
    (hexisting : children.listForOffer backend kind offerId = .ok existing)
    (h : (family backend kind offerId uuids.draw).replace existing children.rows definitions =
      .ok result) :
    ∃ new, List.Forall₂ (family backend kind offerId uuids.draw).Wrote definitions new ∧
      (result.filter (ofOffer offerId)).Perm new ∧
        result.filter (fun row => !ofOffer offerId row) =
          children.rows.filter (fun row => !ofOffer offerId row) ∧
          (result.map (·.id)).Nodup ∧ (definitions.map kind.key).Nodup := by
  have hperm := listForOffer_eq_ok hexisting
  have hkeys : (existing.map (·.strField kind.keyColumn)).Nodup := by
    refine ((hperm.map _).nodup_iff).mpr ?_
    have hpairs := children.keys.sublist (List.filter_sublist (p := ofOffer offerId).map _)
    have hsame : (children.rows.filter (ofOffer offerId)).map (fun row =>
        (row.strField "offer_id", row.strField kind.keyColumn)) =
          ((children.rows.filter (ofOffer offerId)).map (·.strField kind.keyColumn)).map
            (Prod.mk offerId) := by
      rw [List.map_map]
      refine List.map_congr_left fun row hrow => ?_
      have hoffer : row.strField "offer_id" = offerId := ofOffer_iff.mp (List.of_mem_filter hrow)
      exact congrArg (·, row.strField kind.keyColumn) hoffer
    rw [hsame] at hpairs
    exact List.Nodup.of_map _ hpairs
  exact Family.replace_eq_ok (lawful_family uuids.injective) children.nodup hperm hkeys
    uuids.fresh h

/-- The rows of all offers still have different keys. -/
theorem keys_of_replace {result new : List Record} {definitions : List δ}
    (hwrote : List.Forall₂ (family backend kind offerId draw).Wrote definitions new)
    (hnew : (result.filter (ofOffer offerId)).Perm new)
    (hothers : result.filter (fun row => !ofOffer offerId row) =
      children.rows.filter fun row => !ofOffer offerId row)
    (hdefinitions : (definitions.map kind.key).Nodup) :
    (result.map fun row => (row.strField "offer_id", row.strField kind.keyColumn)).Nodup := by
  have hsplit := List.filter_append_perm (ofOffer offerId) result
  rw [hothers] at hsplit
  refine ((hsplit.map _).nodup_iff).mp ?_
  rw [List.map_append, List.nodup_append]
  have hpairs : new.map (fun row => (row.strField "offer_id", row.strField kind.keyColumn)) =
      (definitions.map kind.key).map (Prod.mk offerId) := by
    clear hnew hdefinitions
    induction hwrote with
    | nil => rfl
    | cons hrow _ ih =>
      obtain ⟨hoffer, hkey⟩ := strField_of_wrote hrow
      rw [List.map_cons, List.map_cons, List.map_cons, ih, hoffer, hkey]
  refine ⟨?_, children.keys.sublist (List.filter_sublist.map _), ?_⟩
  · refine ((hnew.map _).nodup_iff).mpr ?_
    rw [hpairs]
    exact hdefinitions.map (Prod.mk_right_injective offerId)
  · intro pair hpair other hother hsame
    obtain ⟨row, hrow, rfl⟩ := List.mem_map.mp hpair
    obtain ⟨row', hrow', rfl⟩ := List.mem_map.mp hother
    have hoffer : row.strField "offer_id" = offerId := ofOffer_iff.mp (List.of_mem_filter hrow)
    have hnot := List.of_mem_filter hrow'
    have hmine : ofOffer offerId row' = true :=
      ofOffer_iff.mpr ((congrArg Prod.fst hsame).symm.trans hoffer)
    rw [hmine] at hnot
    cases hnot

variable (backend kind) in
/-- Replace the rows of an offer by those of the definitions. -/
def replaceForOffer (children : Children kind.keyColumn) (uuids : Uuids children.rows)
    (offerId : String) (definitions : List δ) : Except WaferError (Children kind.keyColumn) :=
  match hexisting : children.listForOffer backend kind offerId with
  | .error error => .error error
  | .ok existing =>
    match h : (family backend kind offerId uuids.draw).replace existing children.rows
        definitions with
    | .error error => .error error
    | .ok rows =>
      .ok
        { rows := rows
          nodup := by
            obtain ⟨_, -, -, -, hnodup, -⟩ := replace_eq_ok uuids hexisting h
            exact hnodup
          keys := by
            obtain ⟨_, hwrote, hnew, hothers, -, hdefinitions⟩ := replace_eq_ok uuids hexisting h
            exact keys_of_replace hwrote hnew hothers hdefinitions }

/-- Afterwards the offer has one row for each definition, with its columns. -/
theorem replaceForOffer_eq_ok {uuids : Uuids children.rows} {definitions : List δ}
    {result : Children kind.keyColumn}
    (h : children.replaceForOffer backend kind uuids offerId definitions = .ok result) :
    ∃ new, List.Forall₂ (family backend kind offerId uuids.draw).Wrote definitions new ∧
      (result.rows.filter (ofOffer offerId)).Perm new := by
  unfold replaceForOffer at h
  split at h
  · cases h
  · rename_i existing hexisting
    split at h
    · cases h
    · rename_i rows hreplace
      obtain ⟨new, hwrote, hnew, -⟩ := replace_eq_ok uuids hexisting hreplace
      cases h
      exact ⟨new, hwrote, hnew⟩

end Children

namespace Variables

/-- The rows of variables. -/
def kind (serde : Serde) : ChildKind VariableDefinition where
  collection := "impresspress__products__variables"
  bound := "variable declared on one offer"
  keyColumn := "name"
  key := (·.key)
  dataFor := dataFor serde
  duplicate key := s!"duplicate variable key {key}"
  columns offerId definition data hdata := by
    obtain ⟨maximumLength, -, hdata⟩ := bind_eq_ok.mp hdata
    cases hdata
    exact ⟨by simp, by simp, by simp⟩

def replaceForOffer (backend : Backend) (serde : Serde) (children : Children "name")
    (uuids : Uuids children.rows) (offerId : String) (definitions : List VariableDefinition) :
    Except WaferError (Children "name") :=
  Children.replaceForOffer backend (kind serde) children uuids offerId definitions

end Variables

namespace Components

/-- The rows of components. -/
def kind (serde : Serde) : ChildKind OfferComponentDraft where
  collection := "impresspress__products__offer_components"
  bound := "component on one offer"
  keyColumn := "component_key"
  key := (·.key)
  dataFor := dataFor serde
  duplicate key := s!"duplicate component key {key}"
  columns offerId definition data hdata := by
    cases hdata
    exact ⟨by simp, by simp, by simp⟩

def replaceForOffer (backend : Backend) (serde : Serde) (children : Children "component_key")
    (uuids : Uuids children.rows) (offerId : String) (components : List OfferComponentDraft) :
    Except WaferError (Children "component_key") :=
  Children.replaceForOffer backend (kind serde) children uuids offerId components

end Components

/-! ### Tables -/

structure Tables where
  offers : List Record
  nodup : (offers.map (·.id)).Nodup
  «variables» : Children "name"
  components : Children "component_key"

/-- The ids that are drawn while an offer is saved. -/
structure Tables.Draws (tables : Tables) where
  «variables» : Uuids tables.variables.rows
  components : Uuids tables.components.rows

namespace Tables

variable (backend : Backend) (serde : Serde) (tables : Tables)

/-- Write columns of the row of an offer. -/
def updateOffer (offerId : String) (data : Columns) : Tables :=
  { tables with
    offers := updateById (·.id) (fun row =>
      { row with data := backend.columns data ++ row.data }) offerId tables.offers
    nodup := by
      rw [updateById, List.map_map]
      convert tables.nodup using 1
      refine List.map_congr_left fun row _ => ?_
      dsimp only [Function.comp]
      split_ifs <;> rfl }

/-- Replace the rows of the variables and of the components. -/
def replaceChildren (draws : tables.Draws) (offerId : String)
    (definition : OfferDefinitionRequest) : Except WaferError Tables := do
  let newVariables ← Variables.replaceForOffer backend serde tables.variables draws.variables
    offerId definition.variables
  let newComponents ← Components.replaceForOffer backend serde tables.components draws.components
    offerId definition.components
  return { tables with «variables» := newVariables, components := newComponents }

/-- The columns of a new offer. -/
def newOfferData (offer : Offer) (createdBy : String) : Columns :=
  definitionData serde offer ++ [
    ("product_id", .string offer.productId),
    ("status", .string "draft"),
    ("created_by", .string createdBy),
    ("stripe_product_id", .string ""),
    ("draft_updating", .bool true)]

/-- Save a new offer; an id that there is already is refused by the database. -/
def create (draws : tables.Draws) (offerId productId createdBy : String)
    (definition : OfferDefinitionRequest) : Except WaferError Tables := do
  let offer ← buildOffer offerId productId 1 definition
  if hnew : offerId ∈ tables.offers.map (·.id) then
    .error ⟨.other, "UNIQUE constraint failed"⟩
  else
    let withOffer : Tables :=
      { tables with
        offers := tables.offers ++ [⟨offerId, backend.columns (newOfferData serde offer createdBy)⟩]
        nodup := by
          rw [List.map_append]
          exact tables.nodup.append (List.nodup_singleton _) (List.disjoint_singleton.mpr hnew) }
    let saved ← replaceChildren backend serde withOffer ⟨draws.variables, draws.components⟩ offerId
      definition
    return saved.updateOffer backend offerId [("draft_updating", .bool false)]

/-- Save a draft again, as its next version. -/
def updateDraft (draws : tables.Draws) (offerId productId : String)
    (definition : OfferDefinitionRequest) : Except WaferError Tables := do
  let record ← okOr (tables.offers.find? (·.id = offerId)) ⟨.notFound, "record not found"⟩
  if record.strField "product_id" ≠ productId then .error ⟨.notFound, "offer not found"⟩
  else do
    let version ← okOr (u32 (record.i64Field "version")) (decodeError "offer" offerId outOfRange)
    let version ← okOr (u32 (version + 1)) (invalid "offer version is too large")
    let offer ← buildOffer offerId productId version definition
    let withOffer := tables.updateOffer backend offerId
      (definitionData serde offer ++ [("draft_updating", .bool true)])
    let saved ← replaceChildren backend serde withOffer ⟨draws.variables, draws.components⟩ offerId
      definition
    return saved.updateOffer backend offerId [("draft_updating", .bool false)]

end Tables

/-! ### Reading an offer -/

def sortOrderLe (left right : Record) : Bool :=
  left.i64Field "sort_order" ≤ right.i64Field "sort_order"

def componentRowLe (left right : Record) : Bool :=
  left.i64Field "sort_order" < right.i64Field "sort_order" ∨
    (left.i64Field "sort_order" = right.i64Field "sort_order" ∧
      left.strField "component_key" ≤ right.strField "component_key")

/-- The default of `CheckoutPolicy`. -/
def defaultCheckout : CheckoutPolicy where
  minimumTotalMinor := none
  maximumTotalMinor := none
  allowPromotionCodes := false
  automaticTax := false
  collectBillingAddress := false
  collectShippingAddress := false
  allowedShippingCountries := []
  shippingOptions := []
  createCustomer := false
  requireTermsConsent := false
  trialDays := 0

def intervalFromRecord (serde : Serde) (record : Record) :
    Except WaferError (Option RecurringInterval) :=
  transpose (fun value => okOr (enumColumn StoredEnum.all value)
    (decodeError "offer" record.id (serde.unknownVariant value)))
    (optionalText record "recurring_interval")

/-- The offer of a row, with these variables and components. -/
def offerFromRecord (serde : Serde) (record : Record) («variables» : List VariableDefinition)
    (components : List OfferComponent) : Except WaferError Offer := do
  let recurringInterval ← intervalFromRecord serde record
  let version ← okOr (u32 (record.i64Field "version")) (decodeError "offer" record.id outOfRange)
  let intervalCount ← okOr (u32 (record.i64Field "interval_count"))
    (decodeError "offer" record.id outOfRange)
  let mode ← enumColumnOr serde.debug record "mode" OfferMode.payment
  let pricingModel ← enumColumnOr serde.debug record "pricing_model" PricingModel.fixed
  let usageType ← enumColumnOr serde.debug record "usage_type" UsageType.licensed
  let billingScheme ← enumColumnOr serde.debug record "billing_scheme" BillingScheme.perUnit
  let taxBehavior ← enumColumnOr serde.debug record "tax_behavior" TaxBehavior.unspecified
  let checkout ← jsonText serde.checkout defaultCheckout record "config_json" "offer"
  return {
    id := record.id
    productId := record.strField "product_id"
    version := version
    name := record.strField "name"
    mode := mode
    currency := record.strField "currency"
    pricingModel := pricingModel
    recurringInterval := recurringInterval
    intervalCount := intervalCount
    usageType := usageType
    billingScheme := billingScheme
    taxBehavior := taxBehavior
    «variables» := «variables»
    components := components
    checkout := checkout
    stripeProductId := record.strField "stripe_product_id"
    stripePriceId := record.strField "stripe_price_id" }

def Tables.hydrate (backend : Backend) (serde : Serde) (tables : Tables) (record : Record) :
    Except WaferError Offer := do
  let variableRecords ← tables.variables.listForOffer backend (Variables.kind serde) record.id
  let definitions ← (variableRecords.mergeSort sortOrderLe).mapM (variableFromRecord serde)
  let componentRecords ← tables.components.listForOffer backend (Components.kind serde) record.id
  let components ← (componentRecords.mergeSort componentRowLe).mapM (componentFromRecord serde)
  offerFromRecord serde record definitions components

end Storage

end Products
