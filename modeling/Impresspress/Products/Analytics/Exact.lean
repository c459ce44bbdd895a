import Impresspress.Checked.Lists
import Impresspress.Products.Analytics.Totals
import Mathlib.Algebra.Order.Group.Multiset

/-!
# The analytics is exact

What is added up over groups, pages and chunks is what the rows add up to: each paid order counts once,
for the currency that its own spelling stands for.

## Main definitions

* `Products.Analytics.paidOrders`: the paid orders of a currency.
* `Products.Analytics.ExactAnalytics`: what the analytics of a currency says.

## Main results

* `Products.Analytics.addOrderGroup_eq_ok`, `Products.Analytics.addProducts_eq_ok`: what a group adds.
-/

namespace Products

namespace Analytics

open Checked Money Relational Pricing

variable {db : Database} {seller : Option String}
  {byCurrency result : BTreeMap AnalyticsAccumulator}

/-! ### What the totals are of -/

/-- The paid orders of a currency. -/
def paidOrders (db : Database) (seller : Option String) (currency : String) : List OrderRow :=
  (scopedOrders db seller).filter fun row =>
    isPaidRow row ∧ normalizeCurrency row.currency = .ok currency

/-- The line items of the paid orders of a currency. -/
def paidLines (db : Database) (seller : Option String) (currency : String) : List LineItem :=
  db.lineItems.filter fun line =>
    line.purchaseId ∈ (paidOrders db seller currency).map (·.id)

/-- The line items of a product. -/
def linesOf (product : AnalyticsProduct) (lines : List LineItem) : List LineItem :=
  lines.filter fun line =>
    line.productId = product.productId ∧ line.productName = product.name

/-- What the analytics of a currency says. -/
structure ExactAnalytics (db : Database) (seller : Option String) (row : CommerceAnalytics) :
    Prop where
  gross : row.grossVolumeMinor = ((paidOrders db seller row.currency).map (·.totalCents)).sum
  refunded : row.refundedVolumeMinor =
    ((paidOrders db seller row.currency).map (·.refundedTotalCents)).sum
  net : row.netVolumeMinor = row.grossVolumeMinor - row.refundedVolumeMinor
  paid : row.paidOrderCount = (paidOrders db seller row.currency).length
  products : ∃ products : List AnalyticsProduct,
    row.topProducts = (products.mergeSort productLe).take 5 ∧
    (products.map fun product => (product.productId, product.name)).Nodup ∧
    (∀ line ∈ paidLines db seller row.currency, ∃ product ∈ products,
      product.productId = line.productId ∧ product.name = line.productName) ∧
    ∀ product ∈ products,
      (product.quantity : ℤ) =
        ((linesOf product (paidLines db seller row.currency)).map (·.quantity)).sum ∧
      product.revenueMinor =
        ((linesOf product (paidLines db seller row.currency)).map (·.totalMinor)).sum

/-! ### Sums over groups -/

theorem sumColumn_eq_ok {α : Type} {column : α → ℤ} {rows : List α} {total : ℤ}
    (h : sumColumn column rows = .ok total) : total = (rows.map column).sum :=
  ((i64_eq_some_iff.mp (okOr_eq_ok.mp h)).1).symm

theorem analyticsCount_eq_ok {name : String} {value : ℤ} {count : ℕ}
    (h : analyticsCount name value = .ok count) : (count : ℤ) = value := by
  obtain ⟨hneg, h⟩ := guard_eq_ok.mp h
  rw [← Except.ok.inj h]
  omega

/-- What groups are worth is what their rows are worth, if that holds of each group. -/
theorem sum_grouped {α κ γ M : Type} [DecidableEq κ] [AddCommMonoid M] (db : Database)
    {key : α → κ} {rows : List α} {read : κ × List α → Except String γ} {list : List γ}
    (hlist : (db.arrange (groups key rows)).mapM read = .ok list) (weight : γ → M) (worth : α → M)
    (hread : ∀ group entry, read group = .ok entry → (∀ row ∈ group.2, key row = group.1) →
      weight entry = (group.2.map worth).sum) :
    (list.map weight).sum = (rows.map worth).sum := by
  have hall := mapM_eq_ok.mp hlist
  have hsame : (list.map weight) =
      (db.arrange (groups key rows)).map fun group => (group.2.map worth).sum := by
    refine List.ext_getElem (by simpa using hall.length_eq.symm) fun i hi hi' => ?_
    rw [List.length_map] at hi hi'
    rw [List.getElem_map, List.getElem_map]
    refine hread _ _ (hall.get hi' hi) fun row hrow => ?_
    have hmem := (db.arrange_perm _).mem_iff.mp (List.getElem_mem hi')
    exact (mem_of_mem_groups hmem hrow).2
  rw [hsame, ((db.arrange_perm _).map _).sum_eq, sum_groups]

/-- Each row is in a group that was read. -/
theorem exists_grouped {α κ γ : Type} [DecidableEq κ] (db : Database) {key : α → κ}
    {rows : List α} {read : κ × List α → Except String γ} {list : List γ}
    (hlist : (db.arrange (groups key rows)).mapM read = .ok list) {row : α} (hrow : row ∈ rows) :
    ∃ group, ∃ entry ∈ list, read group = .ok entry ∧ group.1 = key row := by
  obtain ⟨group, hgroup, hkey, -⟩ := exists_group key hrow
  obtain ⟨i, hi, rfl⟩ := List.getElem_of_mem ((db.arrange_perm _).mem_iff.mpr hgroup)
  have hall := mapM_eq_ok.mp hlist
  have hi' : i < list.length := hall.length_eq ▸ hi
  exact ⟨_, _, List.getElem_mem hi', hall.get hi hi', hkey⟩

/-! ### What a group adds -/

/-- The figures of the paid orders: their totals, what was refunded, and how many there are. -/
def paidFigures (aggregate : AnalyticsAccumulator) : ℤ × ℤ × ℤ :=
  (aggregate.grossVolumeMinor, aggregate.refundedVolumeMinor, aggregate.paidOrderCount)

/-- The figures of a currency grow, and its products stay as they are. -/
structure Grows (byCurrency : BTreeMap AnalyticsAccumulator) (currency : String)
    (gain : ℤ × ℤ × ℤ) (aggregate : AnalyticsAccumulator) : Prop where
  figures : paidFigures aggregate = paidFigures (byCurrency.getD currency {}) + gain
  products : aggregate.topProducts = (byCurrency.getD currency {}).topProducts

theorem getD_insert {α : Type} {map : BTreeMap α} {key c : String} {value default : α} :
    (map.insert key value).getD c default = if key = c then value else map.getD c default := by
  rw [Std.ExtTreeMap.getD_insert]
  simp only [Std.LawfulEqCmp.compare_eq_iff_eq]

theorem mem_insert {α : Type} {map : BTreeMap α} {key c : String} {value : α} :
    c ∈ map.insert key value ↔ key = c ∨ c ∈ map := by
  rw [Std.ExtTreeMap.mem_insert, Std.LawfulEqCmp.compare_eq_iff_eq]

theorem Grows.figures_insert {currency c : String} {gain : ℤ × ℤ × ℤ}
    {aggregate : AnalyticsAccumulator} (h : Grows byCurrency currency gain aggregate) :
    paidFigures ((byCurrency.insert currency aggregate).getD c {}) =
      paidFigures (byCurrency.getD c {}) + if currency = c then gain else 0 := by
  rw [getD_insert]
  split_ifs with hc
  · rw [h.figures, hc]
  · rw [add_zero]

theorem Grows.products_insert {currency c : String} {gain : ℤ × ℤ × ℤ}
    {aggregate : AnalyticsAccumulator} (h : Grows byCurrency currency gain aggregate) :
    ((byCurrency.insert currency aggregate).getD c {}).topProducts =
      (byCurrency.getD c {}).topProducts := by
  rw [getD_insert]
  split_ifs with hc
  · rw [h.products, hc]
  · rfl

/-- The figures of a group of orders. -/
def groupFigures (group : OrderGroup) : ℤ × ℤ × ℤ :=
  if (enumColumn OrderStatus.all group.status).any OrderStatus.isPaid then
    (group.gross, group.refunded, group.orders) else 0

theorem addPaid_eq_ok {currency : String} {status : OrderStatus} {group : OrderGroup} {orders : ℕ}
    {aggregate paid : AnalyticsAccumulator}
    (h : addPaid currency status group orders aggregate = .ok paid) :
    paidFigures paid = paidFigures aggregate + (group.gross, group.refunded, (orders : ℤ)) ∧
      paid.topProducts = aggregate.topProducts := by
  obtain ⟨_, -, h⟩ := bind_eq_ok.mp h
  obtain ⟨_, -, h⟩ := bind_eq_ok.mp h
  obtain ⟨_, -, h⟩ := bind_eq_ok.mp h
  obtain ⟨-, h⟩ := guard_eq_ok.mp h
  obtain ⟨_, -, h⟩ := bind_eq_ok.mp h
  obtain ⟨-, h⟩ := guard_eq_ok.mp h
  obtain ⟨_, -, h⟩ := bind_eq_ok.mp h
  obtain rfl := Except.ok.inj h
  exact ⟨Prod.ext rfl (Prod.ext rfl (Nat.cast_add _ _)), rfl⟩

/-- A group of orders adds its figures to those of its currency if its orders are paid. -/
theorem addOrderGroup_eq_ok {group : OrderGroup}
    (h : addOrderGroup byCurrency group = .ok result) :
    ∃ currency aggregate, normalizeCurrency group.currency = .ok currency ∧
      Grows byCurrency currency (groupFigures group) aggregate ∧
        result = byCurrency.insert currency aggregate := by
  obtain ⟨currency, hcurrency, h⟩ := bind_eq_ok.mp h
  obtain ⟨orders, horders, h⟩ := bind_eq_ok.mp h
  refine ⟨currency, ?_⟩
  unfold groupFigures
  cases hstatus : enumColumn OrderStatus.all group.status with
  | none =>
    simp only [hstatus] at h
    refine ⟨_, mapErr_eq_ok.mp hcurrency, ?_, (Except.ok.inj h).symm⟩
    exact ⟨(add_zero _).symm, rfl⟩
  | some status =>
    simp only [hstatus] at h
    rw [Option.any_some]
    split_ifs at h ⊢ with hpaid hfailed
    · obtain ⟨aggregate, haggregate, h⟩ := bind_eq_ok.mp h
      obtain ⟨hfigures, hproducts⟩ := addPaid_eq_ok haggregate
      rw [analyticsCount_eq_ok horders] at hfigures
      exact ⟨aggregate, mapErr_eq_ok.mp hcurrency, ⟨hfigures, hproducts⟩, (Except.ok.inj h).symm⟩
    · refine ⟨_, mapErr_eq_ok.mp hcurrency, ?_, (Except.ok.inj h).symm⟩
      exact ⟨(add_zero _).symm, rfl⟩
    · refine ⟨_, mapErr_eq_ok.mp hcurrency, ?_, (Except.ok.inj h).symm⟩
      exact ⟨(add_zero _).symm, rfl⟩

theorem grows_addSubscriptions (currency : String) (subscriptions : ℕ)
    (status : SubscriptionStatus) : Grows byCurrency currency 0
      (addSubscriptions subscriptions (byCurrency.getD currency {}) status) := by
  cases status <;> exact ⟨(add_zero _).symm, rfl⟩

theorem addSubscriptionGroup_eq_ok {group : SubscriptionGroup}
    (h : addSubscriptionGroup byCurrency group = .ok result) :
    ∃ currency aggregate, Grows byCurrency currency 0 aggregate ∧
      result = byCurrency.insert currency aggregate := by
  obtain ⟨currency, -, h⟩ := bind_eq_ok.mp h
  obtain ⟨subscriptions, -, h⟩ := bind_eq_ok.mp h
  obtain ⟨status, -, h⟩ := bind_eq_ok.mp h
  exact ⟨currency, _, grows_addSubscriptions currency subscriptions status,
    (Except.ok.inj h).symm⟩

theorem addDisputeGroup_eq_ok {group : DisputeGroup}
    (h : addDisputeGroup byCurrency group = .ok result) :
    ∃ currency aggregate, Grows byCurrency currency 0 aggregate ∧
      result = byCurrency.insert currency aggregate := by
  obtain ⟨currency, -, h⟩ := bind_eq_ok.mp h
  obtain ⟨_, -, h⟩ := bind_eq_ok.mp h
  obtain ⟨-, h⟩ := guard_eq_ok.mp h
  obtain ⟨disputes, -, h⟩ := bind_eq_ok.mp h
  obtain ⟨found, hfound, h⟩ := bind_eq_ok.mp h
  obtain ⟨status, -, h⟩ := bind_eq_ok.mp h
  have hgetD : byCurrency.getD currency {} = found := by
    rw [Std.ExtTreeMap.getD_eq_getD_getElem?, okOr_eq_ok.mp hfound, Option.getD_some]
  refine ⟨currency, _, ?_, (Except.ok.inj h).symm⟩
  cases status <;> exact ⟨by rw [hgetD, add_zero]; rfl, by rw [hgetD]; rfl⟩

/-! ### The orders -/

/-- The figures of one order. -/
def rowFigures (row : OrderRow) : ℤ × ℤ × ℤ := (row.totalCents, row.refundedTotalCents, 1)

theorem sum_rowFigures (rows : List OrderRow) : (rows.map rowFigures).sum =
    ((rows.map (·.totalCents)).sum, (rows.map (·.refundedTotalCents)).sum, (rows.length : ℤ)) := by
  induction rows with
  | nil => rfl
  | cons row rows ih =>
    rw [List.map_cons, List.sum_cons, ih, List.map_cons, List.sum_cons, List.map_cons,
      List.sum_cons, List.length_cons, Nat.cast_succ, add_comm (rows.length : ℤ)]
    rfl

theorem orderGroup_key {group : (String × String) × List OrderRow} {entry : OrderGroup}
    (h : orderGroup group = .ok entry) : entry.currency = group.1.1 := by
  obtain ⟨_, -, h⟩ := bind_eq_ok.mp h
  obtain ⟨_, -, h⟩ := bind_eq_ok.mp h
  obtain ⟨_, -, h⟩ := bind_eq_ok.mp h
  exact Except.ok.inj h ▸ rfl

/-- The figures of a group are those of its orders. -/
theorem groupFigures_eq {group : (String × String) × List OrderRow} {entry : OrderGroup}
    (h : orderGroup group = .ok entry) (hkey : ∀ row ∈ group.2, (row.currency, row.status) = group.1)
    (currency : String) :
    (if normalizeCurrency entry.currency = .ok currency then groupFigures entry else 0) =
      (group.2.map fun row => if isPaidRow row ∧ normalizeCurrency row.currency = .ok currency
        then rowFigures row else 0).sum := by
  obtain ⟨gross, hgross, h⟩ := bind_eq_ok.mp h
  obtain ⟨refunded, hrefunded, h⟩ := bind_eq_ok.mp h
  obtain ⟨fees, -, h⟩ := bind_eq_ok.mp h
  obtain rfl := Except.ok.inj h
  have hrows : (group.2.map fun row => if isPaidRow row ∧
      normalizeCurrency row.currency = .ok currency then rowFigures row else 0) =
      group.2.map fun row => if (enumColumn OrderStatus.all group.1.2).any OrderStatus.isPaid ∧
        normalizeCurrency group.1.1 = .ok currency then rowFigures row else 0 :=
    List.map_congr_left fun row hrow => by rw [isPaidRow, ← hkey row hrow]
  rw [hrows, groupFigures]
  by_cases hcurrency : normalizeCurrency group.1.1 = .ok currency
  · by_cases hpaid : (enumColumn OrderStatus.all group.1.2).any OrderStatus.isPaid = true
    · simp only [hcurrency, hpaid, and_self, if_true, sum_rowFigures,
        sumColumn_eq_ok hgross, sumColumn_eq_ok hrefunded]
    · simp [hcurrency, hpaid]
  · simp [hcurrency]

/-- After the orders, the figures of a currency are those of its paid orders. -/
theorem figures_orders {list : List OrderGroup} (hlist : orderTotals db seller = .ok list)
    (h : list.foldlM addOrderGroup ∅ = .ok result) (currency : String) :
    paidFigures (result.getD currency {}) =
      ((paidOrders db seller currency).map rowFigures).sum := by
  have hsum := foldlM_sum (fun byCurrency : BTreeMap AnalyticsAccumulator =>
    paidFigures (byCurrency.getD currency {}))
    (fun group : OrderGroup => if normalizeCurrency group.currency = .ok currency
      then groupFigures group else 0)
    (fun group _ byCurrency result hstep => by
      obtain ⟨own, aggregate, hown, hgrows, rfl⟩ := addOrderGroup_eq_ok hstep
      rw [hgrows.figures_insert, hown]
      simp only [Except.ok.injEq]) h
  have hzero : paidFigures ((∅ : BTreeMap AnalyticsAccumulator).getD currency {}) = 0 := by
    rw [Std.ExtTreeMap.getD_empty]
    rfl
  rw [hsum, hzero, zero_add, sum_grouped db hlist _ _ fun group entry hread hkey =>
    groupFigures_eq hread hkey currency, paidOrders, sum_filter]
  simp only [decide_eq_true_eq]

/-- After the orders, there are no products. -/
theorem products_orders {list : List OrderGroup}
    (h : list.foldlM addOrderGroup ∅ = .ok result) (currency : String) :
    (result.getD currency {}).topProducts = ∅ := by
  refine foldlM_induction (motive := fun byCurrency : BTreeMap AnalyticsAccumulator =>
    (byCurrency.getD currency {}).topProducts = ∅) (fun group _ byCurrency result hs hstep => ?_)
    ?_ h
  · obtain ⟨own, aggregate, -, hgrows, rfl⟩ := addOrderGroup_eq_ok hstep
    rw [hgrows.products_insert, hs]
  · rw [Std.ExtTreeMap.getD_empty]

/-- After the orders, each of their currencies is there. -/
theorem mem_orders {list : List OrderGroup} (hlist : orderTotals db seller = .ok list)
    (h : list.foldlM addOrderGroup ∅ = .ok result) {row : OrderRow}
    (hrow : row ∈ scopedOrders db seller) :
    ∃ currency, normalizeCurrency row.currency = .ok currency ∧ currency ∈ result := by
  have hall := foldlM_forall (motive := fun (group : OrderGroup) (byCurrency : BTreeMap _) =>
    ∃ currency, normalizeCurrency group.currency = .ok currency ∧ currency ∈ byCurrency)
    (fun group _ result hstep => by
      obtain ⟨own, aggregate, hown, -, rfl⟩ := addOrderGroup_eq_ok hstep
      exact ⟨own, hown, mem_insert.mpr (.inl rfl)⟩)
    (fun group other byCurrency result hdone hstep => by
      obtain ⟨own, aggregate, -, -, rfl⟩ := addOrderGroup_eq_ok hstep
      obtain ⟨currency, hcurrency, hmem⟩ := hdone
      exact ⟨currency, hcurrency, mem_insert.mpr (.inr hmem)⟩) h
  obtain ⟨group, entry, hentry, hread, hkey⟩ := exists_grouped db hlist hrow
  have hcurrency : entry.currency = row.currency :=
    (orderGroup_key hread).trans (congrArg Prod.fst hkey)
  exact hcurrency ▸ hall entry hentry

/-! ### The subscriptions and the disputes -/

/-- A currency keeps its figures and its products. -/
structure Carries (byCurrency result : BTreeMap AnalyticsAccumulator) (currency : String) :
    Prop where
  figures : paidFigures (result.getD currency {}) = paidFigures (byCurrency.getD currency {})
  products : (result.getD currency {}).topProducts = (byCurrency.getD currency {}).topProducts
  mem : currency ∈ byCurrency → currency ∈ result

theorem carries_foldlM {γ : Type}
    {step : BTreeMap AnalyticsAccumulator → γ → Except String (BTreeMap AnalyticsAccumulator)}
    (hstep : ∀ entry byCurrency result, step byCurrency entry = .ok result →
      ∃ own aggregate, Grows byCurrency own 0 aggregate ∧ result = byCurrency.insert own aggregate)
    {list : List γ} (h : list.foldlM step byCurrency = .ok result) (currency : String) :
    Carries byCurrency result currency := by
  refine foldlM_induction (motive := fun reached => Carries byCurrency reached currency)
    (fun entry _ reached next hreached hnext => ?_) ⟨rfl, rfl, id⟩ h
  obtain ⟨own, aggregate, hgrows, rfl⟩ := hstep entry reached next hnext
  refine ⟨?_, ?_, fun hmem => mem_insert.mpr (.inr (hreached.mem hmem))⟩
  · rw [hgrows.figures_insert, ite_self, add_zero, hreached.figures]
  · rw [hgrows.products_insert, hreached.products]

/-! ### The ids of the paid orders -/

/-- The id of an order, if it is of a currency. -/
def idOf (currency : String) (row : OrderRow) : Multiset String :=
  if normalizeCurrency row.currency = .ok currency then {row.id} else 0

theorem addPaidId_eq_ok {ids ids' : BTreeMap (List String)} {row : OrderRow}
    (h : addPaidId ids row = .ok ids') (currency : String) :
    (ids'.getD currency [] : Multiset String) =
      (ids.getD currency [] : Multiset String) + idOf currency row := by
  obtain ⟨own, hown, h⟩ := bind_eq_ok.mp h
  obtain rfl := Except.ok.inj h
  rw [getD_insert, idOf, mapErr_eq_ok.mp hown]
  simp only [Except.ok.injEq]
  split_ifs with hc
  · rw [hc]
    rfl
  · rw [add_zero]

theorem readPage_eq_ok {ids ids' : BTreeMap (List String)} {page : List OrderRow}
    (h : readPage ids page = .ok ids') (currency : String) :
    (ids'.getD currency [] : Multiset String) =
      (ids.getD currency [] : Multiset String) + (page.map (idOf currency)).sum := by
  obtain ⟨-, h⟩ := guard_eq_ok.mp h
  exact foldlM_sum (fun ids : BTreeMap (List String) => (ids.getD currency [] : Multiset String))
    (idOf currency) (fun row _ ids ids' hstep => addPaidId_eq_ok hstep currency) h

theorem sum_singletons {α : Type} (f : α → String) (list : List α) :
    (list.map fun a => ({f a} : Multiset String)).sum = (list.map f : Multiset String) := by
  induction list with
  | nil => rfl
  | cons a list ih => rw [List.map_cons, List.sum_cons, ih]; rfl

/-- The ids of a currency are those of its paid orders. -/
theorem paidOrderIds_perm {ids : BTreeMap (List String)}
    (h : paidOrderIdsByCurrency db seller = .ok ids) (currency : String) :
    (ids.getD currency []).Perm ((paidOrders db seller currency).map (·.id)) := by
  have hsum := foldlM_sum (fun ids : BTreeMap (List String) =>
    (ids.getD currency [] : Multiset String)) (fun page => (page.map (idOf currency)).sum)
    (fun page _ ids ids' hstep => readPage_eq_ok hstep currency) h
  have hnodup : (((scopedOrders db seller).filter isPaidRow).map (·.id)).Nodup :=
    db.nodup_ids.sublist ((List.filter_sublist.trans List.filter_sublist).map _)
  have hall : ((scopedOrders db seller).filter isPaidRow).filter
      (fun row => Behind (·.id) none row) = (scopedOrders db seller).filter isPaidRow :=
    List.filter_eq_self.mpr fun row _ => decide_eq_true nofun
  have hpages := flatten_pages_perm hnodup (show 0 < keysetPage by decide) none
  rw [hall] at hpages
  have hempty : ((∅ : BTreeMap (List String)).getD currency [] : Multiset String) = 0 := by
    rw [Std.ExtTreeMap.getD_empty]
    rfl
  rw [hempty, zero_add] at hsum
  refine Multiset.coe_eq_coe.mp (hsum.trans ?_)
  have hflat (list : List (List OrderRow)) :
      (list.map fun page => (page.map (idOf currency)).sum).sum =
        (list.flatten.map (idOf currency)).sum := by
    rw [List.map_flatten, List.sum_flatten, List.map_map]
    rfl
  rw [hflat, (hpages.map _).sum_eq, ← sum_singletons, paidOrders, sum_filter, sum_filter]
  refine congrArg List.sum (List.map_congr_left fun row _ => ?_)
  simp only [idOf, decide_eq_true_eq]
  split_ifs <;> simp_all

/-! ### The products -/

/-- What is counted for a product. -/
def productFigures (key : String × String) (aggregate : AnalyticsAccumulator) : ℤ × ℤ :=
  let product := aggregate.topProducts.getD key (0, 0)
  (product.1, product.2)

/-- What a line item counts for a product. -/
def lineFigures (key : String × String) (line : LineItem) : ℤ × ℤ :=
  if (line.productId, line.productName) = key then (line.quantity, line.totalMinor) else 0

theorem sum_pairs {α : Type} (f g : α → ℤ) (list : List α) :
    (list.map fun a => (f a, g a)).sum = ((list.map f).sum, (list.map g).sum) := by
  induction list with
  | nil => rfl
  | cons a list ih =>
    simp only [List.map_cons, List.sum_cons, ih]
    rfl

/-- Line items were counted: their quantities and totals for their products, and nothing else. -/
structure Counted (lines : List LineItem) (aggregate result : AnalyticsAccumulator) : Prop where
  figures : paidFigures result = paidFigures aggregate
  products : ∀ key, productFigures key result =
    productFigures key aggregate + (lines.map (lineFigures key)).sum
  grows : ∀ key ∈ aggregate.topProducts, key ∈ result.topProducts
  mem : ∀ line ∈ lines, (line.productId, line.productName) ∈ result.topProducts

theorem Counted.refl (aggregate : AnalyticsAccumulator) : Counted [] aggregate aggregate :=
  ⟨rfl, fun _ => (add_zero _).symm, fun _ => id, List.forall_mem_nil _⟩

theorem Counted.trans {front back : List LineItem}
    {aggregate middle result : AnalyticsAccumulator} (h : Counted front aggregate middle)
    (h' : Counted back middle result) : Counted (front ++ back) aggregate result where
  figures := h'.figures.trans h.figures
  products key := by
    rw [h'.products, h.products, List.map_append, List.sum_append, add_assoc]
  grows key hkey := h'.grows key (h.grows key hkey)
  mem := List.forall_mem_append.mpr ⟨fun line hline => h'.grows _ (h.mem line hline), h'.mem⟩

theorem Counted.perm {lines lines' : List LineItem} {aggregate result : AnalyticsAccumulator}
    (h : Counted lines aggregate result) (hperm : lines.Perm lines') :
    Counted lines' aggregate result where
  figures := h.figures
  products key := by rw [h.products, (hperm.map _).sum_eq]
  grows := h.grows
  mem line hline := h.mem line (hperm.mem_iff.mpr hline)

/-- A group of line items of a product is counted. -/
theorem addLineGroup_counted {group : (String × String) × List LineItem} {line : LineGroup}
    {currency : String} {aggregate result : AnalyticsAccumulator}
    (hread : lineGroup group = .ok line)
    (hkey : ∀ row ∈ group.2, (row.productId, row.productName) = group.1)
    (h : addLineGroup currency aggregate line = .ok result) :
    Counted group.2 aggregate result := by
  obtain ⟨quantity, hquantity, hread⟩ := bind_eq_ok.mp hread
  obtain ⟨revenue, hrevenue, hread⟩ := bind_eq_ok.mp hread
  obtain rfl := Except.ok.inj hread
  obtain ⟨_, -, h⟩ := bind_eq_ok.mp h
  obtain ⟨_, -, h⟩ := bind_eq_ok.mp h
  obtain ⟨-, h⟩ := guard_eq_ok.mp h
  obtain ⟨count, hcount, h⟩ := bind_eq_ok.mp h
  obtain rfl := Except.ok.inj h
  have hlines (key : String × String) : (group.2.map (lineFigures key)).sum =
      if group.1 = key then (quantity, revenue) else 0 := by
    have hsame : group.2.map (lineFigures key) = group.2.map fun row =>
        if group.1 = key then (row.quantity, row.totalMinor) else 0 :=
      List.map_congr_left fun row hrow => by rw [lineFigures, hkey row hrow]
    rw [hsame]
    split_ifs
    · rw [sum_pairs, sumColumn_eq_ok hquantity, sumColumn_eq_ok hrevenue]
    · simp
  refine ⟨rfl, fun key => ?_, fun key hmem => ?_, fun row hrow => ?_⟩
  · rw [hlines, productFigures, productFigures, Std.ExtTreeMap.getD_insert]
    simp only [Std.LawfulEqCmp.compare_eq_iff_eq, Prod.mk.eta]
    split_ifs with heq
    · rw [← heq, Nat.cast_add, analyticsCount_eq_ok hcount]
      rfl
    · rw [add_zero]
  · exact Std.ExtTreeMap.mem_insert.mpr (.inr hmem)
  · exact Std.ExtTreeMap.mem_insert.mpr (.inl (by rw [hkey row hrow]; simp))

theorem addLineGroups_counted {currency : String}
    {groups : List ((String × String) × List LineItem)} {lines : List LineGroup}
    (hread : List.Forall₂ (fun group line => lineGroup group = .ok line) groups lines)
    (hkey : ∀ group ∈ groups, ∀ row ∈ group.2, (row.productId, row.productName) = group.1)
    {aggregate result : AnalyticsAccumulator}
    (h : lines.foldlM (addLineGroup currency) aggregate = .ok result) :
    Counted (groups.flatMap (·.2)) aggregate result := by
  induction hread generalizing aggregate with
  | nil => exact Except.ok.inj h ▸ .refl aggregate
  | cons hline _ ih =>
    obtain ⟨hfirst, hkey⟩ := List.forall_mem_cons.mp hkey
    rw [List.foldlM_cons] at h
    obtain ⟨next, hnext, h⟩ := bind_eq_ok.mp h
    rw [List.flatMap_cons]
    exact (addLineGroup_counted hline hfirst hnext).trans (ih hkey h)

/-- The line items of the orders of a chunk are counted. -/
theorem addChunk_counted {currency : String} {chunk : List String}
    {aggregate result : AnalyticsAccumulator}
    (h : addChunk db currency aggregate chunk = .ok result) :
    Counted (db.lineItems.filter fun line => line.purchaseId ∈ chunk) aggregate result := by
  obtain ⟨lines, hlines, h⟩ := bind_eq_ok.mp h
  refine (addLineGroups_counted (mapM_eq_ok.mp hlines) (fun group hgroup row hrow => ?_) h).perm
    (((db.arrange_perm _).flatMap_right _).trans (flatMap_groups_perm _ _))
  exact (mem_of_mem_groups ((db.arrange_perm _).mem_iff.mp hgroup) hrow).2

theorem addChunks_counted {currency : String} {parts : List (List String)}
    {aggregate result : AnalyticsAccumulator}
    (h : parts.foldlM (addChunk db currency) aggregate = .ok result) :
    Counted (parts.flatMap fun part => db.lineItems.filter fun line => line.purchaseId ∈ part)
      aggregate result := by
  induction parts generalizing aggregate with
  | nil => exact Except.ok.inj h ▸ .refl aggregate
  | cons part parts ih =>
    rw [List.foldlM_cons] at h
    obtain ⟨next, hnext, h⟩ := bind_eq_ok.mp h
    rw [List.flatMap_cons]
    exact (addChunk_counted hnext).trans (ih h)

/-- The line items of the paid orders of a currency are counted for it. -/
theorem addProducts_eq_ok {paid : String × List String} (hnodup : paid.2.Nodup)
    (h : addProducts db byCurrency paid = .ok result) :
    ∃ aggregate, result = byCurrency.insert paid.1 aggregate ∧
      Counted (db.lineItems.filter fun line => line.purchaseId ∈ paid.2)
        (byCurrency.getD paid.1 {}) aggregate := by
  obtain ⟨found, hfound, h⟩ := bind_eq_ok.mp h
  obtain ⟨aggregate, haggregate, h⟩ := bind_eq_ok.mp h
  have hgetD : byCurrency.getD paid.1 {} = found := by
    rw [Std.ExtTreeMap.getD_eq_getD_getElem?, okOr_eq_ok.mp hfound, Option.getD_some]
  have hparts := flatMap_filter_parts_perm LineItem.purchaseId db.lineItems
    ((flatten_chunks chunkSize paid.2).symm ▸ hnodup)
  rw [flatten_chunks] at hparts
  exact ⟨aggregate, (Except.ok.inj h).symm, hgetD ▸ (addChunks_counted haggregate).perm hparts⟩

/-- The entries of a map have different keys. -/
theorem nodup_toList {key α : Type} {cmp : key → key → Ordering} [Std.TransCmp cmp]
    (map : Std.ExtTreeMap key α cmp) : (map.toList.map Prod.fst).Nodup := by
  rw [Std.ExtTreeMap.map_fst_toList_eq_keys]
  exact Std.ExtTreeMap.nodup_keys

/-- A key has one entry in a map, if it is there. -/
theorem flatMap_toList_perm {α β : Type} (map : BTreeMap (List α)) (key : String)
    (f : List α → List β) (hf : f [] = []) :
    ((map.toList.filter fun entry => entry.1 = key).flatMap fun entry => f entry.2).Perm
      (f (map.getD key [])) := by
  have hmem (entry : String × List α) : (entry ∈ map.toList.filter fun entry => entry.1 = key) ↔
      map[key]? = some entry.2 ∧ entry.1 = key := by
    rw [List.mem_filter, decide_eq_true_eq]
    constructor
    · rintro ⟨hentry, rfl⟩
      exact ⟨Std.ExtTreeMap.mem_toList_iff_getElem?_eq_some.mp hentry, rfl⟩
    · rintro ⟨hentry, rfl⟩
      exact ⟨Std.ExtTreeMap.mem_toList_iff_getElem?_eq_some.mpr hentry, rfl⟩
  rw [Std.ExtTreeMap.getD_eq_getD_getElem?]
  cases hget : map[key]? with
  | none =>
    have hnil : (map.toList.filter fun entry => entry.1 = key) = [] :=
      List.eq_nil_iff_forall_not_mem.mpr fun entry hentry => by
        cases hget.symm.trans ((hmem entry).mp hentry).1
    rw [hnil, Option.getD_none, hf]
    exact .nil
  | some values =>
    have hone : (map.toList.filter fun entry => entry.1 = key).Perm [(key, values)] := by
      refine (List.perm_ext_iff_of_nodup ?_ (List.nodup_singleton _)).mpr fun entry => ?_
      · exact (List.Nodup.of_map Prod.fst (nodup_toList map)).filter _
      · rw [hmem, hget, List.mem_singleton, Option.some.injEq, Prod.ext_iff, and_comm]
        exact and_congr_right fun _ => eq_comm
    refine (hone.flatMap_right _).trans ?_
    rw [List.flatMap_singleton]
    rfl

theorem addProducts_counted {entries : List (String × List String)}
    (hnodup : ∀ entry ∈ entries, entry.2.Nodup)
    (h : entries.foldlM (addProducts db) byCurrency = .ok result) (currency : String) :
    Counted ((entries.filter fun entry => entry.1 = currency).flatMap fun entry =>
        db.lineItems.filter fun line => line.purchaseId ∈ entry.2)
      (byCurrency.getD currency {}) (result.getD currency {}) ∧
        (currency ∈ byCurrency → currency ∈ result) := by
  induction entries generalizing byCurrency with
  | nil => exact Except.ok.inj h ▸ ⟨.refl _, id⟩
  | cons entry entries ih =>
    obtain ⟨hfirst, hnodup⟩ := List.forall_mem_cons.mp hnodup
    rw [List.foldlM_cons] at h
    obtain ⟨next, hnext, h⟩ := bind_eq_ok.mp h
    obtain ⟨aggregate, rfl, hcounted⟩ := addProducts_eq_ok hfirst hnext
    obtain ⟨hrest, hmem⟩ := ih hnodup h
    refine ⟨?_, fun hcurrency => hmem (mem_insert.mpr (.inr hcurrency))⟩
    rw [getD_insert] at hrest
    by_cases heq : entry.1 = currency
    · rw [if_pos heq] at hrest
      rw [List.filter_cons_of_pos (by simpa using heq), List.flatMap_cons]
      exact (heq ▸ hcounted).trans hrest
    · rw [if_neg heq] at hrest
      rwa [List.filter_cons_of_neg (by simpa using heq)]

/-- The line items of the paid orders of a currency are counted for it, once each. -/
theorem products_counted {ids : BTreeMap (List String)}
    (hids : paidOrderIdsByCurrency db seller = .ok ids)
    (h : ids.toList.foldlM (addProducts db) byCurrency = .ok result) (currency : String) :
    Counted (paidLines db seller currency) (byCurrency.getD currency {})
      (result.getD currency {}) ∧ (currency ∈ byCurrency → currency ∈ result) := by
  have hperm := paidOrderIds_perm hids
  have hnodup : ∀ entry ∈ ids.toList, entry.2.Nodup := fun entry hentry => by
    have hget := Std.ExtTreeMap.mem_toList_iff_getElem?_eq_some.mp hentry
    have hentry := hperm entry.1
    rw [Std.ExtTreeMap.getD_eq_getD_getElem?, hget, Option.getD_some] at hentry
    refine hentry.nodup_iff.mpr (db.nodup_ids.sublist ?_)
    exact (List.filter_sublist.trans List.filter_sublist).map _
  obtain ⟨hcounted, hmem⟩ := addProducts_counted hnodup h currency
  refine ⟨hcounted.perm ((flatMap_toList_perm ids currency (fun ids => db.lineItems.filter
    fun line => line.purchaseId ∈ ids) (by simp)).trans ?_), hmem⟩
  rw [paidLines]
  simp only [(hperm currency).mem_iff]
  exact .rfl

/-! ### The analytics of a currency -/

theorem analyticsI64_eq_ok {value result : ℤ} {field : String}
    (h : analyticsI64 value field = .ok result) : result = value :=
  ((i64_eq_some_iff.mp (okOr_eq_ok.mp h)).1).symm

theorem analyticsU64_eq_ok {value result : ℕ} {field : String}
    (h : analyticsU64 value field = .ok result) : result = value :=
  ((u64_eq_some_iff.mp (okOr_eq_ok.mp h)).1).symm

/-- What the analytics of a currency says of what was added up. -/
theorem currencyAnalytics_eq_ok {entry : String × AnalyticsAccumulator} {row : CommerceAnalytics}
    (h : currencyAnalytics entry = .ok row) :
    row.currency = entry.1 ∧
      (row.grossVolumeMinor, row.refundedVolumeMinor, (row.paidOrderCount : ℤ)) =
        paidFigures entry.2 ∧
      row.netVolumeMinor = row.grossVolumeMinor - row.refundedVolumeMinor ∧
      ∃ products, entry.2.topProducts.toList.mapM analyticsProduct = .ok products ∧
        row.topProducts = (products.mergeSort productLe).take 5 := by
  obtain ⟨gross, hgross, h⟩ := bind_eq_ok.mp h
  obtain ⟨refunded, hrefunded, h⟩ := bind_eq_ok.mp h
  obtain ⟨products, hproducts, h⟩ := bind_eq_ok.mp h
  obtain ⟨_, -, h⟩ := bind_eq_ok.mp h
  obtain ⟨_, -, h⟩ := bind_eq_ok.mp h
  obtain ⟨paid, hpaid, h⟩ := bind_eq_ok.mp h
  obtain ⟨_, -, h⟩ := bind_eq_ok.mp h
  obtain ⟨_, -, h⟩ := bind_eq_ok.mp h
  obtain ⟨_, -, h⟩ := bind_eq_ok.mp h
  obtain ⟨_, -, h⟩ := bind_eq_ok.mp h
  obtain ⟨_, -, h⟩ := bind_eq_ok.mp h
  obtain ⟨_, -, h⟩ := bind_eq_ok.mp h
  obtain ⟨_, -, h⟩ := bind_eq_ok.mp h
  obtain ⟨_, -, h⟩ := bind_eq_ok.mp h
  obtain ⟨_, -, h⟩ := bind_eq_ok.mp h
  obtain ⟨_, -, h⟩ := bind_eq_ok.mp h
  obtain rfl := Except.ok.inj h
  refine ⟨rfl, ?_, rfl, products, hproducts, rfl⟩
  rw [analyticsI64_eq_ok hgross, analyticsI64_eq_ok hrefunded, analyticsU64_eq_ok hpaid]
  rfl

/-- The products of a currency, each with what was counted for it. -/
theorem analyticsProducts_eq_ok {aggregate : AnalyticsAccumulator}
    {products : List AnalyticsProduct}
    (h : aggregate.topProducts.toList.mapM analyticsProduct = .ok products) :
    (products.map fun product => (product.productId, product.name)).Nodup ∧
      (∀ key ∈ aggregate.topProducts, ∃ product ∈ products,
        (product.productId, product.name) = key) ∧
      ∀ product ∈ products, ((product.quantity : ℤ), product.revenueMinor) =
        productFigures (product.productId, product.name) aggregate := by
  have hall := mapM_eq_ok.mp h
  have hread {entry : (String × String) × (ℕ × ℤ)} {product : AnalyticsProduct}
      (hproduct : analyticsProduct entry = .ok product) :
      (product.productId, product.name) = entry.1 ∧
        product.quantity = entry.2.1 ∧ product.revenueMinor = entry.2.2 := by
    obtain ⟨quantity, hquantity, hproduct⟩ := bind_eq_ok.mp hproduct
    obtain ⟨revenue, hrevenue, hproduct⟩ := bind_eq_ok.mp hproduct
    obtain rfl := Except.ok.inj hproduct
    exact ⟨rfl, analyticsU64_eq_ok hquantity, analyticsI64_eq_ok hrevenue⟩
  have hkeys : (products.map fun product => (product.productId, product.name)) =
      aggregate.topProducts.toList.map Prod.fst := by
    refine List.ext_getElem (by simpa using hall.length_eq.symm) fun i hi hi' => ?_
    rw [List.length_map] at hi hi'
    rw [List.getElem_map, List.getElem_map]
    exact (hread (hall.get hi' hi)).1
  refine ⟨hkeys ▸ nodup_toList _, fun key hkey => ?_, fun product hproduct => ?_⟩
  · obtain ⟨value, hvalue⟩ := Option.isSome_iff_exists.mp
      (Std.ExtTreeMap.mem_iff_isSome_getElem?.mp hkey)
    have hmem : key ∈ aggregate.topProducts.toList.map Prod.fst :=
      List.mem_map.mpr ⟨_, Std.ExtTreeMap.mem_toList_iff_getElem?_eq_some.mpr hvalue, rfl⟩
    rw [← hkeys] at hmem
    exact List.mem_map.mp hmem
  · obtain ⟨i, hi, rfl⟩ := List.getElem_of_mem hproduct
    have hi' : i < aggregate.topProducts.toList.length := hall.length_eq ▸ hi
    obtain ⟨hkey, hquantity, hrevenue⟩ := hread (hall.get hi' hi)
    have hget := Std.ExtTreeMap.mem_toList_iff_getElem?_eq_some.mp
      (List.getElem_mem hi')
    rw [List.get_eq_getElem] at hkey hquantity hrevenue
    rw [productFigures, hkey, Std.ExtTreeMap.getD_eq_getD_getElem?]
    erw [hget]
    rw [Option.getD_some, hquantity, hrevenue]

/-- The figures of a product are the sums over its line items. -/
theorem sum_lineFigures (product : AnalyticsProduct) (lines : List LineItem) :
    (lines.map (lineFigures (product.productId, product.name))).sum =
      (((linesOf product lines).map (·.quantity)).sum,
        ((linesOf product lines).map (·.totalMinor)).sum) := by
  rw [← sum_pairs, linesOf, sum_filter]
  refine congrArg List.sum (List.map_congr_left fun line _ => ?_)
  simp only [lineFigures, Prod.mk.injEq, decide_eq_true_eq]

/-- What has been added up in the end. -/
structure Added (db : Database) (seller : Option String)
    (total : BTreeMap AnalyticsAccumulator) : Prop where
  figures : ∀ currency, paidFigures (total.getD currency {}) =
    ((paidOrders db seller currency).map rowFigures).sum
  products : ∀ currency key, productFigures key (total.getD currency {}) =
    ((paidLines db seller currency).map (lineFigures key)).sum
  lines : ∀ currency, ∀ line ∈ paidLines db seller currency,
    (line.productId, line.productName) ∈ (total.getD currency {}).topProducts
  orders : ∀ order ∈ scopedOrders db seller,
    ∃ currency, normalizeCurrency order.currency = .ok currency ∧ currency ∈ total

theorem commerceAnalytics_eq_ok {rows : List CommerceAnalytics}
    (h : commerceAnalytics db seller = .ok rows) :
    ∃ total, Added db seller total ∧
      List.Forall₂ (fun entry row => currencyAnalytics entry = .ok row) total.toList rows := by
  obtain ⟨orders, horders, h⟩ := bind_eq_ok.mp h
  obtain ⟨afterOrders, hafterOrders, h⟩ := bind_eq_ok.mp h
  obtain ⟨afterSubscriptions, hafterSubscriptions, h⟩ := bind_eq_ok.mp h
  obtain ⟨disputes, -, h⟩ := bind_eq_ok.mp h
  obtain ⟨afterDisputes, hafterDisputes, h⟩ := bind_eq_ok.mp h
  obtain ⟨ids, hids, h⟩ := bind_eq_ok.mp h
  obtain ⟨total, htotal, h⟩ := bind_eq_ok.mp h
  have hsubscriptions := carries_foldlM (fun _ _ _ => addSubscriptionGroup_eq_ok)
    hafterSubscriptions
  have hdisputes := carries_foldlM (fun _ _ _ => addDisputeGroup_eq_ok) hafterDisputes
  have hcounted := products_counted hids htotal
  refine ⟨total, ⟨fun currency => ?_, fun currency key => ?_, fun currency => ?_,
    fun order horder => ?_⟩, mapM_eq_ok.mp h⟩
  · rw [(hcounted currency).1.figures, (hdisputes currency).figures,
      (hsubscriptions currency).figures, figures_orders horders hafterOrders]
  · have hnone : productFigures key (afterDisputes.getD currency {}) = 0 := by
      rw [productFigures, (hdisputes currency).products, (hsubscriptions currency).products,
        products_orders hafterOrders, Std.ExtTreeMap.getD_empty]
      rfl
    rw [(hcounted currency).1.products, hnone, zero_add]
  · exact (hcounted currency).1.mem
  · obtain ⟨currency, hcurrency, hmem⟩ := mem_orders horders hafterOrders horder
    exact ⟨currency, hcurrency,
      (hcounted currency).2 ((hdisputes currency).mem ((hsubscriptions currency).mem hmem))⟩

theorem Added.exact {total : BTreeMap AnalyticsAccumulator} (h : Added db seller total)
    {entry : String × AnalyticsAccumulator} (hentry : entry ∈ total.toList)
    {row : CommerceAnalytics} (hrow : currencyAnalytics entry = .ok row) :
    ExactAnalytics db seller row := by
  obtain ⟨hcurrency, hfigures, hnet, products, hproducts, htop⟩ := currencyAnalytics_eq_ok hrow
  obtain ⟨hnodup, hcover, hexact⟩ := analyticsProducts_eq_ok hproducts
  have haggregate : total.getD entry.1 {} = entry.2 := by
    rw [Std.ExtTreeMap.getD_eq_getD_getElem?,
      Std.ExtTreeMap.mem_toList_iff_getElem?_eq_some.mp hentry, Option.getD_some]
  rw [← haggregate, h.figures, sum_rowFigures] at hfigures
  obtain ⟨hgross, hrefunded, hpaid⟩ := Prod.ext_iff.mp hfigures |>.imp id Prod.ext_iff.mp
  refine ⟨?_, ?_, hnet, ?_, products, htop, hnodup, fun line hline => ?_,
    fun product hproduct => ?_⟩
  · rw [hcurrency]
    exact hgross
  · rw [hcurrency]
    exact hrefunded
  · rw [hcurrency]
    exact Int.natCast_inj.mp hpaid
  · have hkey := h.lines row.currency line hline
    rw [hcurrency, haggregate] at hkey
    obtain ⟨product, hproduct, heq⟩ := hcover _ hkey
    exact ⟨product, hproduct, Prod.ext_iff.mp heq⟩
  · have hsums := hexact product hproduct
    rw [← haggregate, h.products, sum_lineFigures, ← hcurrency] at hsums
    exact Prod.ext_iff.mp hsums

def sixNames : List String := ["a", "b", "c", "d", "e", "f"]

/-- One order of six products. -/
def sixProducts : Database where
  orders := [⟨"order_1", "nzd", "completed", "", 600, 0, 0, "", ""⟩]
  disputes := []
  lineItems := sixNames.map fun id => ⟨"order_1", id, id, 1, 100⟩
  nodup_ids := by decide
  arrange := id
  arrange_perm := fun _ => .refl _

def sixOrders : AnalyticsAccumulator :=
  { grossVolumeMinor := 600, orderCount := 1, paidOrderCount := 1 }

def sixTotals : AnalyticsAccumulator :=
  { sixOrders with
    topProducts := sixNames.foldl (fun products id => products.insert (id, id) (1, 100)) ∅ }

def sixAnalytics : CommerceAnalytics where
  currency := "NZD"
  grossVolumeMinor := 600
  refundedVolumeMinor := 0
  netVolumeMinor := 600
  platformFeesMinor := 0
  orderCount := 1
  paidOrderCount := 1
  refundedOrderCount := 0
  failedOrderCount := 0
  openDisputeCount := 0
  openDisputedVolumeMinor := 0
  lostDisputeCount := 0
  lostDisputedVolumeMinor := 0
  activeSubscriptionCount := 0
  trialingSubscriptionCount := 0
  pastDueSubscriptionCount := 0
  canceledSubscriptionCount := 0
  topProducts := (sixNames.take 5).map fun id => ⟨id, id, 1, 100⟩

theorem paidOrderIds_six : paidOrderIdsByCurrency sixProducts none =
    .ok ((∅ : BTreeMap (List String)).insert "NZD" ["order_1"]) := by
  have hpaid : (scopedOrders sixProducts none).filter isPaidRow = sixProducts.orders := by rfl
  have hsorted : behind (·.id) sixProducts.orders none = sixProducts.orders :=
    List.mergeSort_of_pairwise (List.pairwise_singleton _ _)
  have hpage : pageAfter (·.id) sixProducts.orders keysetPage none = sixProducts.orders := by
    rw [pageAfter, hsorted]
    rfl
  rw [paidOrderIdsByCurrency, hpaid, pages_of_short (by rw [hpage]; decide), hpage]
  rfl

theorem addProducts_six : addProducts sixProducts
    ((∅ : BTreeMap AnalyticsAccumulator).insert "NZD" sixOrders) ("NZD", ["order_1"]) =
      .ok ((∅ : BTreeMap AnalyticsAccumulator).insert "NZD" sixTotals) := by
  have hchunks : chunks chunkSize ["order_1"] = [["order_1"]] := by
    rw [chunks, List.take_nil, List.drop_nil, chunks]
  rw [addProducts, hchunks]
  rfl

theorem currencyAnalytics_six : currencyAnalytics ("NZD", sixTotals) = .ok sixAnalytics := by
  have hproducts : sixTotals.topProducts.toList.mapM analyticsProduct =
      .ok (sixNames.map fun id => ⟨id, id, 1, 100⟩) := by rfl
  have hsorted : (sixNames.map fun id => (⟨id, id, 1, 100⟩ : AnalyticsProduct)).mergeSort
      productLe = sixNames.map fun id => ⟨id, id, 1, 100⟩ :=
    List.mergeSort_of_pairwise (by decide)
  rw [currencyAnalytics, hproducts]
  change Except.ok _ = _
  simp only [hsorted]
  rfl

theorem commerceAnalytics_six : commerceAnalytics sixProducts none = .ok [sixAnalytics] := by
  have horders : (orderTotals sixProducts none >>= fun orders =>
      orders.foldlM addOrderGroup (∅ : BTreeMap AnalyticsAccumulator)) =
        .ok ((∅ : BTreeMap AnalyticsAccumulator).insert "NZD" sixOrders) := by rfl
  obtain ⟨orders, hread, hadded⟩ := bind_eq_ok.mp horders
  have hrows : [("NZD", sixTotals)].mapM currencyAnalytics = .ok [sixAnalytics] :=
    mapM_eq_ok.mpr (.cons currencyAnalytics_six .nil)
  have hproducts : [("NZD", ["order_1"])].foldlM (addProducts sixProducts)
      ((∅ : BTreeMap AnalyticsAccumulator).insert "NZD" sixOrders) =
        .ok ((∅ : BTreeMap AnalyticsAccumulator).insert "NZD" sixTotals) :=
    bind_eq_ok.mpr ⟨_, addProducts_six, rfl⟩
  exact bind_eq_ok.mpr ⟨orders, hread, bind_eq_ok.mpr ⟨_, hadded, bind_eq_ok.mpr ⟨_, rfl,
    bind_eq_ok.mpr ⟨[], rfl, bind_eq_ok.mpr ⟨_, rfl, bind_eq_ok.mpr ⟨_, paidOrderIds_six,
      bind_eq_ok.mpr ⟨_, hproducts, hrows⟩⟩⟩⟩⟩⟩⟩

end Analytics

end Products
