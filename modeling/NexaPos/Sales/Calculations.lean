import NexaPos.Core.State
import Mathlib.Algebra.Order.BigOperators.Group.List

/-!
# The commercial calculation engine

Line totals, the allocation of an invoice discount over the lines, tax, display rounding of the
grand total, and the classification of the tenders.  Everything here is a function of the
settings and of the lines: it reads no table and writes none.

Lines are computed twice, as in the source: once without the invoice discount to learn every
line's base, and once with the line's share of it.
-/

namespace NexaPos

/-! ## Lines -/

/-- A validated cart line, with the product and variant rows as they were locked. -/
structure NormalizedLine where
  productId : ℕ
  product : Product
  variantId : Option ℕ
  variant : Option ProductVariant
  quantity : ℚ
  unitPrice : ℤ
  discountAmount : ℤ
  garmentClassification : Option GarmentClassification
  collectionType : Option CollectionType
  estimatedFabric : Option ℤ
  fabricMeterUsed : Option ℤ
  customerSuppliedFabric : Bool
  tailoringDetails : List (TailoringField × Text)
  familyMember : Option ℕ
  quantity_pos : 0 < quantity
  unitPrice_nonneg : 0 ≤ unitPrice
  meter_pos : ∀ m ∈ fabricMeterUsed, 0 < m
  customerFabric_noMeter : customerSuppliedFabric = true → fabricMeterUsed = none

/-- One computed line. -/
structure LineParts where
  quantity : ℚ
  unitPrice : ℤ
  discountAmount : ℤ
  invoiceDiscountShare : ℤ
  taxRate : ℚ
  baseBeforeInvoiceDiscount : ℤ
  base : ℤ
  tax : ℤ
  total : ℤ

/-- `resolve_tax_rate`: the VAT switch is the master control. -/
def resolveTaxRate (settings : BusinessSettings) (product : Product) (explicitRate : Option ℚ) :
    ℚ :=
  if !settings.vatEnabled then
    0
  else
    match explicitRate with
    | some rate => rate
    | none =>
      if product.isMeterTailoring then
        dec settings.vatPercentage
      else if 0 < product.effectiveTaxRate then
        dec product.effectiveTaxRate
      else
        dec settings.vatPercentage

/-- `_price_includes_tax`, with the business setting as the fallback. -/
def priceIncludesTax (settings : BusinessSettings) (product : Product) : Bool :=
  if product.isMeterTailoring then
    settings.pricesIncludeTax
  else
    product.priceIncludesTax.getD settings.pricesIncludeTax

/-- `CalculationError(message)`. -/
def CalculationError (message : String) : PosError := .calculation message

/-- `compute_line`. -/
def computeLine (settings : BusinessSettings) (line : NormalizedLine) (explicitRate : Option ℚ)
    (invoiceDiscountShare : ℤ) : Except PosError LineParts := do
  let rate := resolveTaxRate settings line.product explicitRate
  let gross := money (dec line.unitPrice * line.quantity - dec line.discountAmount)
  require (0 ≤ gross) (CalculationError "Line discount cannot exceed the line amount.")
  let baseBefore :=
    if 0 < rate ∧ priceIncludesTax settings line.product = true then
      money (dec gross / (1 + rate / 100))
    else
      gross
  require (0 ≤ invoiceDiscountShare)
    (CalculationError "Invoice discount cannot be negative.")
  require (invoiceDiscountShare ≤ baseBefore)
    (CalculationError "Invoice discount cannot exceed the taxable line amount.")
  let base := baseBefore - invoiceDiscountShare
  let tax := if 0 < rate then money (dec base * rate / 100) else 0
  return {
    quantity := line.quantity
    unitPrice := line.unitPrice
    discountAmount := line.discountAmount
    invoiceDiscountShare := invoiceDiscountShare
    taxRate := rate
    baseBeforeInvoiceDiscount := baseBefore
    base := base
    tax := tax
    total := base + tax }

/-! ## The invoice discount -/

/-- The shares of a non-zero discount: proportional to the base, the last line taking what is
left. -/
def proportionalShares (discount subtotal : ℤ) : ℤ → List ℤ → List ℤ
  | _, [] => []
  | allocated, [_] => [discount - allocated]
  | allocated, base :: bases =>
    let share := money (dec discount * dec base / dec subtotal)
    share :: proportionalShares discount subtotal (allocated + share) bases

/-- `_allocate_discount` over the bases of the lines. -/
def allocateDiscount (bases : List ℤ) (discount : ℤ) : Except PosError (List ℤ) := do
  let subtotal := bases.sum
  require (0 ≤ discount) (CalculationError "Invoice discount cannot be negative.")
  require (discount ≤ subtotal)
    (CalculationError "Invoice discount cannot exceed the sale subtotal.")
  if discount = 0 ∨ subtotal = 0 then
    return bases.map fun _ => 0
  else
    return proportionalShares discount subtotal 0 bases

/-! ## Totals -/

/-- The result of `calculate_sale_totals`. -/
structure SaleTotals where
  lines : List (NormalizedLine × LineParts)
  subtotal : ℤ
  lineDiscounts : ℤ
  invoiceDiscount : ℤ
  discountTotal : ℤ
  taxTotal : ℤ
  rawTotal : ℤ
  total : ℤ
  rounding : ℤ

/-- The grand total after display rounding. -/
def displayTotal (settings : BusinessSettings) (rawTotal : ℤ) : ℤ :=
  if settings.priceRounding = .nearest then
    money (roundToPrecision (dec rawTotal) settings.currencyPrecision)
  else
    rawTotal

/-- `calculate_sale_totals`. -/
def calculateSaleTotals (settings : BusinessSettings) (items : List NormalizedLine)
    (invoiceDiscount : ℤ) : Except PosError SaleTotals := do
  let firstPass ← items.mapM fun line => computeLine settings line none 0
  let shares ← allocateDiscount (firstPass.map LineParts.baseBeforeInvoiceDiscount)
    invoiceDiscount
  let computed ← ((items.zip firstPass).zip shares).mapM fun ((line, initial), share) =>
    computeLine settings line (some initial.taxRate) share
  let subtotal := (firstPass.map LineParts.baseBeforeInvoiceDiscount).sum
  let lineDiscounts := (firstPass.map LineParts.discountAmount).sum
  let rawTotal := (computed.map LineParts.total).sum
  let total := displayTotal settings rawTotal
  return {
    lines := items.zip computed
    subtotal := subtotal
    lineDiscounts := lineDiscounts
    invoiceDiscount := invoiceDiscount
    discountTotal := lineDiscounts + invoiceDiscount
    taxTotal := (computed.map LineParts.tax).sum
    rawTotal := rawTotal
    total := total
    rounding := total - rawTotal }

/-- `calculate_sale_totals` with its `currency_precision` argument: a given precision takes the
place of the business's own. -/
def calculateSaleTotalsAt (settings : BusinessSettings) (items : List NormalizedLine)
    (invoiceDiscount : ℤ) (currencyPrecision : Option ℤ) : Except PosError SaleTotals :=
  calculateSaleTotals
    { settings with currencyPrecision := currencyPrecision.getD settings.currencyPrecision }
    items invoiceDiscount

/-! ## Tenders -/

/-- A payment as it was entered, with its method row. -/
structure Tender where
  methodId : ℕ
  method : PaymentMethod
  amount : ℚ

/-- A tender with its amount rounded; only positive amounts are accepted. -/
structure CleanPayment where
  methodId : ℕ
  kind : PaymentKind
  amount : ℤ
  amount_pos : 0 < amount

/-- The sums of `calculate_payment_totals`. -/
structure PaymentTotals where
  payTotal : ℤ
  creditAmount : ℤ
  storeCreditAmount : ℤ
  cashTendered : ℤ
  deriving DecidableEq, Repr

/-- What the tenders of the given kinds add up to. -/
def tendered (p : PaymentKind → Bool) (payments : List CleanPayment) : ℤ :=
  ((payments.filter fun x => p x.kind).map CleanPayment.amount).sum

/-- One tender of `calculate_payment_totals`. -/
def cleanPayment (t : Tender) : Except PosError CleanPayment := do
  let amount := money t.amount
  let ⟨h⟩ ← requireThat (0 < amount) (CalculationError "Payment amounts must be positive.")
  return { methodId := t.methodId, kind := t.method.kind, amount := amount, amount_pos := h }

/-- `calculate_payment_totals`. -/
def calculatePaymentTotals (tenders : List Tender) :
    Except PosError (List CleanPayment × PaymentTotals) := do
  let payments ← tenders.mapM cleanPayment
  return (payments, {
    payTotal := tendered (fun _ => true) payments
    creditAmount := tendered (· == .customerCredit) payments
    storeCreditAmount := tendered (· == .storeCredit) payments
    cashTendered := tendered (· == .cash) payments })

/-- What the tenders of some kinds add up to is not negative. -/
lemma tendered_nonneg (kinds : PaymentKind → Bool) (payments : List CleanPayment) :
    0 ≤ tendered kinds payments := by
  unfold tendered
  refine List.sum_nonneg fun x hx => ?_
  obtain ⟨payment, -, rfl⟩ := List.mem_map.mp hx
  exact payment.amount_pos.le

/-- The totals of the tenders are sums over them. -/
lemma calculatePaymentTotals_ok {tenders : List Tender} {payments : List CleanPayment}
    {totals : PaymentTotals} (h : calculatePaymentTotals tenders = .ok (payments, totals)) :
    tenders.mapM cleanPayment = .ok payments ∧ totals = {
      payTotal := tendered (fun _ => true) payments
      creditAmount := tendered (· == .customerCredit) payments
      storeCreditAmount := tendered (· == .storeCredit) payments
      cashTendered := tendered (· == .cash) payments } := by
  unfold calculatePaymentTotals at h
  simp only [except_bind_eq_ok, pure, Except.pure, Except.ok.injEq, Prod.mk.injEq] at h
  obtain ⟨payments', hpayments, rfl, rfl⟩ := h
  exact ⟨hpayments, rfl⟩

/-! ## What the engine guarantees -/

/-- A computed line keeps its quantity, and its total is not negative. -/
lemma computeLine_ok {settings : BusinessSettings} {line : NormalizedLine}
    {explicitRate : Option ℚ} {share : ℤ} {parts : LineParts}
    (h : computeLine settings line explicitRate share = .ok parts) :
    parts.quantity = line.quantity ∧ 0 ≤ parts.total := by
  unfold computeLine at h
  simp only [except_bind_eq_ok, require_eq_ok, pure, Except.pure, Except.ok.injEq,
    decide_eq_true_eq] at h
  obtain ⟨-, -, -, -, -, hshare, rfl⟩ := h
  refine ⟨rfl, ?_⟩
  have hbase := sub_nonneg.mpr hshare
  have htax : 0 ≤ (if 0 < resolveTaxRate settings line.product explicitRate then
      money (dec ((if 0 < resolveTaxRate settings line.product explicitRate ∧
          priceIncludesTax settings line.product = true then
        money (dec (money (dec line.unitPrice * line.quantity - dec line.discountAmount)) /
          (1 + resolveTaxRate settings line.product explicitRate / 100))
      else money (dec line.unitPrice * line.quantity - dec line.discountAmount)) - share) *
        resolveTaxRate settings line.product explicitRate / 100) else 0) := by
    split
    · rename_i hrate
      refine money_nonneg ?_
      have hdec := dec_nonneg.mpr hbase
      positivity
    · exact le_rfl
  exact add_nonneg hbase htax

lemma length_proportionalShares (discount subtotal allocated : ℤ) (bases : List ℤ) :
    (proportionalShares discount subtotal allocated bases).length = bases.length := by
  induction bases generalizing allocated with
  | nil => rfl
  | cons base bases ih =>
    cases bases with
    | nil => rfl
    | cons base' bases =>
      have h := ih (allocated + money (dec discount * dec base / dec subtotal))
      unfold proportionalShares
      rw [List.length_cons, h, List.length_cons, List.length_cons, List.length_cons]

/-- Every line gets a share. -/
lemma length_allocateDiscount {bases shares : List ℤ} {discount : ℤ}
    (h : allocateDiscount bases discount = .ok shares) : shares.length = bases.length := by
  unfold allocateDiscount at h
  simp only [except_bind_eq_ok] at h
  obtain ⟨-, -, -, -, h⟩ := h
  split at h
  · cases h
    rw [List.length_map]
  · cases h
    exact length_proportionalShares _ _ _ _

/-- The computed lines belong to the given ones, and add up to the total before rounding. -/
lemma calculateSaleTotals_ok {settings : BusinessSettings} {items : List NormalizedLine}
    {invoiceDiscount : ℤ} {totals : SaleTotals}
    (h : calculateSaleTotals settings items invoiceDiscount = .ok totals) :
    (totals.lines.map fun e => e.2.total).sum = totals.total - totals.rounding ∧
      ∀ e ∈ totals.lines, e.1 ∈ items ∧ e.2.quantity = e.1.quantity ∧ 0 ≤ e.2.total := by
  unfold calculateSaleTotals at h
  simp only [except_bind_eq_ok, mapM_eq_ok, pure, Except.pure, Except.ok.injEq] at h
  obtain ⟨firstPass, hfirst, shares, hshares, computed, hcomputed, rfl⟩ := h
  have hlen₁ : firstPass.length = items.length := hfirst.length_eq.symm
  have hlen₂ : shares.length = firstPass.length := by
    rw [length_allocateDiscount hshares, List.length_map]
  have hlen₃ : computed.length = items.length := by
    have := hcomputed.length_eq
    simp only [List.length_zip] at this
    omega
  constructor
  · dsimp only
    have hzip : (items.zip computed).map (fun e => e.2.total) = computed.map LineParts.total := by
      rw [← List.map_snd_zip hlen₃.le, List.map_map, List.map_snd_zip hlen₃.le]
      rfl
    rw [hzip]
    omega
  · intro e he
    obtain ⟨j, hj, rfl⟩ := List.mem_iff_getElem.mp he
    have hj' : j < items.length := by
      rw [List.length_zip] at hj
      omega
    have hrel := (List.forall₂_iff_get.mp hcomputed).2 j (by simp; omega) (by omega)
    simp only [List.get_eq_getElem, List.getElem_zip] at hrel ⊢
    obtain ⟨hquantity, hnonneg⟩ := computeLine_ok hrel
    exact ⟨List.getElem_mem _, hquantity, hnonneg⟩

end NexaPos
