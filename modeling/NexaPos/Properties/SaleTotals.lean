import NexaPos.Sales.Calculations

/-!
# What the totals of a sale add up to

`calculate_sale_totals` computes every line twice and accumulates the header from the lines.
The first part reads one line off `compute_line`: its base before the invoice discount, which is
the same in both passes, its tax and its total.  The second part is the identity between the
header and the lines.  The third part is the allocation of the invoice discount: every line but
the last is rounded on its own, so the last line carries the rounding of all the others, and the
computation succeeds exactly when that line can carry it.
-/

namespace NexaPos

open Rounding

/-! ## One line -/

/-- The line amount after the item discount. -/
def grossAfterItemDiscount (line : NormalizedLine) : ℤ :=
  money (dec line.unitPrice * line.quantity - dec line.discountAmount)

/-- The taxable base of a line before the invoice discount. -/
def lineBase (settings : BusinessSettings) (line : NormalizedLine) (rate : ℚ) : ℤ :=
  if 0 < rate ∧ priceIncludesTax settings line.product = true then
    money (dec (grossAfterItemDiscount line) / (1 + rate / 100))
  else
    grossAfterItemDiscount line

/-- The tax on a taxable base. -/
def taxOn (rate : ℚ) (base : ℤ) : ℤ :=
  if 0 < rate then money (dec base * rate / 100) else 0

lemma taxOn_nonneg {rate : ℚ} {base : ℤ} (hbase : 0 ≤ base) : 0 ≤ taxOn rate base := by
  unfold taxOn
  split
  · rename_i hrate
    have hdec := dec_nonneg.mpr hbase
    apply money_nonneg
    positivity
  · omega

lemma lineBase_nonneg {settings : BusinessSettings} {line : NormalizedLine} {rate : ℚ}
    (hgross : 0 ≤ grossAfterItemDiscount line) : 0 ≤ lineBase settings line rate := by
  unfold lineBase
  split
  · rename_i h
    have hrate := h.1
    have hdec := dec_nonneg.mpr hgross
    apply money_nonneg
    positivity
  · exact hgross

/-- The line `compute_line` returns. -/
def partsAt (settings : BusinessSettings) (line : NormalizedLine) (rate : ℚ) (share : ℤ) :
    LineParts where
  quantity := line.quantity
  unitPrice := line.unitPrice
  discountAmount := line.discountAmount
  invoiceDiscountShare := share
  taxRate := rate
  baseBeforeInvoiceDiscount := lineBase settings line rate
  base := lineBase settings line rate - share
  tax := taxOn rate (lineBase settings line rate - share)
  total := lineBase settings line rate - share + taxOn rate (lineBase settings line rate - share)

/-- A line is computed exactly when its item discount is within its amount and its share of the
invoice discount is within its base. -/
lemma computeLine_eq_ok {settings : BusinessSettings} {line : NormalizedLine}
    {explicitRate : Option ℚ} {share : ℤ} {parts : LineParts} :
    computeLine settings line explicitRate share = .ok parts ↔
      0 ≤ grossAfterItemDiscount line ∧ 0 ≤ share ∧
        share ≤ lineBase settings line (resolveTaxRate settings line.product explicitRate) ∧
        parts = partsAt settings line (resolveTaxRate settings line.product explicitRate)
          share := by
  unfold computeLine
  simp only [except_bind_eq_ok, require_eq_ok, pure, Except.pure, Except.ok.injEq,
    decide_eq_true_eq]
  constructor
  · rintro ⟨-, hgross, -, hshare, -, hle, rfl⟩
    exact ⟨hgross, hshare, hle, rfl⟩
  · rintro ⟨hgross, hshare, hle, rfl⟩
    exact ⟨(), hgross, (), hshare, (), hle, rfl⟩

/-- The second pass taxes a line at the rate of the first. -/
lemma resolveTaxRate_again (settings : BusinessSettings) (product : Product) :
    resolveTaxRate settings product (some (resolveTaxRate settings product none)) =
      resolveTaxRate settings product none := by
  cases hvat : settings.vatEnabled <;> simp [resolveTaxRate, hvat]

/-! ## The two passes -/

section Passes

variable {settings : BusinessSettings} {items : List NormalizedLine}

/-- The rate the first pass taxes a line at. -/
def firstRate (settings : BusinessSettings) (line : NormalizedLine) : ℚ :=
  resolveTaxRate settings line.product none

/-- The bases the invoice discount is allocated over. -/
def lineBases (settings : BusinessSettings) (items : List NormalizedLine) : List ℤ :=
  items.map fun line => lineBase settings line (firstRate settings line)

/-- A cart whose lines can be computed: no item discount exceeds its line. -/
def ValidLines (items : List NormalizedLine) : Prop :=
  ∀ line ∈ items, 0 ≤ grossAfterItemDiscount line

lemma firstPass_eq_ok {firstPass : List LineParts} :
    items.mapM (fun line => computeLine settings line none 0) = .ok firstPass ↔
      ValidLines items ∧
        firstPass = items.map fun line => partsAt settings line (firstRate settings line) 0 := by
  rw [mapM_eq_ok]
  induction items generalizing firstPass with
  | nil => simp [ValidLines]
  | cons line items ih =>
    rw [List.forall₂_cons_left_iff]
    constructor
    · rintro ⟨parts, rest, hparts, hrest, rfl⟩
      obtain ⟨hgross, -, -, rfl⟩ := computeLine_eq_ok.mp hparts
      obtain ⟨hvalid, rfl⟩ := ih.mp hrest
      exact ⟨List.forall_mem_cons.mpr ⟨hgross, hvalid⟩, rfl⟩
    · rintro ⟨hvalid, rfl⟩
      obtain ⟨hgross, hrest⟩ := List.forall_mem_cons.mp hvalid
      refine ⟨_, _, ?_, ih.mpr ⟨hrest, rfl⟩, List.map_cons⟩
      exact computeLine_eq_ok.mpr ⟨hgross, le_rfl, lineBase_nonneg hgross, rfl⟩

/-- A share that the line can carry. -/
def Carries (settings : BusinessSettings) (line : NormalizedLine) (share : ℤ) : Prop :=
  0 ≤ share ∧ share ≤ lineBase settings line (firstRate settings line)

/-- The second pass succeeds exactly when every line can carry its share. -/
lemma secondPass_eq_ok (hvalid : ValidLines items) {shares : List ℤ} {computed : List LineParts}
    (hlength : shares.length = items.length) :
    ((items.zip (items.map fun line => partsAt settings line (firstRate settings line) 0)).zip
        shares).mapM (fun ((line, initial), share) =>
          computeLine settings line (some initial.taxRate) share) = .ok computed ↔
      List.Forall₂ (Carries settings) items shares ∧
        computed = List.zipWith (fun line share =>
          partsAt settings line (firstRate settings line) share) items shares := by
  rw [mapM_eq_ok]
  induction items generalizing shares computed with
  | nil =>
    rw [List.length_nil, List.length_eq_zero_iff] at hlength
    simp [hlength]
  | cons line items ih =>
    obtain ⟨share, shares, rfl⟩ := List.exists_cons_of_length_eq_add_one hlength
    rw [List.length_cons, List.length_cons, Nat.add_right_cancel_iff] at hlength
    obtain ⟨hgross, hrest⟩ := List.forall_mem_cons.mp hvalid
    have hrate : resolveTaxRate settings line.product
        (some (partsAt settings line (firstRate settings line) 0).taxRate) =
          firstRate settings line := resolveTaxRate_again settings line.product
    rw [List.map_cons, List.zip_cons_cons, List.zip_cons_cons, List.forall₂_cons_left_iff,
      List.forall₂_cons, List.zipWith_cons_cons]
    constructor
    · rintro ⟨parts, rest, hparts, hcomputed, rfl⟩
      obtain ⟨-, hshare, hle, rfl⟩ := computeLine_eq_ok.mp hparts
      obtain ⟨hcarries, rfl⟩ := (ih hrest hlength).mp hcomputed
      rw [hrate] at hle ⊢
      exact ⟨⟨⟨hshare, hle⟩, hcarries⟩, rfl⟩
    · rintro ⟨⟨⟨hshare, hle⟩, hcarries⟩, rfl⟩
      refine ⟨_, _, ?_, (ih hrest hlength).mpr ⟨hcarries, rfl⟩, rfl⟩
      rw [← hrate] at hle
      rw [computeLine_eq_ok, hrate] at *
      exact ⟨hgross, hshare, hle, rfl⟩

end Passes

/-! ## The allocation -/

/-- The exact proportional share of a line, before it is rounded. -/
def exactShare (discount subtotal base : ℤ) : ℚ := dec discount * dec base / dec subtotal

/-- Every line but the last gets its rounded share; the last one gets what is left. -/
lemma proportionalShares_concat (discount subtotal allocated : ℤ) (bases : List ℤ) (last : ℤ) :
    proportionalShares discount subtotal allocated (bases ++ [last]) =
      bases.map (fun base => money (exactShare discount subtotal base)) ++
        [discount - allocated -
          (bases.map fun base => money (exactShare discount subtotal base)).sum] := by
  induction bases generalizing allocated with
  | nil => simp [proportionalShares]
  | cons base bases ih =>
    have hcons : proportionalShares discount subtotal allocated (base :: bases ++ [last]) =
        money (exactShare discount subtotal base) ::
          proportionalShares discount subtotal
            (allocated + money (exactShare discount subtotal base)) (bases ++ [last]) := by
      cases bases <;> rfl
    rw [hcons, ih, List.map_cons, List.sum_cons, List.cons_append]
    simp only [sub_sub, add_assoc]

lemma allocateDiscount_eq_ok {bases shares : List ℤ} {discount : ℤ} :
    allocateDiscount bases discount = .ok shares ↔
      0 ≤ discount ∧ discount ≤ bases.sum ∧
        shares = if discount = 0 ∨ bases.sum = 0 then bases.map fun _ => 0
          else proportionalShares discount bases.sum 0 bases := by
  unfold allocateDiscount
  simp only [except_bind_eq_ok, require_eq_ok, decide_eq_true_eq]
  constructor
  · rintro ⟨-, hnonneg, -, hle, h⟩
    refine ⟨hnonneg, hle, ?_⟩
    split at h <;> rename_i hzero <;> cases h
    · rw [if_pos hzero]
    · rw [if_neg hzero]
  · rintro ⟨hnonneg, hle, rfl⟩
    refine ⟨(), hnonneg, (), hle, ?_⟩
    split <;> rfl

/-- The shares add up to the discount. -/
lemma sum_allocateDiscount {bases shares : List ℤ} {discount : ℤ}
    (h : allocateDiscount bases discount = .ok shares) : shares.sum = discount := by
  obtain ⟨hnonneg, hle, rfl⟩ := allocateDiscount_eq_ok.mp h
  split
  · rename_i hzero
    have hdiscount : discount = 0 := by omega
    simp [hdiscount]
  · rename_i hpositive
    rcases List.eq_nil_or_concat' bases with rfl | ⟨rest, last, rfl⟩
    · simp at hpositive
    · rw [proportionalShares_concat]
      simp

/-! ## The header and the lines -/

/-- The totals of lines that carry the given shares. -/
def totalsWith (settings : BusinessSettings) (items : List NormalizedLine) (shares : List ℤ)
    (invoiceDiscount : ℤ) : SaleTotals :=
  let computed := List.zipWith (fun line share =>
    partsAt settings line (firstRate settings line) share) items shares
  let rawTotal := (computed.map LineParts.total).sum
  { lines := items.zip computed
    subtotal := (lineBases settings items).sum
    lineDiscounts := (items.map NormalizedLine.discountAmount).sum
    invoiceDiscount := invoiceDiscount
    discountTotal := (items.map NormalizedLine.discountAmount).sum + invoiceDiscount
    taxTotal := (computed.map LineParts.tax).sum
    rawTotal := rawTotal
    total := displayTotal settings rawTotal
    rounding := displayTotal settings rawTotal - rawTotal }

/-- The totals are computed exactly when the lines are valid, the discount can be allocated and
every line can carry its share. -/
lemma calculateSaleTotals_eq_ok {settings : BusinessSettings} {items : List NormalizedLine}
    {invoiceDiscount : ℤ} {totals : SaleTotals} :
    calculateSaleTotals settings items invoiceDiscount = .ok totals ↔
      ValidLines items ∧ ∃ shares,
        allocateDiscount (lineBases settings items) invoiceDiscount = .ok shares ∧
          List.Forall₂ (Carries settings) items shares ∧
            totals = totalsWith settings items shares invoiceDiscount := by
  have hbases (items : List NormalizedLine) :
      (items.map fun line => partsAt settings line (firstRate settings line) 0).map
        LineParts.baseBeforeInvoiceDiscount = lineBases settings items := by
    rw [List.map_map]
    rfl
  have hdiscounts (items : List NormalizedLine) :
      (items.map fun line => partsAt settings line (firstRate settings line) 0).map
        LineParts.discountAmount = items.map NormalizedLine.discountAmount := by
    rw [List.map_map]
    rfl
  have hlength {shares : List ℤ}
      (h : allocateDiscount (lineBases settings items) invoiceDiscount = .ok shares) :
      shares.length = items.length := by
    rw [length_allocateDiscount h, lineBases, List.length_map]
  unfold calculateSaleTotals
  simp only [except_bind_eq_ok, firstPass_eq_ok, pure, Except.pure, Except.ok.injEq]
  constructor
  · rintro ⟨_, ⟨hvalid, rfl⟩, shares, hshares, computed, hcomputed, rfl⟩
    rw [hbases] at hshares ⊢
    obtain ⟨hcarries, rfl⟩ := (secondPass_eq_ok hvalid (hlength hshares)).mp hcomputed
    rw [hdiscounts]
    exact ⟨hvalid, shares, hshares, hcarries, rfl⟩
  · rintro ⟨hvalid, shares, hshares, hcarries, rfl⟩
    refine ⟨_, ⟨hvalid, rfl⟩, shares, ?_, _,
      (secondPass_eq_ok hvalid (hlength hshares)).mpr ⟨hcarries, rfl⟩, ?_⟩
    · rw [hbases]
      exact hshares
    · rw [hbases, hdiscounts]
      rfl

/-- The number of decimals that are displayed: `round_to_precision` clamps it to 0..3. -/
def displayPlaces (precision : ℤ) : ℕ := (max 0 (min precision 3)).toNat

/-- Rounding to a displayed precision moves a value by at most half of its last place. -/
lemma abs_roundToPrecision_sub (x : ℚ) (precision : ℤ) :
    |roundToPrecision x precision - x| ≤ 1 / 10 ^ displayPlaces precision / 2 := by
  have hround := abs_sub_roundHalfAway (x * 10 ^ displayPlaces precision)
  have hpow : (0 : ℚ) < 10 ^ displayPlaces precision := by positivity
  have hscaled : roundToPrecision x precision - x =
      -(x * 10 ^ displayPlaces precision -
        (roundHalfAway (x * 10 ^ displayPlaces precision) : ℚ)) / 10 ^ displayPlaces precision := by
    show (roundHalfAway (x * 10 ^ displayPlaces precision) : ℚ) / 10 ^ displayPlaces precision - x
      = _
    field_simp
    ring
  rw [hscaled, abs_div, abs_neg, abs_of_pos hpow, div_right_comm, one_div]
  gcongr
  rwa [← one_div]

/-- A displayed value has at most three decimals, so storing it changes nothing. -/
lemma dec_money_roundToPrecision (x : ℚ) (precision : ℤ) :
    dec (money (roundToPrecision x precision)) = roundToPrecision x precision := by
  have hplaces : displayPlaces precision ≤ 3 := by
    unfold displayPlaces
    omega
  have hstored : roundToPrecision x precision =
      dec (quantize (displayPlaces precision) x * 10 ^ (3 - displayPlaces precision)) := by
    show (quantize (displayPlaces precision) x : ℚ) / 10 ^ displayPlaces precision = _
    unfold dec
    push_cast
    rw [div_eq_div_iff (by positivity) (by norm_num), mul_assoc, ← pow_add,
      Nat.sub_add_cancel hplaces]
    norm_num
  rw [hstored, money_dec]

lemma displayTotal_nonneg {settings : BusinessSettings} {rawTotal : ℤ} (h : 0 ≤ rawTotal) :
    0 ≤ displayTotal settings rawTotal := by
  unfold displayTotal
  split
  · have hdec := dec_nonneg.mpr h
    have hround := roundHalfAway_nonneg
      (x := dec rawTotal * 10 ^ displayPlaces settings.currencyPrecision) (by positivity)
    apply money_nonneg
    show (0 : ℚ) ≤
      (roundHalfAway (dec rawTotal * 10 ^ displayPlaces settings.currencyPrecision) : ℚ) /
        10 ^ displayPlaces settings.currencyPrecision
    positivity
  · exact h

/-- Display rounding moves the grand total by at most half of the last displayed place. -/
lemma abs_displayTotal_sub (settings : BusinessSettings) (rawTotal : ℤ) :
    |dec (displayTotal settings rawTotal - rawTotal)| ≤
      1 / 10 ^ displayPlaces settings.currencyPrecision / 2 := by
  unfold displayTotal
  split
  · rw [dec_sub, dec_money_roundToPrecision]
    exact abs_roundToPrecision_sub _ _
  · rw [sub_self, dec_zero, abs_zero]
    positivity

section Identity

variable {settings : BusinessSettings} {items : List NormalizedLine} {shares : List ℤ}

/-- Over the lines, the bases less the shares plus the taxes are the totals. -/
lemma sum_total_zipWith (hlength : shares.length = items.length) :
    ((List.zipWith (fun line share => partsAt settings line (firstRate settings line) share)
        items shares).map LineParts.total).sum =
      (lineBases settings items).sum - shares.sum +
        ((List.zipWith (fun line share => partsAt settings line (firstRate settings line) share)
          items shares).map LineParts.tax).sum := by
  induction items generalizing shares with
  | nil =>
    rw [List.length_nil, List.length_eq_zero_iff] at hlength
    simp [hlength, lineBases]
  | cons line items ih =>
    obtain ⟨share, shares, rfl⟩ := List.exists_cons_of_length_eq_add_one hlength
    rw [List.length_cons, List.length_cons, Nat.add_right_cancel_iff] at hlength
    have hrest := ih hlength
    simp only [lineBases, List.zipWith_cons_cons, List.map_cons, List.sum_cons] at hrest ⊢
    rw [hrest]
    simp only [partsAt]
    ring

lemma map_snd_lines {invoiceDiscount : ℤ} (hlength : shares.length = items.length) :
    (totalsWith settings items shares invoiceDiscount).lines.map Prod.snd =
      List.zipWith (fun line share => partsAt settings line (firstRate settings line) share)
        items shares := by
  apply List.map_snd_zip
  rw [List.length_zipWith]
  omega

/-- Every line of the totals is a line of the cart, computed with a share it can carry. -/
lemma mem_lines {invoiceDiscount : ℤ} (hcarries : List.Forall₂ (Carries settings) items shares)
    {entry : NormalizedLine × LineParts}
    (hentry : entry ∈ (totalsWith settings items shares invoiceDiscount).lines) :
    ∃ share, entry.1 ∈ items ∧ Carries settings entry.1 share ∧
      entry.2 = partsAt settings entry.1 (firstRate settings entry.1) share := by
  simp only [totalsWith] at hentry
  induction hcarries with
  | nil => simp at hentry
  | cons hcarry hrest ih =>
    rw [List.zipWith_cons_cons, List.zip_cons_cons, List.mem_cons] at hentry
    rcases hentry with rfl | hentry
    · exact ⟨_, List.mem_cons_self, hcarry, rfl⟩
    · obtain ⟨share, hmem, hcarry', hparts⟩ := ih hentry
      exact ⟨share, List.mem_cons_of_mem _ hmem, hcarry', hparts⟩

end Identity

/-- The header adds up to its lines: the subtotal less the invoice discount plus the tax is what
the lines come to, the grand total is that plus the reported rounding, the rounding is at most
half of the last displayed place, and no base, tax or total is negative. -/
theorem totals_add_up (settings : BusinessSettings) (items : List NormalizedLine)
    (invoiceDiscount : ℤ) (currencyPrecision : Option ℤ) (totals : SaleTotals)
    (h : calculateSaleTotalsAt settings items invoiceDiscount currencyPrecision = .ok totals) :
    totals.invoiceDiscount = invoiceDiscount ∧
      totals.subtotal - totals.invoiceDiscount + totals.taxTotal =
        (totals.lines.map fun e => e.2.total).sum ∧
      totals.total = (totals.lines.map fun e => e.2.total).sum + totals.rounding ∧
      |dec totals.rounding| ≤
        1 / 10 ^ displayPlaces (currencyPrecision.getD settings.currencyPrecision) / 2 ∧
      totals.lines.map Prod.fst = items ∧
      (∀ e ∈ totals.lines, 0 ≤ e.2.baseBeforeInvoiceDiscount ∧ 0 ≤ e.2.base ∧ 0 ≤ e.2.tax ∧
        0 ≤ e.2.total) ∧
      0 ≤ totals.total := by
  obtain ⟨-, shares, hshares, hcarries, rfl⟩ := calculateSaleTotals_eq_ok.mp h
  have hlength := hcarries.length_eq.symm
  have hsum := sum_allocateDiscount hshares
  have htotals (entries : List (NormalizedLine × LineParts)) :
      entries.map (fun e => e.2.total) = (entries.map Prod.snd).map LineParts.total := by
    rw [List.map_map]
    rfl
  have hlines : ∀ e ∈ (totalsWith { settings with
      currencyPrecision := currencyPrecision.getD settings.currencyPrecision } items shares
        invoiceDiscount).lines,
      0 ≤ e.2.baseBeforeInvoiceDiscount ∧ 0 ≤ e.2.base ∧ 0 ≤ e.2.tax ∧ 0 ≤ e.2.total := by
    intro e he
    obtain ⟨share, -, ⟨hshare, hle⟩, hparts⟩ := mem_lines hcarries he
    have hbase := sub_nonneg.mpr hle
    rw [hparts]
    exact ⟨hshare.trans hle, hbase, taxOn_nonneg hbase, add_nonneg hbase (taxOn_nonneg hbase)⟩
  rw [htotals, map_snd_lines hlength]
  refine ⟨rfl, ?_, ?_, abs_displayTotal_sub _ _, ?_, hlines, ?_⟩
  · rw [sum_total_zipWith hlength, hsum]
    rfl
  · simp only [totalsWith]
    ring
  · apply List.map_fst_zip
    rw [List.length_zipWith]
    omega
  · apply displayTotal_nonneg
    rw [← map_snd_lines hlength, ← htotals]
    refine List.sum_nonneg fun x hx => ?_
    obtain ⟨e, he, rfl⟩ := List.mem_map.mp hx
    exact (hlines e he).2.2.2

/-- A line of one piece of a product at the given price, without an item discount. -/
def onePiece (product : Product) (unitPrice : ℤ) (h : 0 ≤ unitPrice) : NormalizedLine where
  productId := 0
  product := product
  variantId := none
  variant := none
  quantity := 1
  unitPrice := unitPrice
  discountAmount := 0
  garmentClassification := none
  collectionType := none
  estimatedFabric := none
  fabricMeterUsed := none
  customerSuppliedFabric := false
  tailoringDetails := []
  familyMember := none
  quantity_pos := one_pos
  unitPrice_nonneg := h
  meter_pos := by simp
  customerFabric_noMeter := by simp

/-- One line priced with tax and one without, at five percent, shown without decimals. -/
def mixedSettings : BusinessSettings :=
  { vatEnabled := true, vatPercentage := 5000, pricesIncludeTax := true, currencyPrecision := 2 }

def mixedCart : List NormalizedLine :=
  [onePiece { name := "Thobe" } 10500 (by omega),
    onePiece { name := "Cuff links", priceIncludesTax := some false } 3333 (by omega)]

lemma mixedCart_totals : calculateSaleTotalsAt mixedSettings mixedCart 1000 (some 0) =
    .ok (totalsWith { mixedSettings with currencyPrecision := 0 } mixedCart [750, 250] 1000) := by
  apply calculateSaleTotals_eq_ok.mpr
  have hshares : allocateDiscount
      (lineBases { mixedSettings with currencyPrecision := 0 } mixedCart) 1000 =
        .ok [750, 250] := by
    decide +kernel
  refine ⟨?_, _, hshares, ?_, rfl⟩
  · unfold ValidLines
    decide +kernel
  · unfold mixedCart
    simp only [List.forall₂_cons, List.Forall₂.nil, and_true, Carries]
    decide +kernel

theorem mixedCart_adds_up :
    calculateSaleTotalsAt mixedSettings mixedCart 1000 (some 0) =
        .ok (totalsWith { mixedSettings with currencyPrecision := 0 } mixedCart [750, 250] 1000) ∧
      0 ≤ (totalsWith { mixedSettings with currencyPrecision := 0 } mixedCart [750, 250]
        1000).total := by
  obtain ⟨-, -, -, -, -, -, htotal⟩ :=
    totals_add_up mixedSettings mixedCart 1000 (some 0) _ mixedCart_totals
  exact ⟨mixedCart_totals, htotal⟩

/-! ## When the last line can carry the rounding of the others -/

/-- What rounding the proportional shares of all lines but the last adds to them. -/
def roundingDrift (discount : ℤ) (bases : List ℤ) : ℚ :=
  (bases.dropLast.map fun base =>
    dec (money (exactShare discount bases.sum base)) - exactShare discount bases.sum base).sum

/-- The rounding of the other lines takes from the last line no more than its exact share, and
gives it no more than that share leaves of its base. -/
def DriftFits (discount : ℤ) (bases : List ℤ) : Prop :=
  roundingDrift discount bases ≤ exactShare discount bases.sum (bases.getLastD 0) ∧
    -roundingDrift discount bases ≤
      dec (bases.getLastD 0) - exactShare discount bases.sum (bases.getLastD 0)

instance decidableDriftFits (discount : ℤ) (bases : List ℤ) :
    Decidable (DriftFits discount bases) :=
  inferInstanceAs (Decidable (_ ∧ _))

/-- The totals are computed, the shares add up to the discount, and each lies between zero and
the base of its own line. -/
def AllocatesDiscount (settings : BusinessSettings) (items : List NormalizedLine)
    (discount : ℤ) : Prop :=
  ∃ totals, calculateSaleTotals settings items discount = .ok totals ∧
    totals.lines.map Prod.fst = items ∧
    (totals.lines.map fun e => e.2.invoiceDiscountShare).sum = discount ∧
    ∀ e ∈ totals.lines, 0 ≤ e.2.invoiceDiscountShare ∧
      e.2.invoiceDiscountShare ≤ e.2.baseBeforeInvoiceDiscount

/-- The exact shares add up to the part of the discount that falls on their bases. -/
lemma sum_exactShare (discount subtotal : ℤ) (bases : List ℤ) :
    (bases.map (exactShare discount subtotal)).sum = exactShare discount subtotal bases.sum := by
  induction bases with
  | nil => simp [exactShare]
  | cons base bases ih =>
    rw [List.map_cons, List.sum_cons, ih, List.sum_cons]
    simp only [exactShare, dec_add]
    ring

lemma exactShare_self {discount subtotal : ℤ} (h : subtotal ≠ 0) :
    exactShare discount subtotal subtotal = dec discount := by
  have hdec : dec subtotal ≠ 0 := fun h0 => h (dec_injective (h0.trans dec_zero.symm))
  unfold exactShare
  field_simp

lemma exactShare_nonneg {discount subtotal base : ℤ} (hdiscount : 0 ≤ discount)
    (hsubtotal : 0 ≤ subtotal) (hbase : 0 ≤ base) : 0 ≤ exactShare discount subtotal base := by
  have h₁ := dec_nonneg.mpr hdiscount
  have h₂ := dec_nonneg.mpr hsubtotal
  have h₃ := dec_nonneg.mpr hbase
  unfold exactShare
  positivity

/-- A share of a discount within the subtotal is within its base. -/
lemma exactShare_le {discount subtotal base : ℤ} (hsubtotal : 0 < subtotal)
    (hle : discount ≤ subtotal) (hbase : 0 ≤ base) :
    exactShare discount subtotal base ≤ dec base := by
  have hpos := dec_pos.mpr hsubtotal
  have hdec := dec_le_dec.mpr hle
  have hbase' := dec_nonneg.mpr hbase
  unfold exactShare
  rw [div_le_iff₀ hpos, mul_comm (dec base)]
  gcongr

/-- What is left for the last line is its exact share less the drift. -/
lemma dec_lastShare {discount last : ℤ} {bases : List ℤ} (h : (bases ++ [last]).sum ≠ 0) :
    dec (discount - (bases.map fun base =>
        money (exactShare discount (bases ++ [last]).sum base)).sum) =
      exactShare discount (bases ++ [last]).sum last -
        roundingDrift discount (bases ++ [last]) := by
  have hsplit : roundingDrift discount (bases ++ [last]) =
      dec (bases.map fun base => money (exactShare discount (bases ++ [last]).sum base)).sum -
        exactShare discount (bases ++ [last]).sum bases.sum := by
    rw [roundingDrift, List.dropLast_concat, sum_map_sub, sum_exactShare, dec_sum_map]
  have hwhole : exactShare discount (bases ++ [last]).sum bases.sum +
      exactShare discount (bases ++ [last]).sum last = dec discount := by
    rw [← exactShare_self h]
    simp only [exactShare, List.sum_append, List.sum_singleton, dec_add]
    ring
  rw [hsplit, dec_sub, ← hwhole]
  ring

/-- The drift fits exactly when what is left for the last line is between zero and its base. -/
lemma driftFits_concat {discount last : ℤ} {bases : List ℤ} (h : (bases ++ [last]).sum ≠ 0) :
    DriftFits discount (bases ++ [last]) ↔
      0 ≤ discount - (bases.map fun base =>
          money (exactShare discount (bases ++ [last]).sum base)).sum ∧
        discount - (bases.map fun base =>
          money (exactShare discount (bases ++ [last]).sum base)).sum ≤ last := by
  have hlast := @dec_lastShare discount last bases h
  have hgetLast : (bases ++ [last]).getLastD 0 = last := by simp
  rw [DriftFits, hgetLast, ← dec_nonneg, ← dec_le_dec (b := last), hlast]
  constructor
  · rintro ⟨h₁, h₂⟩
    constructor <;> linarith
  · rintro ⟨h₁, h₂⟩
    constructor <;> linarith

lemma forall₂_concat {α β : Type*} {r : α → β → Prop} {xs : List α} {ys : List β} {x : α}
    {y : β} : List.Forall₂ r (xs ++ [x]) (ys ++ [y]) ↔ List.Forall₂ r xs ys ∧ r x y := by
  rw [← List.forall₂_reverse_iff, List.reverse_concat, List.reverse_concat, List.forall₂_cons,
    List.forall₂_reverse_iff, and_comm]

/-- The allocated shares are within their bases exactly when the drift fits the last line. -/
lemma shares_within_iff {bases shares : List ℤ} {discount : ℤ} (hne : bases ≠ [])
    (hbases : ∀ base ∈ bases, 0 ≤ base) (h : allocateDiscount bases discount = .ok shares) :
    List.Forall₂ (fun base share => 0 ≤ share ∧ share ≤ base) bases shares ↔
      DriftFits discount bases := by
  obtain ⟨hnonneg, hle, rfl⟩ := allocateDiscount_eq_ok.mp h
  obtain ⟨rest, last, rfl⟩ := (List.eq_nil_or_concat' bases).resolve_left hne
  have hlast : 0 ≤ last := hbases last (by simp)
  split
  · rename_i hzero
    obtain rfl : discount = 0 := by omega
    have hdrift : roundingDrift 0 (rest ++ [last]) = 0 := by
      simp [roundingDrift, exactShare]
    have hfits : DriftFits 0 (rest ++ [last]) := by
      have hgetLast : (rest ++ [last]).getLastD 0 = last := by simp
      have hdec := dec_nonneg.mpr hlast
      rw [DriftFits, hdrift, hgetLast]
      simpa [exactShare] using hdec
    refine iff_of_true ?_ hfits
    rw [List.forall₂_map_right_iff, List.forall₂_same]
    exact fun base hbase => ⟨le_rfl, hbases base hbase⟩
  · rename_i hpositive
    have hsum : (rest ++ [last]).sum ≠ 0 := fun h0 => hpositive (.inr h0)
    have hsum_pos : 0 < (rest ++ [last]).sum := by omega
    rw [proportionalShares_concat, forall₂_concat, driftFits_concat hsum, sub_zero,
      and_iff_right]
    rw [List.forall₂_map_right_iff, List.forall₂_same]
    intro base hbase
    have hbase' : 0 ≤ base := hbases base (List.mem_append_left _ hbase)
    exact ⟨money_nonneg (exactShare_nonneg hnonneg hsum_pos.le hbase'),
      money_le_of_le_dec (exactShare_le hsum_pos hle hbase')⟩

lemma lineBases_nonneg {settings : BusinessSettings} {items : List NormalizedLine}
    (hvalid : ValidLines items) : ∀ base ∈ lineBases settings items, 0 ≤ base := by
  intro base hbase
  obtain ⟨line, hline, rfl⟩ := List.mem_map.mp hbase
  exact lineBase_nonneg (hvalid line hline)

/-- The shares of computed totals are the allocated ones. -/
lemma sum_invoiceDiscountShare {settings : BusinessSettings} {items : List NormalizedLine}
    {shares : List ℤ} {invoiceDiscount : ℤ} (hlength : shares.length = items.length) :
    ((totalsWith settings items shares invoiceDiscount).lines.map
      fun e => e.2.invoiceDiscountShare).sum = shares.sum := by
  have hsnd : (totalsWith settings items shares invoiceDiscount).lines.map
      (fun e => e.2.invoiceDiscountShare) =
        ((totalsWith settings items shares invoiceDiscount).lines.map Prod.snd).map
          LineParts.invoiceDiscountShare := by
    rw [List.map_map]
    rfl
  rw [hsnd, map_snd_lines hlength]
  clear hsnd
  induction items generalizing shares with
  | nil =>
    rw [List.length_nil, List.length_eq_zero_iff] at hlength
    rw [hlength]
    rfl
  | cons line items ih =>
    obtain ⟨share, shares, rfl⟩ := List.exists_cons_of_length_eq_add_one hlength
    rw [List.length_cons, List.length_cons, Nat.add_right_cancel_iff] at hlength
    rw [List.zipWith_cons_cons, List.map_cons, List.sum_cons, ih hlength, List.sum_cons]
    rfl

/-- For valid lines and a discount within their bases, the allocation comes out right exactly
when the rounding of the other lines fits into the last one. -/
theorem allocatesDiscount_iff (settings : BusinessSettings) (items : List NormalizedLine)
    (firstPass : List LineParts) (discount : ℤ) (hne : items ≠ [])
    (hvalid : items.mapM (fun line => computeLine settings line none 0) = .ok firstPass)
    (hnonneg : 0 ≤ discount)
    (hle : discount ≤ (firstPass.map LineParts.baseBeforeInvoiceDiscount).sum) :
    AllocatesDiscount settings items discount ↔
      DriftFits discount (firstPass.map LineParts.baseBeforeInvoiceDiscount) := by
  obtain ⟨hlines, rfl⟩ := firstPass_eq_ok.mp hvalid
  have hbases : (items.map fun line => partsAt settings line (firstRate settings line) 0).map
      LineParts.baseBeforeInvoiceDiscount = lineBases settings items := by
    rw [List.map_map]
    rfl
  rw [hbases] at hle ⊢
  have hshares := allocateDiscount_eq_ok.mpr ⟨hnonneg, hle, rfl⟩
  have hcarry {shares : List ℤ} : List.Forall₂ (Carries settings) items shares ↔
      List.Forall₂ (fun base share => 0 ≤ share ∧ share ≤ base) (lineBases settings items)
        shares := by
    rw [lineBases, List.forall₂_map_left_iff]
    rfl
  have hne' : lineBases settings items ≠ [] := by
    simpa [lineBases] using hne
  rw [← shares_within_iff hne' (lineBases_nonneg hlines) hshares, ← hcarry]
  constructor
  · rintro ⟨totals, htotals, -⟩
    obtain ⟨-, shares, hshares', hcarries, -⟩ := calculateSaleTotals_eq_ok.mp htotals
    obtain ⟨-, -, rfl⟩ := allocateDiscount_eq_ok.mp hshares'
    exact hcarries
  · intro hcarries
    refine ⟨_, calculateSaleTotals_eq_ok.mpr ⟨hlines, _, hshares, hcarries, rfl⟩, ?_, ?_, ?_⟩
    · apply List.map_fst_zip
      rw [List.length_zipWith, ← hcarries.length_eq]
      omega
    · rw [sum_invoiceDiscountShare hcarries.length_eq.symm]
      exact sum_allocateDiscount hshares
    · intro e he
      obtain ⟨share, -, hshare, hparts⟩ := mem_lines hcarries he
      rw [hparts]
      exact hshare

theorem mixedCart_allocated : AllocatesDiscount mixedSettings mixedCart 1000 := by
  have hfirst := firstPass_eq_ok.mpr
    (And.intro (show ValidLines mixedCart by unfold ValidLines; decide +kernel) (Eq.refl
      (mixedCart.map fun line => partsAt mixedSettings line (firstRate mixedSettings line) 0)))
  exact (allocatesDiscount_iff mixedSettings mixedCart _ 1000 (by simp [mixedCart]) hfirst
    (by omega) (by decide +kernel)).mpr (by decide +kernel)

/-- Three pieces at 1.000 and a free one entered last. -/
def giftCart : List NormalizedLine :=
  [onePiece { name := "Thobe" } 1000 (by omega), onePiece { name := "Thobe" } 1000 (by omega),
    onePiece { name := "Thobe" } 1000 (by omega), onePiece { name := "Gift" } 0 (by omega)]

/-- A discount of 1.000 gives 0.333 to each priced piece and leaves 0.001 for the free one, which
has no base to carry it: the sale is refused. -/
theorem giftCart_refused : giftCart ≠ [] ∧
    (∃ firstPass, giftCart.mapM (fun line => computeLine {} line none 0) = .ok firstPass ∧
      (0 : ℤ) ≤ 1000 ∧ 1000 ≤ (firstPass.map LineParts.baseBeforeInvoiceDiscount).sum) ∧
    ¬ AllocatesDiscount {} giftCart 1000 := by
  have hfails : (calculateSaleTotals {} giftCart 1000).isOk = false := by decide +kernel
  have hvalid : ValidLines giftCart := by
    unfold ValidLines
    decide +kernel
  refine ⟨by simp [giftCart], ⟨_, firstPass_eq_ok.mpr ⟨hvalid, rfl⟩, by omega, by decide +kernel⟩,
    ?_⟩
  rintro ⟨totals, htotals, -⟩
  rw [htotals] at hfails
  cases hfails

end NexaPos
