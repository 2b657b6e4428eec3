import NexaPos.Properties.SaleTotals

/-!
# Prices that include tax

The base of a line is taken out of the gross amount by a division that is rounded, and the tax
is computed from that base and rounded again.  The two roundings give the gross amount back
exactly when some base in whole thousandths comes, with its tax, within half a thousandth of it.
-/

namespace NexaPos

open Rounding

/-! ## Rounding forth and back -/

/-- A whole number of thousandths that comes, with its tax, to the gross amount: at most half a
thousandth below it and less than half a thousandth above it. -/
def HasNetAmount (rate : ℚ) (gross : ℤ) : Prop :=
  ∃ net : ℤ, (gross : ℚ) - 1 / 2 ≤ net * (1 + rate / 100) ∧
    net * (1 + rate / 100) < (gross : ℚ) + 1 / 2

lemma money_eq_iff {x : ℚ} (hx : 0 ≤ x) {m : ℤ} :
    money x = m ↔ (m : ℚ) - 1 / 2 ≤ x * 1000 ∧ x * 1000 < (m : ℚ) + 1 / 2 := by
  have hscaled : (0 : ℚ) ≤ x * 10 ^ 3 := by positivity
  have hthousand : x * 10 ^ 3 = x * 1000 := by norm_num
  unfold money quantize
  rw [roundHalfAway_of_nonneg hscaled, round_eq, Int.floor_eq_iff, hthousand]
  constructor
  · rintro ⟨hle, hlt⟩
    constructor <;> linarith
  · rintro ⟨hle, hlt⟩
    constructor <;> linarith

/-- The base taken out of a gross amount, as a number of thousandths. -/
lemma money_net_eq_iff {rate : ℚ} (hrate : 0 < rate) {gross : ℤ} (hgross : 0 ≤ gross) {net : ℤ} :
    money (dec gross / (1 + rate / 100)) = net ↔
      ((net : ℚ) - 1 / 2) * (1 + rate / 100) ≤ gross ∧
        (gross : ℚ) < (net + 1 / 2) * (1 + rate / 100) := by
  have hfactor : 0 < 1 + rate / 100 := by positivity
  have hdec : 0 ≤ dec gross := dec_nonneg.mpr hgross
  have hscaled : dec gross / (1 + rate / 100) * 1000 = gross / (1 + rate / 100) := by
    unfold dec
    ring
  rw [money_eq_iff (by positivity), hscaled, le_div_iff₀ hfactor, div_lt_iff₀ hfactor]

/-- The tax on a base makes up the gross amount when the base comes, with its tax, close to
it. -/
lemma add_tax_eq_iff {rate : ℚ} (hrate : 0 < rate) {gross net : ℤ} (hnet : 0 ≤ net) :
    net + money (dec net * rate / 100) = gross ↔
      (gross : ℚ) - 1 / 2 ≤ net * (1 + rate / 100) ∧
        net * (1 + rate / 100) < (gross : ℚ) + 1 / 2 := by
  have hdec : 0 ≤ dec net := dec_nonneg.mpr hnet
  have hscaled : dec net * rate / 100 * 1000 = net * (rate / 100) := by
    unfold dec
    ring
  have hmove : net + money (dec net * rate / 100) = gross ↔
      money (dec net * rate / 100) = gross - net := by omega
  rw [hmove, money_eq_iff (by positivity), hscaled]
  push_cast
  constructor
  · rintro ⟨hle, hlt⟩
    constructor <;> linarith
  · rintro ⟨hle, hlt⟩
    constructor <;> linarith

/-- Taking the base out and putting the tax back loses nothing exactly when there is a net
amount. -/
lemma net_add_tax_eq_iff {rate : ℚ} (hrate : 0 < rate) {gross : ℤ} (hgross : 0 ≤ gross) :
    money (dec gross / (1 + rate / 100)) +
        money (dec (money (dec gross / (1 + rate / 100))) * rate / 100) = gross ↔
      HasNetAmount rate gross := by
  have hfactor : 0 < 1 + rate / 100 := by positivity
  have hdec : 0 ≤ dec gross := dec_nonneg.mpr hgross
  have hbase : 0 ≤ money (dec gross / (1 + rate / 100)) := money_nonneg (by positivity)
  rw [add_tax_eq_iff hrate hbase]
  constructor
  · intro h
    exact ⟨_, h⟩
  · rintro ⟨net, hle, hlt⟩
    -- Half a thousandth grossed up is more than half a thousandth, so the rounded base is `net`.
    have hrounded : money (dec gross / (1 + rate / 100)) = net := by
      rw [money_net_eq_iff hrate hgross]
      constructor <;> nlinarith
    rw [hrounded]
    exact ⟨hle, hlt⟩

/-! ## Lines -/

/-- The total of a line that carries no invoice discount. -/
lemma partsAt_total_eq_iff {settings : BusinessSettings} {line : NormalizedLine} {rate : ℚ}
    (hincluded : priceIncludesTax settings line.product = true)
    (hgross : 0 ≤ grossAfterItemDiscount line) :
    (partsAt settings line rate 0).total = grossAfterItemDiscount line ↔
      (0 < rate → HasNetAmount rate (grossAfterItemDiscount line)) := by
  simp only [partsAt, lineBase, taxOn, sub_zero]
  by_cases hrate : 0 < rate
  · simp only [hrate, hincluded, and_self, if_true, forall_const]
    exact net_add_tax_eq_iff hrate hgross
  · simp [hrate]

/-- Without an invoice discount every line's share of it is zero. -/
lemma allocateDiscount_zero {bases : List ℤ} (hbases : ∀ base ∈ bases, 0 ≤ base) :
    allocateDiscount bases 0 = .ok (bases.map fun _ => 0) := by
  unfold allocateDiscount
  have hsum : 0 ≤ bases.sum := List.sum_nonneg hbases
  simp [require, hsum, pure, Except.pure, bind, Except.bind]

/-- A cart of valid lines without an invoice discount is computed, every line without a
share. -/
lemma calculateSaleTotals_zero {settings : BusinessSettings} {items : List NormalizedLine}
    (hvalid : ValidLines items) :
    calculateSaleTotals settings items 0 =
      .ok (totalsWith settings items (items.map fun _ => 0) 0) := by
  have hnonneg : ∀ base ∈ lineBases settings items, 0 ≤ base := by
    intro base hbase
    obtain ⟨line, hline, rfl⟩ := List.mem_map.mp hbase
    exact lineBase_nonneg (hvalid line hline)
  apply calculateSaleTotals_eq_ok.mpr
  refine ⟨hvalid, _, ?_, ?_, rfl⟩
  · rw [allocateDiscount_zero hnonneg, lineBases, List.map_map]
    rfl
  · rw [List.forall₂_map_right_iff, List.forall₂_same]
    intro line hline
    exact ⟨le_rfl, lineBase_nonneg (hvalid line hline)⟩

lemma lines_zero (settings : BusinessSettings) (items : List NormalizedLine) :
    (totalsWith settings items (items.map fun _ => 0) 0).lines =
      items.map fun line => (line, partsAt settings line (firstRate settings line) 0) := by
  simp only [totalsWith]
  induction items with
  | nil => simp
  | cons line items ih =>
    rw [List.map_cons, List.zipWith_cons_cons, List.zip_cons_cons, ih, List.map_cons]

/-- A tax-inclusive line costs the customer its gross amount after the item discount exactly when
its tax rate is zero or that amount has a net amount; so do the lines of a cart. -/
theorem inclusive_total_iff (settings : BusinessSettings) :
    (∀ (line : NormalizedLine) (explicitRate : Option ℚ),
      priceIncludesTax settings line.product = true → 0 ≤ grossAfterItemDiscount line →
      ∃ parts, computeLine settings line explicitRate 0 = .ok parts ∧
        (parts.total = grossAfterItemDiscount line ↔
          (0 < resolveTaxRate settings line.product explicitRate →
            HasNetAmount (resolveTaxRate settings line.product explicitRate)
              (grossAfterItemDiscount line)))) ∧
    ∀ items : List NormalizedLine, (∀ line ∈ items, 0 ≤ grossAfterItemDiscount line) →
      ∃ totals, calculateSaleTotals settings items 0 = .ok totals ∧
        totals.lines.map Prod.fst = items ∧
        ∀ e ∈ totals.lines, priceIncludesTax settings e.1.product = true →
          (e.2.total = grossAfterItemDiscount e.1 ↔
            (0 < resolveTaxRate settings e.1.product none →
              HasNetAmount (resolveTaxRate settings e.1.product none)
                (grossAfterItemDiscount e.1))) := by
  constructor
  · intro line explicitRate hincluded hgross
    exact ⟨_, computeLine_eq_ok.mpr ⟨hgross, le_rfl, lineBase_nonneg hgross, rfl⟩,
      partsAt_total_eq_iff hincluded hgross⟩
  · intro items hvalid
    refine ⟨_, calculateSaleTotals_zero hvalid, ?_, ?_⟩
    · rw [lines_zero, List.map_map]
      exact List.map_id items
    · rw [lines_zero]
      intro e he hincluded
      obtain ⟨line, hline, rfl⟩ := List.mem_map.mp he
      exact partsAt_total_eq_iff hincluded (hvalid line hline)

/-- Five percent on prices that include it. -/
def inclusiveSettings : BusinessSettings :=
  { vatEnabled := true, vatPercentage := 5000, pricesIncludeTax := true }

/-- A shirt at 105.000 has the net amount 100.000. -/
theorem inclusive_total_shirt :
    ∃ parts, computeLine inclusiveSettings (onePiece { name := "Shirt" } 105000 (by omega)) none 0 =
      .ok parts ∧ parts.total = 105000 := by
  obtain ⟨parts, hparts, htotal⟩ := (inclusive_total_iff inclusiveSettings).1
    (onePiece { name := "Shirt" } 105000 (by omega)) none rfl (by decide +kernel)
  refine ⟨parts, hparts, ?_⟩
  have hgross : grossAfterItemDiscount (onePiece { name := "Shirt" } 105000 (by omega)) =
      105000 := by decide +kernel
  have hrate : resolveTaxRate inclusiveSettings { name := "Shirt" } none = 5 := by decide +kernel
  rw [hgross] at htotal
  refine htotal.mpr fun _ => ⟨100000, ?_⟩
  simp only [onePiece, hrate]
  norm_num

/-- A shirt at 4.000, tax included at five percent, is charged 4.001: its base is rounded up to
3.810, and the tax on it, 0.1905, up to 0.191. -/
theorem inclusive_total_overcharged :
    priceIncludesTax inclusiveSettings { name := "Shirt" } = true ∧
      grossAfterItemDiscount (onePiece { name := "Shirt" } 4000 (by omega)) = 4000 ∧
      ∃ totals, calculateSaleTotals inclusiveSettings
        [onePiece { name := "Shirt" } 4000 (by omega)] 0 = .ok totals ∧
          totals.lines.map (fun e => (e.2.base, e.2.tax, e.2.total)) = [(3810, 191, 4001)] := by
  refine ⟨rfl, by decide +kernel, _, calculateSaleTotals_zero ?_, ?_⟩
  · unfold ValidLines
    decide +kernel
  · rw [lines_zero]
    decide +kernel

end NexaPos
