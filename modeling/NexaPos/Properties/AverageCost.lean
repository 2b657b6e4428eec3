import NexaPos.System

/-!
# The moving-average cost

One movement of the ledger and the average cost it leaves behind.  The weighted mean of the
existing stock and of what comes in is rounded once, so the average stays between the two costs
and the value of the stock misses the value that came in by at most half a thousandth for each
unit.  Stock below zero counts as none: the goods that come in then set the average alone, and
the value is not carried over.
-/

namespace NexaPos

open Tx

/-! ## The rounded mean -/

/-- The exact mean of the stock at hand and of what comes in. -/
def weightedMean (existing oldCost inQty : ℤ) (inCost : ℚ) : ℚ :=
  (dec existing * dec oldCost + dec inQty * inCost) / dec (existing + inQty)

/-- Stock at hand is averaged with what comes in. -/
lemma newAverageCost_of_nonneg {existing inQty : ℤ} (hexisting : 0 ≤ existing)
    (hin : 0 < inQty) (oldCost : ℤ) (inCost : ℚ) :
    newAverageCost (existing + inQty) oldCost inQty inCost =
      weightedMean existing oldCost inQty inCost := by
  have hdenom : ¬ existing + inQty ≤ 0 := by omega
  unfold newAverageCost weightedMean
  rw [add_sub_cancel_right, max_eq_right hexisting, if_neg hdenom]

/-- Stock below zero leaves the cost to what comes in. -/
lemma newAverageCost_of_neg {existing inQty : ℤ} (hexisting : existing < 0) (hin : 0 < inQty)
    (oldCost : ℤ) (inCost : ℚ) :
    newAverageCost (existing + inQty) oldCost inQty inCost = inCost := by
  have hdenom : ¬ inQty ≤ 0 := by omega
  have hpos : dec inQty ≠ 0 := (dec_pos.mpr hin).ne'
  unfold newAverageCost
  rw [add_sub_cancel_right, max_eq_left hexisting.le]
  simp only [zero_add, if_neg hdenom, dec_zero, zero_mul]
  exact mul_div_cancel_left₀ inCost hpos

section Mean

variable {existing inQty : ℤ} (hexisting : 0 ≤ existing) (hin : 0 < inQty) (oldCost : ℤ)
  (inCost : ℚ)

include hexisting hin

lemma min_le_weightedMean :
    min (dec oldCost) inCost ≤ weightedMean existing oldCost inQty inCost := by
  have hat : 0 ≤ dec existing := dec_nonneg.mpr hexisting
  have hcome : 0 < dec inQty := dec_pos.mpr hin
  have hdenom : 0 < dec existing + dec inQty := by linarith
  unfold weightedMean
  rw [dec_add, le_div_iff₀ hdenom, mul_add]
  have hold := mul_le_mul_of_nonneg_right (min_le_left (dec oldCost) inCost) hat
  have hnew := mul_le_mul_of_nonneg_right (min_le_right (dec oldCost) inCost) hcome.le
  linarith

lemma weightedMean_le_max :
    weightedMean existing oldCost inQty inCost ≤ max (dec oldCost) inCost := by
  have hat : 0 ≤ dec existing := dec_nonneg.mpr hexisting
  have hcome : 0 < dec inQty := dec_pos.mpr hin
  have hdenom : 0 < dec existing + dec inQty := by linarith
  unfold weightedMean
  rw [dec_add, div_le_iff₀ hdenom, mul_add]
  have hold := mul_le_mul_of_nonneg_right (le_max_left (dec oldCost) inCost) hat
  have hnew := mul_le_mul_of_nonneg_right (le_max_right (dec oldCost) inCost) hcome.le
  linarith

/-- Rounding keeps the mean between the old cost and the cost of what comes in, as it is
recorded. -/
lemma money_weightedMean_mem :
    min oldCost (money inCost) ≤ money (weightedMean existing oldCost inQty inCost) ∧
      money (weightedMean existing oldCost inQty inCost) ≤ max oldCost (money inCost) := by
  have hmono : Monotone money := fun _ _ h => money_mono h
  constructor
  · have h := hmono (min_le_weightedMean hexisting hin oldCost inCost)
    rwa [hmono.map_min, money_dec] at h
  · have h := hmono (weightedMean_le_max hexisting hin oldCost inCost)
    rwa [hmono.map_max, money_dec] at h

/-- The mean is what distributes the whole value over the whole quantity. -/
lemma dec_mul_weightedMean :
    dec (existing + inQty) * weightedMean existing oldCost inQty inCost =
      dec existing * dec oldCost + dec inQty * inCost := by
  have hdenom : dec (existing + inQty) ≠ 0 := (dec_pos.mpr (by omega)).ne'
  unfold weightedMean
  exact mul_div_cancel₀ _ hdenom

end Mean

/-- Rounding to the last place of a cost moves it by at most half of that place. -/
lemma abs_dec_money_sub_le (x : ℚ) : |dec (money x) - x| ≤ 1 / 2000 := by
  have hupper := money_le_add_half x
  have hlower := sub_half_le_money x
  unfold dec
  rw [abs_le]
  constructor <;> linarith

/-! ## The catalogue -/

/-- Two keys with one cost cache: the same variant, or the same product without a variant. -/
def StockKey.SameTarget (k l : StockKey) : Prop :=
  k.variant = l.variant ∧ (k.variant = none → k.product = l.product)

/-- The row whose cost is averaged is there. -/
def Catalog.HasTarget (c : Catalog) (k : StockKey) : Prop :=
  match k.variant with
  | some v => (c.variants[v]?).isSome = true
  | none => (c.products[k.product]?).isSome = true

lemma averageCost_setAverageCost {c : Catalog} {k : StockKey} (h : c.HasTarget k) (cost : ℤ) :
    (c.setAverageCost k cost).averageCost k = cost := by
  unfold Catalog.HasTarget at h
  unfold Catalog.setAverageCost Catalog.averageCost
  cases hvariant : k.variant with
  | none =>
    simp only [hvariant] at h ⊢
    obtain ⟨product, hproduct⟩ := Option.isSome_iff_exists.mp h
    simp [hproduct]
  | some v =>
    simp only [hvariant] at h ⊢
    obtain ⟨variant, hrow⟩ := Option.isSome_iff_exists.mp h
    simp [hrow]

lemma averageCost_setAverageCost_of_ne {c : Catalog} {k l : StockKey} (h : ¬ l.SameTarget k)
    (cost : ℤ) : (c.setAverageCost k cost).averageCost l = c.averageCost l := by
  unfold StockKey.SameTarget at h
  unfold Catalog.setAverageCost Catalog.averageCost
  cases hk : k.variant with
  | none =>
    cases hl : l.variant with
    | none =>
      have hproduct : k.product ≠ l.product := by
        intro heq
        exact h ⟨by rw [hk, hl], fun _ => heq.symm⟩
      simp [hproduct]
    | some w => rfl
  | some v =>
    cases hl : l.variant with
    | none => rfl
    | some w =>
      have hvariant : v ≠ w := by
        rintro rfl
        exact h ⟨by rw [hk, hl], fun hnone => by rw [hl] at hnone; cases hnone⟩
      simp [hvariant]

/-- What is moved is in the catalogue. -/
lemma hasTarget_of_movementRow {m : Movement} {s : State} {row : StockMovement}
    (h : movementRow m s = .ok row) : s.catalog.HasTarget m.key := by
  unfold movementRow at h
  simp only [except_bind_eq_ok, require_eq_ok, found_eq_ok] at h
  obtain ⟨-, -, -, -, product, hproduct, variant, hvariant, -⟩ := h
  unfold Catalog.HasTarget
  cases hkey : m.key.variant with
  | none => simp [hproduct]
  | some v =>
    rw [hkey] at hvariant
    unfold variantOf at hvariant
    dsimp only at hvariant ⊢
    cases hrow : s.catalog.variants[v]? with
    | none =>
      rw [hrow] at hvariant
      cases hvariant
    | some row => rfl

/-! ## One movement -/

/-- The total stock of the product or variant of a key, over every warehouse. -/
def stockAt (s : State) (k : StockKey) : ℤ := s.stock.total k.product k.variant

/-- What that stock is worth at its average cost. -/
def stockValue (s : State) (k : StockKey) : ℚ := dec (stockAt s k) * dec (s.catalog.averageCost k)

/-- Goods that come in, opening stock or a purchase, with a unit cost. -/
def Movement.CarriesCost (m : Movement) : Prop :=
  averagesCost m.movementType = true ∧ 0 < qty m.quantity ∧ m.unitCost ≠ 0

instance decidableCarriesCost (m : Movement) : Decidable m.CarriesCost :=
  inferInstanceAs (Decidable (_ ∧ _ ∧ _))

/-- What a recorded movement does to the stock and to the catalogue. -/
structure CostUpdated (m : Movement) (s t : State) : Prop where
  stock : stockAt t m.key = stockAt s m.key + qty m.quantity
  averaged : m.CarriesCost → t.catalog = s.catalog.setAverageCost m.key
    (money (newAverageCost (stockAt s m.key + qty m.quantity) (s.catalog.averageCost m.key)
      (qty m.quantity) m.unitCost))
  kept : ¬ m.CarriesCost → t.catalog = s.catalog
  target : s.catalog.HasTarget m.key

lemma costUpdated_recordMovement {m : Movement} {s t : State} {u : Unit}
    (h : Runs (recordMovement m) s u t) : CostUpdated m s t := by
  unfold recordMovement at h
  simp only [runs_bind, runs_reads, runs_modify] at h
  obtain ⟨row, s', ⟨hrow, hs⟩, rfl⟩ := h
  subst s'
  have hadmitted := admitted_of_movementRow hrow
  have htotal : (s.stock.post row).total m.key.product m.key.variant =
      stockAt s m.key + qty m.quantity := by
    rw [Stock.total_post _ _ hadmitted.balanceAfter, hadmitted.key, hadmitted.quantity]
    simp [stockAt]
  have hcarries : (averagesCost m.movementType && row.quantity > 0 && m.unitCost ≠ 0) = true ↔
      m.CarriesCost := by
    rw [hadmitted.quantity]
    simp [Movement.CarriesCost, and_assoc]
  refine ⟨?_, ?_, ?_, hasTarget_of_movementRow hrow⟩
  · unfold stockAt
    rw [stock_applyMovement]
    exact htotal
  · intro hcost
    unfold applyMovement updateAverageCost
    rw [if_pos (hcarries.mpr hcost), htotal, hadmitted.quantity]
  · intro hcost
    unfold applyMovement
    rw [if_neg fun hc => hcost (hcarries.mp hc)]

/-- **The moving average.**  Opening stock and purchases with a unit cost leave an average
between the old one and the recorded cost; where the stock was not below zero, its value grows
by the value that came in, up to half of the last place of a cost for each unit of the new
stock, and where it was below zero the recorded cost becomes the average.  Every other movement
leaves the catalogue alone, and none touches the average of another product or variant. -/
theorem moving_average_sound {m : Movement} {s t : State}
    (h : Runs (recordMovement m) s () t) :
    (m.CarriesCost →
      (min (s.catalog.averageCost m.key) (money m.unitCost) ≤ t.catalog.averageCost m.key ∧
        t.catalog.averageCost m.key ≤ max (s.catalog.averageCost m.key) (money m.unitCost)) ∧
      (0 ≤ stockAt s m.key →
        |stockValue t m.key - (stockValue s m.key + dec (qty m.quantity) * m.unitCost)| ≤
          1 / 1000 / 2 * dec (stockAt t m.key)) ∧
      (stockAt s m.key < 0 → t.catalog.averageCost m.key = money m.unitCost)) ∧
    (¬ m.CarriesCost → t.catalog = s.catalog) ∧
    ∀ k : StockKey, ¬ k.SameTarget m.key → t.catalog.averageCost k = s.catalog.averageCost k := by
  have hupdated := costUpdated_recordMovement h
  refine ⟨fun hcost => ?_, hupdated.kept, fun k hk => ?_⟩
  · have haverage : t.catalog.averageCost m.key = money (newAverageCost
        (stockAt s m.key + qty m.quantity) (s.catalog.averageCost m.key) (qty m.quantity)
          m.unitCost) := by
      rw [hupdated.averaged hcost, averageCost_setAverageCost hupdated.target]
    have hin := hcost.2.1
    rcases lt_or_ge (stockAt s m.key) 0 with hneg | hnonneg
    · rw [newAverageCost_of_neg hneg hin] at haverage
      refine ⟨?_, fun hnonneg => absurd hnonneg (not_le.mpr hneg), fun _ => haverage⟩
      rw [haverage]
      exact ⟨min_le_right _ _, le_max_right _ _⟩
    · rw [newAverageCost_of_nonneg hnonneg hin] at haverage
      refine ⟨?_, fun _ => ?_, fun hneg => absurd hnonneg (not_le.mpr hneg)⟩
      · rw [haverage]
        exact money_weightedMean_mem hnonneg hin _ _
      · -- The exact mean carries the whole value, and rounding it costs half a place a unit.
        have hvalue := dec_mul_weightedMean hnonneg hin (s.catalog.averageCost m.key) m.unitCost
        have hstock : 0 ≤ dec (stockAt s m.key + qty m.quantity) := dec_nonneg.mpr (by omega)
        have hround := mul_le_mul_of_nonneg_left (abs_dec_money_sub_le
          (weightedMean (stockAt s m.key) (s.catalog.averageCost m.key) (qty m.quantity)
            m.unitCost)) hstock
        unfold stockValue
        rw [← hvalue, hupdated.stock, haverage, ← mul_sub, abs_mul, abs_of_nonneg hstock]
        linarith
  · by_cases hcost : m.CarriesCost
    · rw [hupdated.averaged hcost, averageCost_setAverageCost_of_ne hk]
    · rw [hupdated.kept hcost]

/-- Ten pieces come into the store at the given cost. -/
def tenIn (movementType : MovementType) (cost : ℚ) : Movement where
  key := ⟨0, 0, none⟩
  movementType := movementType
  quantity := 10
  unitCost := cost
  reference := .opening
  user := 0

/-- Ten pieces at 1.000 and ten at 4.001 average at 2.501; the value misses half a thousandth for
each of the twenty. -/
theorem moving_average_purchase : ∃ t,
    Runs (recordMovement (tenIn .purchase (dec 4001))) (history (Shop.stocked 2000)) () t ∧
      t.catalog.averageCost ⟨0, 0, none⟩ ≤ 4001 ∧
      |stockValue t ⟨0, 0, none⟩ - (stockValue (history (Shop.stocked 2000)) ⟨0, 0, none⟩ +
        dec (qty 10) * dec 4001)| ≤ 1 / 1000 / 2 * dec (stockAt t ⟨0, 0, none⟩) := by
  obtain ⟨⟨⟩, hruns⟩ := runs_commit (m := recordMovement (tenIn .purchase (dec 4001)))
    (s := history (Shop.stocked 2000)) (by decide +kernel)
  have hcost : (tenIn .purchase (dec 4001)).CarriesCost := by decide +kernel
  obtain ⟨hrange, hvalue, -⟩ := (moving_average_sound hruns).1 hcost
  refine ⟨_, hruns, ?_, hvalue (by decide +kernel)⟩
  have hmax : max ((history (Shop.stocked 2000)).catalog.averageCost ⟨0, 0, none⟩)
      (money (dec 4001)) = 4001 := by decide +kernel
  exact hrange.2.trans hmax.le

/-- Fifteen pieces sold of ten at 1.000: the stock is five below zero. -/
def oversold : List Op := Shop.stocked 2000 ++ [
  .saveMasterData (.settings { negativeStockPolicy := .allow }),
  Shop.sell 15 [⟨0, 30⟩]]

/-- Ten pieces come in at 4.000, worth 40.000.  As a purchase on five below zero at 1.000 they
take the value from -5.000 to 20.000, as an adjustment on ten at 1.000 from 10.000 to 20.000:
neither is 40.000 more, give or take half a thousandth for each piece. -/
theorem moving_average_oversold :
    (∃ t, Runs (recordMovement (tenIn .purchase 4)) (history oversold) () t ∧
      stockValue (history oversold) ⟨0, 0, none⟩ = -5 ∧ stockValue t ⟨0, 0, none⟩ = 20 ∧
      ¬ |stockValue t ⟨0, 0, none⟩ - (stockValue (history oversold) ⟨0, 0, none⟩ +
        dec (qty 10) * 4)| ≤ 1 / 1000 / 2 * |dec (stockAt t ⟨0, 0, none⟩)|) ∧
    ∃ t, Runs (recordMovement (tenIn .adjustIn 4)) (history (Shop.stocked 2000)) () t ∧
      stockValue (history (Shop.stocked 2000)) ⟨0, 0, none⟩ = 10 ∧
      stockValue t ⟨0, 0, none⟩ = 20 ∧
      ¬ |stockValue t ⟨0, 0, none⟩ - (stockValue (history (Shop.stocked 2000)) ⟨0, 0, none⟩ +
        dec (qty 10) * 4)| ≤ 1 / 1000 / 2 * |dec (stockAt t ⟨0, 0, none⟩)| := by
  constructor
  · obtain ⟨⟨⟩, hruns⟩ := runs_commit (m := recordMovement (tenIn .purchase 4))
      (s := history oversold) (by decide +kernel)
    refine ⟨_, hruns, ?_, ?_, ?_⟩ <;> decide +kernel
  · obtain ⟨⟨⟩, hruns⟩ := runs_commit (m := recordMovement (tenIn .adjustIn 4))
      (s := history (Shop.stocked 2000)) (by decide +kernel)
    refine ⟨_, hruns, ?_, ?_, ?_⟩ <;> decide +kernel

end NexaPos
