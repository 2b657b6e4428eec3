import NexaPos.Properties.ReturnRecords
import Mathlib.Algebra.BigOperators.Ring.List
import Mathlib.Tactic.Linarith
import Mathlib.Tactic.Positivity

/-!
# What a sale refunds

The refund of one unit is the line total divided by the quantity, rounded to a thousandth, and
the refund of an entry is that price times the quantity, rounded again.  Refunds of a line can
therefore exceed its total: three units of a line of 20.000 are refunded 6.667 each.  The excess
is bounded by the roundings made, half a thousandth for each unit sold and half a thousandth for
each return row, provided that what the returns take back is stored in full.
-/

namespace NexaPos

/-! ## One line -/

/-- The roundings made on a line, in two-thousandths of a thousandth. -/
def roundingSlack (s : State) (line : ℕ) (item : SaleItem) : ℤ :=
  item.quantity + 1000 * (returnRows s line).length

/-- What a return of the sale takes back of a line is not lost when it is stored. -/
def StoredInFull (id : ℕ) (s : State) (op : Op) : Prop :=
  ∀ r ∈ op.returnRequest, r.sale = id → op.Accepted s → ∀ e ∈ r.items,
    requested r.items e.saleItem ≤ dec (qty (requested r.items e.saleItem))

instance (id : ℕ) (s : State) (op : Op) : Decidable (StoredInFull id s op) :=
  inferInstanceAs (Decidable (∀ r ∈ op.returnRequest, _))

/-- The refunds of a sale's lines, against what came back of them. -/
def RefundsBounded (id : ℕ) (s : State) : Prop :=
  ∀ (line : ℕ) item, s.sales.items[line]? = some item → item.sale = id →
    (lineRefunds s line : ℚ) ≤
      refundPerUnit item * dec item.returnedQuantity + (returnRows s line).length / 2

lemma refundPerUnit_nonneg {item : SaleItem} (h : LineRecorded item) : 0 ≤ refundPerUnit item := by
  unfold refundPerUnit
  split
  · exact le_rfl
  · exact money_nonneg (div_nonneg (dec_nonneg.mpr h.lineTotal_nonneg)
      (dec_nonneg.mpr h.quantity_nonneg))

/-- A unit is refunded its share of the line total, up to half a thousandth. -/
lemma refundPerUnit_mul_le {item : SaleItem} (h : LineRecorded item) :
    (refundPerUnit item : ℚ) * dec item.quantity ≤ item.lineTotal + item.quantity / 2000 := by
  have htotal : (0 : ℚ) ≤ item.lineTotal := by exact_mod_cast h.lineTotal_nonneg
  unfold refundPerUnit
  by_cases hzero : item.quantity = 0
  · rw [if_pos hzero, hzero]
    simpa using htotal
  · rw [if_neg hzero]
    have hpos : (0 : ℚ) < item.quantity := by
      have hnonneg := h.quantity_nonneg
      have hlt : 0 < item.quantity := by omega
      exact_mod_cast hlt
    have hround := money_le_add_half (dec item.lineTotal / dec item.quantity)
    have hshare : dec item.lineTotal / dec item.quantity * 1000 * dec item.quantity =
        item.lineTotal := by
      unfold dec
      field_simp
    have hquantity : dec item.quantity = item.quantity / 1000 := rfl
    have hdec : 0 < dec item.quantity := by
      rw [hquantity]
      positivity
    calc (money (dec item.lineTotal / dec item.quantity) : ℚ) * dec item.quantity
        ≤ (dec item.lineTotal / dec item.quantity * 1000 + 1 / 2) * dec item.quantity :=
          mul_le_mul_of_nonneg_right hround hdec.le
      _ = item.lineTotal + item.quantity / 2000 := by
          rw [add_mul, hshare, hquantity]
          ring

/-- The refunds of the entries of a line are those of its quantity, up to half a thousandth for
each entry. -/
lemma sum_entryRefund_le (s : State) (entries : List ReturnEntry) (line : ℕ) :
    ((((entriesOf entries line).map (entryRefund s)).sum : ℤ) : ℚ) ≤
      unitRefund s line * requested entries line + (entriesOf entries line).length / 2 := by
  have hmem : ∀ e ∈ entriesOf entries line, e.saleItem = line ∧ 0 < e.quantity :=
    fun e he => of_decide_eq_true (List.mem_filter.mp he).2
  unfold requested
  generalize entriesOf entries line = own at hmem
  induction own with
  | nil => simp
  | cons e own ih =>
    obtain ⟨hline, hpos⟩ := hmem e List.mem_cons_self
    have hrest := ih fun e he => hmem e (List.mem_cons_of_mem _ he)
    have hone : (entryRefund s e : ℚ) ≤ unitRefund s line * e.quantity + 1 / 2 := by
      have hround := money_le_add_half (dec (unitRefund s line) * e.quantity)
      rw [entryRefund, if_pos hpos, hline]
      unfold dec at hround ⊢
      linarith
    simp only [List.map_cons, List.sum_cons, List.length_cons, Int.cast_add, Nat.cast_add,
      Nat.cast_one]
    linarith

/-! ## Every step -/

lemma ReturnMade.length_returnRows {r : ReturnRequest} {s t u : State} {p : ReturnProgress}
    (h : ReturnMade r s t p u) (line : ℕ) :
    (returnRows t line).length = (returnRows s line).length + (entriesOf r.items line).length := by
  obtain ⟨header, -, -, hsales⟩ := h.sales
  have hrows : returnRows t line = returnRows u line := by
    rw [returnRows, returnRows, hsales]
  have hlength := congrArg List.length (h.loop.rows line)
  rw [List.length_append, List.length_map, List.length_map, List.length_map] at hlength
  rw [hrows, hlength]

/-- What comes back of a line in one return, when it is stored in full. -/
lemma requested_le_of_storedInFull {r : ReturnRequest} {line : ℕ}
    (h : ∀ e ∈ r.items, requested r.items e.saleItem ≤ dec (qty (requested r.items e.saleItem))) :
    requested r.items line ≤ dec (qty (requested r.items line)) := by
  by_cases hentry : ∃ e ∈ r.items, e.saleItem = line
  · obtain ⟨e, he, rfl⟩ := hentry
    exact h e he
  · have hnone : entriesOf r.items line = [] := by
      refine List.filter_eq_nil_iff.mpr fun e he => ?_
      rw [decide_eq_true_eq]
      exact fun hline => hentry ⟨e, he, hline.1⟩
    rw [requested, hnone]
    simp

lemma ReturnMade.refundsBounded {r : ReturnRequest} {s t u : State} {p : ReturnProgress}
    {id : ℕ} (h : ReturnMade r s t p u) (hrecorded : (salesView s).Recorded)
    (hwithin : ReturnedWithin s)
    (hstored : r.sale = id → ∀ e ∈ r.items,
      requested r.items e.saleItem ≤ dec (qty (requested r.items e.saleItem)))
    (hs : RefundsBounded id s) : RefundsBounded id t := by
  intro line item hitem hsale
  obtain ⟨old, hold, hcore, hreturned, -⟩ := h.item hitem
  have hunit : refundPerUnit item = refundPerUnit old := refundPerUnit_of_core hcore.symm
  have hsame : old.core.sale = item.core.sale := by rw [hcore]
  change old.sale = item.sale at hsame
  have hbefore := hs line old hold (hsame.trans hsale)
  rw [h.lineRefunds_eq, h.length_returnRows, hunit, hreturned,
    qty_dec_add (hwithin line old hold).1 (requested_nonneg _ _), dec_add, Int.cast_add,
    Nat.cast_add]
  by_cases hid : r.sale = id
  · have hrefunds := sum_entryRefund_le s r.items line
    have hunit₀ : unitRefund s line = refundPerUnit old := by
      rw [unitRefund, hold, Option.map_some, Option.getD_some]
    have hline : LineRecorded old := hrecorded.lineRecorded hold
    have hnonneg : (0 : ℚ) ≤ refundPerUnit old := by exact_mod_cast refundPerUnit_nonneg hline
    have hrequested : requested r.items line ≤ dec (qty (requested r.items line)) :=
      requested_le_of_storedInFull (hstored hid)
    have hkept := mul_le_mul_of_nonneg_left hrequested hnonneg
    rw [hunit₀] at hrefunds
    linarith
  · have hnone := h.entriesOf_other hold fun hr => hid (hr.symm.trans (hsame.trans hsale))
    rw [requested, hnone]
    simpa using hbefore

lemma refundsBounded_step {id : ℕ} (s : State) (op : Op) (hrecorded : (salesView s).Recorded)
    (hlinked : Linked s) (hreturns : ReturnsRecorded s) (hstored : StoredInFull id s op)
    (hs : RefundsBounded id s) : RefundsBounded id (step s op) := by
  by_cases haccepted : op.Accepted s
  · cases returnStep s op with
    | same h =>
      intro line item hitem
      rw [h.items] at hitem
      rw [lineRefunds, returnRows, h.returnItems]
      exact hs line item hitem
    | @made c r sid p number items h =>
      obtain ⟨totalCost, sequences, hsales⟩ := h.sales
      intro line item hitem hsale
      have hrows : returnRows (step s (.completeSale c r)) line = returnRows s line := by
        rw [returnRows, returnRows, hsales]
      rw [lineRefunds, hrows]
      rw [hsales] at hitem
      rcases getElem?_append_eq_some.mp hitem with hitem | ⟨hnew, hitem⟩
      · exact hs line item hitem hsale
      · rw [lineRefunds_eq_zero hlinked hnew,
          h.returnedQuantity_eq (List.mem_of_getElem? hitem)]
        simp
    | returned h =>
      obtain ⟨p, u, hmade⟩ := returnMade_of_runs hreturns.within h
      exact hmade.refundsBounded hrecorded hreturns.within
        (fun hid => hstored _ rfl hid haccepted) hs
  · rw [step_of_not_accepted haccepted]
    exact hs

/-- The refunds of a line exceed its total by at most the roundings made on it. -/
lemma RefundsBounded.line {s : State} {id line : ℕ} {item : SaleItem} (hs : RefundsBounded id s)
    (hrecorded : LineRecorded item) (hwithin : ReturnedWithin s)
    (hitem : s.sales.items[line]? = some item) (hsale : item.sale = id) :
    2000 * lineRefunds s line ≤ 2000 * item.lineTotal + roundingSlack s line item := by
  have hrefunds := hs line item hitem hsale
  have hshare := refundPerUnit_mul_le hrecorded
  have hunit : (0 : ℚ) ≤ refundPerUnit item := by exact_mod_cast refundPerUnit_nonneg hrecorded
  have hreturned := mul_le_mul_of_nonneg_left
    (dec_le_dec.mpr (hwithin line item hitem).2) hunit
  have hbound : (2000 * lineRefunds s line : ℚ) ≤
      2000 * item.lineTotal + (item.quantity + 1000 * (returnRows s line).length) := by
    linarith
  unfold roundingSlack
  exact_mod_cast hbound

/-- The lines of a sale add up to its total before display rounding. -/
lemma sum_lineTotal_itemsOfSale {s : State} {id : ℕ} {sale : Sale}
    (hs : (salesView s).Recorded) (hsale : s.sales.sales[id]? = some sale) :
    ((itemsOfSale s id).map fun e => e.2.lineTotal).sum = sale.total - sale.rounding := by
  have hcore : (salesView s).sales[id]? = some sale.core := by
    rw [salesView, List.getElem?_map, hsale, Option.map_some]
  have htotal := hs.total id sale.core hcore
  have hitems : (itemsOfSale s id).map Prod.snd = s.sales.items.filter fun i => i.sale = id :=
    map_snd_childrenOf _ _ _
  have hlines : ((itemsOfSale s id).map Prod.snd).map SaleItem.lineTotal =
      (((salesView s).items.filter fun i => i.sale = id).map SaleItem.lineTotal) := by
    rw [hitems, salesView, List.filter_map, List.map_map]
    rfl
  rw [← hlines, List.map_map] at htotal
  exact htotal

/-- **Refunds.**  When the returns of a sale are stored in full, the refunds of each of its lines
exceed the line total, and the refunds of the sale exceed its total before display rounding, by
at most the roundings made: half a thousandth for each unit sold and each return row. -/
theorem refunds_capped {ops : List Op} {id : ℕ} {sale : Sale}
    (hstored : Trace.All step (StoredInFull id) State.empty ops)
    (hsale : (history ops).sales.sales[id]? = some sale) :
    (∀ e ∈ itemsOfSale (history ops) id,
      2000 * lineRefunds (history ops) e.1 ≤
        2000 * e.2.lineTotal + roundingSlack (history ops) e.1 e.2) ∧
    2000 * returnedAmount (history ops) id ≤ 2000 * (sale.total - sale.rounding) +
      ((itemsOfSale (history ops) id).map fun e => roundingSlack (history ops) e.1 e.2).sum := by
  have hbounded : RefundsBounded id (history ops) := by
    let kept : State → Prop := fun s =>
      ((salesView s).Recorded ∧ Linked s ∧ ReturnsRecorded s) ∧ RefundsBounded id s
    have hstep : ∀ s op, StoredInFull id s op → kept s → kept (step s op) := by
      rintro s op hop ⟨⟨hrecorded, hlinked, hreturns⟩, hs⟩
      exact ⟨⟨recorded_step s op hrecorded, linked_step s op hlinked,
        returnsRecorded_step s op hlinked hreturns⟩,
        refundsBounded_step s op hrecorded hlinked hreturns hop hs⟩
    have hempty : kept State.empty :=
      ⟨⟨recorded_history [], linked_history [], returnsRecorded_history []⟩,
        fun line item hitem => nomatch hitem⟩
    exact (Trace.invariant_of_all hstep hempty hstored).2
  have hrecorded := recorded_history ops
  have hreturns := returnsRecorded_history ops
  have hlines : ∀ e ∈ itemsOfSale (history ops) id,
      2000 * lineRefunds (history ops) e.1 ≤
        2000 * e.2.lineTotal + roundingSlack (history ops) e.1 e.2 := by
    rintro ⟨line, item⟩ he
    obtain ⟨hitem, hof⟩ := mem_childrenOf.mp he
    exact hbounded.line (hrecorded.lineRecorded hitem) hreturns.within hitem hof
  refine ⟨hlines, ?_⟩
  have htotal : ((itemsOfSale (history ops) id).map fun e => e.2.lineTotal).sum =
      sale.total - sale.rounding :=
    sum_lineTotal_itemsOfSale hrecorded hsale
  calc 2000 * returnedAmount (history ops) id
      = ((itemsOfSale (history ops) id).map fun e => 2000 * lineRefunds (history ops) e.1).sum := by
        rw [hreturns.refunds id, saleLines, List.map_map, List.sum_map_mul_left]
        rfl
    _ ≤ ((itemsOfSale (history ops) id).map fun e =>
          2000 * e.2.lineTotal + roundingSlack (history ops) e.1 e.2).sum :=
        List.sum_le_sum hlines
    _ = 2000 * (sale.total - sale.rounding) + ((itemsOfSale (history ops) id).map fun e =>
          roundingSlack (history ops) e.1 e.2).sum := by
        rw [List.sum_map_add, List.sum_map_mul_left, htotal]

/-! ## Runs -/

/-- Three units at 6.667, less 0.001, are sold and taken back. -/
def threeReturned : List Op := [
  .completeSale Shop.call { Shop.cart 3 [⟨0, 20⟩] with
    items := [{ product := 0, quantity := 3, discountAmount := 1 / 1000 }] },
  .processReturn Shop.call { sale := 0, items := [⟨0, 3, true⟩], refundMethod := .cash }]

/-- Both requests are accepted, and the line of 20.000 is refunded 20.001. -/
theorem refunds_exceed_total :
    Trace.All step (fun s op => op.Accepted s) (history (Shop.stocked 6667)) threeReturned ∧
      (history (Shop.stocked 6667 ++ threeReturned)).sales.items.map SaleItem.lineTotal =
        [20000] ∧
      (history (Shop.stocked 6667 ++ threeReturned)).sales.sales.map Sale.total = [20000] ∧
      lineRefunds (history (Shop.stocked 6667 ++ threeReturned)) 0 = 20001 ∧
      returnedAmount (history (Shop.stocked 6667 ++ threeReturned)) 0 = 20001 := by
  refine ⟨?_, by decide +kernel, by decide +kernel, by decide +kernel, by decide +kernel⟩
  unfold threeReturned
  refine ⟨?_, ?_, trivial⟩ <;> decide +kernel

theorem refunds_capped_run :
    ∃ sale, (history (Shop.stocked 6667 ++ threeReturned)).sales.sales[0]? = some sale ∧
      2000 * returnedAmount (history (Shop.stocked 6667 ++ threeReturned)) 0 ≤
        2000 * (sale.total - sale.rounding) +
          ((itemsOfSale (history (Shop.stocked 6667 ++ threeReturned)) 0).map fun e =>
            roundingSlack (history (Shop.stocked 6667 ++ threeReturned)) e.1 e.2).sum := by
  have hsome : ((history (Shop.stocked 6667 ++ threeReturned)).sales.sales[0]?).isSome = true := by
    decide +kernel
  obtain ⟨sale, hsale⟩ := Option.isSome_iff_exists.mp hsome
  exact ⟨sale, hsale, (refunds_capped (by decide +kernel) hsale).2⟩

end NexaPos
