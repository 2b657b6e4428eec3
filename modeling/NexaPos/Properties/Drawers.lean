import NexaPos.Properties.DrawerRecords
import Mathlib.Data.List.Dedup

/-!
# The stored figures of closed shifts

Closing a shift stores what its drawer should hold and the difference to what was counted.  The
drawer of a closed shift can still change in two ways.  Expense services rewrite the stored
figures when they change an expense of such a shift.  A void of a sale that was paid in cash
during the shift takes its payments out of the count and rewrites nothing.  Apart from that,
the stored difference is off by a thousandth when the counted cash had a fourth decimal that
rounds one way on its own and the other way inside the difference.

`closedShiftsAligned_iff` says that these two are all.
-/

namespace NexaPos

open Tx

/-! ## The figures of a drawer -/

/-- The cash a shift took on sales that count. -/
def takenCash (s : State) (shift : ℕ) : ℤ :=
  (((rowsOfShift SalePayment.shift s.sales.payments shift).filter fun x =>
    isCashMethod s x.method && isLiveSale s x.sale).map SalePayment.amount).sum

/-- The cash a shift paid back. -/
def refundedCash (s : State) (shift : ℕ) : ℤ :=
  (((shiftReturns s shift).filter fun x => x.refundMethod.tenderKind = .cash).map
    SaleReturn.refundAmount).sum

/-- What moved through the drawer of a shift since it was opened. -/
def drawerCash (b : Books) (shift : ℕ) : ℤ :=
  takenCash b.pos shift + collectedCash b.pos shift - refundedCash b.pos shift - spentCash b shift

lemma expectedCash_eq (b : Books) (shift : ℕ) (row : Shift) :
    (shiftTotals b shift row).expectedCash = row.openingCash + drawerCash b shift := by
  have htaken : (tenderSummary b.pos (shiftPayments b.pos shift)
      (shiftReturns b.pos shift)).gross .cash = takenCash b.pos shift := by
    unfold tenderSummary takenCash shiftPayments rowsOfShift
    dsimp only
    rw [List.filter_filter, List.filter_filter]
    congr 2
    refine List.filter_congr fun x _ => ?_
    rw [isCashMethod_eq, paymentKind, Bool.and_comm (decide (x.shift = some shift)), Bool.and_assoc]
  unfold shiftTotals drawerCash
  dsimp only
  rw [htaken]
  have hrefunded : (tenderSummary b.pos (shiftPayments b.pos shift)
      (shiftReturns b.pos shift)).refunds .cash = refundedCash b.pos shift := rfl
  rw [hrefunded]
  omega

/-! ## Aligned shifts -/

/-- The stored figures of a shift are those of its drawer. -/
def Shift.Aligned (b : Books) (shift : ℕ) (x : Shift) : Prop :=
  x.expectedCash = (shiftTotals b shift x).expectedCash ∧
    ∃ actual, x.actualCash = some actual ∧ x.difference = actual - x.expectedCash

/-- Every closed or approved shift is aligned. -/
def ClosedShiftsAligned (b : Books) : Prop :=
  ∀ (shift : ℕ) (x : Shift), b.pos.tenant.shifts[shift]? = some x → x.isClosed = true →
    x.Aligned b shift

lemma Shift.isClosed_iff {x : Shift} : x.isClosed = true ↔ ¬ x.IsOpen := by
  unfold isClosed IsOpen
  cases x.status <;> simp

lemma not_isOpenShift {s : State} {shift : ℕ} {x : Shift} (hx : s.tenant.shifts[shift]? = some x)
    (hclosed : x.isClosed = true) : ¬ IsOpenShift s shift := by
  rintro ⟨y, hy, hopen⟩
  obtain rfl : x = y := Option.some.inj (hx.symm.trans hy)
  exact Shift.isClosed_iff.mp hclosed hopen

/-- A shift whose drawer is as it was. -/
lemma Shift.Aligned.congr {b b' : Books} {shift : ℕ} {x y : Shift} (h : x.Aligned b shift)
    (hdrawer : drawerCash b' shift = drawerCash b shift) (hopening : y.openingCash = x.openingCash)
    (hexpected : y.expectedCash = x.expectedCash) (hactual : y.actualCash = x.actualCash)
    (hdifference : y.difference = x.difference) : y.Aligned b' shift := by
  obtain ⟨h, actual, hsome, hdiff⟩ := h
  refine ⟨?_, actual, by rw [hactual, hsome], by rw [hdifference, hdiff, hexpected]⟩
  rw [hexpected, h, expectedCash_eq, expectedCash_eq, hdrawer, hopening]

/-! ## The drawer under a request of the point of sale -/

/-- Taking rows out of a sum. -/
lemma sum_filter_sub {α : Type} {p q r : α → Bool} {g : α → ℤ} {rows : List α}
    (hq : ∀ x ∈ rows, q x = (p x && !r x)) (hr : ∀ x ∈ rows, r x = true → p x = true) :
    ((rows.filter q).map g).sum = ((rows.filter p).map g).sum - ((rows.filter r).map g).sum := by
  induction rows with
  | nil => rfl
  | cons x rows ih =>
    have ih := ih (fun y hy => hq y (List.mem_cons_of_mem x hy))
      fun y hy => hr y (List.mem_cons_of_mem x hy)
    have hqx := hq x List.mem_cons_self
    have hrx := hr x List.mem_cons_self
    simp only [List.filter_cons, hqx]
    cases hx : r x with
    | true => simp [hrx hx, ih]
    | false =>
      cases p x with
      | true => simp [ih, add_sub_assoc]
      | false => simpa using ih

/-- The cash a shift took on one sale. -/
def cashOfSale (s : State) (shift sale : ℕ) : ℤ :=
  (((rowsOfShift SalePayment.shift s.sales.payments shift).filter fun x =>
    isCashMethod s x.method && x.sale = sale).map SalePayment.amount).sum

/-- A cash payment on the sale was recorded in the shift. -/
def HasCashOf (s : State) (shift sale : ℕ) : Prop :=
  ∃ x ∈ s.sales.payments, x.sale = sale ∧ x.shift = some shift ∧ isCashMethod s x.method = true

lemma cashOfSale_pos_iff {s : State} (hs : Filed s) (shift sale : ℕ) :
    cashOfSale s shift sale ≠ 0 ↔ HasCashOf s shift sale := by
  have hmem : ∀ x, x ∈ (rowsOfShift SalePayment.shift s.sales.payments shift).filter (fun x =>
      isCashMethod s x.method && x.sale = sale) ↔
      x ∈ s.sales.payments ∧ x.sale = sale ∧ x.shift = some shift ∧
        isCashMethod s x.method = true := by
    intro x
    unfold rowsOfShift
    simp only [List.mem_filter, decide_eq_true_eq, Bool.and_eq_true]
    tauto
  have hpos : ∀ m ∈ ((rowsOfShift SalePayment.shift s.sales.payments shift).filter (fun x =>
      isCashMethod s x.method && x.sale = sale)).map SalePayment.amount, 0 < m := by
    intro m hm
    obtain ⟨x, hx, rfl⟩ := List.mem_map.mp hm
    exact (hs.payment x ((hmem x).mp hx).1).2
  constructor
  · intro hne
    by_contra hnone
    refine hne ?_
    unfold cashOfSale
    have hnil : (rowsOfShift SalePayment.shift s.sales.payments shift).filter (fun x =>
        isCashMethod s x.method && x.sale = sale) = [] := by
      refine List.eq_nil_iff_forall_not_mem.mpr fun x hx => hnone ?_
      obtain ⟨hx, hrest⟩ := (hmem x).mp hx
      exact ⟨x, hx, hrest⟩
    rw [hnil]
    rfl
  · rintro ⟨x, hx, hrest⟩
    have hrow := List.mem_map_of_mem (f := SalePayment.amount) ((hmem x).mpr ⟨hx, hrest⟩)
    have hge := List.single_le_sum (fun m hm => (hpos m hm).le) _ hrow
    have hx := hpos _ hrow
    unfold cashOfSale
    omega

section PosStep

variable {b b' : Books} {op : Op} {shift : ℕ} (hs : Filed b.pos)
  (hexpenses : ∀ x ∈ b.expenses, ∀ m ∈ x.paymentMethod, m < b.pos.sales.paymentMethods.length)
  (hpos : b'.pos = step b.pos op) (hsame : b'.expenses = b.expenses)
  (hclosed : ¬ IsOpenShift b.pos shift)

include hs hexpenses hpos hsame hclosed

/-- Apart from the payments on sales, the drawer of a shift that is not open stays as it is. -/
lemma drawerCash_step_sub :
    drawerCash b' shift - takenCash b'.pos shift = drawerCash b shift - takenCash b.pos shift := by
  have hkept := drawerKept_step b.pos op hclosed
  rw [← hpos] at hkept
  have hcollected : collectedCash b'.pos shift = collectedCash b.pos shift := by
    have hsplit : ∀ s : State, collectedCash s shift =
        (((rowsOfShift CustomerPayment.shift s.parties.customerPayments shift).filter fun x =>
          isCashMethod s x.paymentMethod).map CustomerPayment.amount).sum := by
      intro s
      unfold collectedCash rowsOfShift
      rw [List.filter_filter]
      congr 2
      exact List.filter_congr fun x _ => Bool.and_comm _ _
    rw [hsplit, hsplit, hkept.collections]
    congr 2
    refine List.filter_congr fun x hx => hkept.methods _ ?_
    exact hs.collection x (List.mem_of_mem_filter hx)
  have hrefunded : refundedCash b'.pos shift = refundedCash b.pos shift := by
    unfold refundedCash
    rw [hkept.returns]
  have hspent : spentCash b' shift = spentCash b shift := by
    unfold spentCash
    rw [hsame]
    congr 2
    refine List.filter_congr fun x hx => ?_
    have hmethod : x.paymentMethod.any (isCashMethod b'.pos) =
        x.paymentMethod.any (isCashMethod b.pos) := by
      cases hm : x.paymentMethod with
      | none => rfl
      | some m => exact hkept.methods m (hexpenses x hx m hm)
    unfold Expense.spendsCash
    rw [hmethod]
  unfold drawerCash
  rw [hcollected, hrefunded, hspent]
  omega

/-- Without a void, the drawer of a shift that is not open stays as it is. -/
lemma drawerCash_step (hop : ∀ sale, ¬ op.Voids b.pos sale) :
    drawerCash b' shift = drawerCash b shift := by
  have hsub := drawerCash_step_sub hs hexpenses hpos hsame hclosed
  have hkept := drawerKept_step b.pos op hclosed
  have htaken : takenCash b'.pos shift = takenCash b.pos shift := by
    unfold takenCash
    rw [hpos, hkept.payments]
    congr 2
    refine List.filter_congr fun x hx => ?_
    have hrow := List.mem_of_mem_filter hx
    rw [hkept.methods _ (hs.payment x hrow).1,
      isLiveSale_step hs.noDrafts (hs.linked.payment x hrow) (hop x.sale)]
  omega

/-- A void takes the cash of its sale out of the drawer. -/
lemma drawerCash_voids {sale : ℕ} (hop : op.Voids b.pos sale) :
    drawerCash b' shift = drawerCash b shift - cashOfSale b.pos shift sale := by
  have hsub := drawerCash_step_sub hs hexpenses hpos hsame hclosed
  have hkept := drawerKept_step b.pos op hclosed
  obtain ⟨hlive, hvoid⟩ := isLiveSale_of_voids hs.noDrafts hop
  have htaken : takenCash b'.pos shift = takenCash b.pos shift - cashOfSale b.pos shift sale := by
    unfold takenCash cashOfSale
    rw [hpos, hkept.payments]
    refine sum_filter_sub (fun x hx => ?_) fun x _ hx => ?_
    · have hrow := List.mem_of_mem_filter hx
      rw [hkept.methods _ (hs.payment x hrow).1]
      by_cases hsale : x.sale = sale
      · rw [hsale, hvoid, hlive]
        simp
      · have hother : ¬ op.Voids b.pos x.sale := by
          rintro ⟨c, hc, -⟩
          obtain ⟨c', hc', -⟩ := hop
          rw [hc] at hc'
          cases hc'
          exact hsale rfl
        rw [isLiveSale_step hs.noDrafts (hs.linked.payment x hrow) hother]
        simp [hsale]
    · simp only [Bool.and_eq_true, decide_eq_true_eq] at hx ⊢
      rw [hx.2]
      exact ⟨hx.1, hlive⟩
  omega

end PosStep

/-! ## Sound books -/

/-- Sound records, with expenses paid by known methods. -/
structure FiledBooks (b : Books) : Prop where
  pos : Filed b.pos
  expense : ∀ x ∈ b.expenses, ∀ m ∈ x.paymentMethod, m < b.pos.sales.paymentMethods.length

lemma Filed.congr {s t : State} (h : Filed s) (hsales : t.sales = s.sales)
    (hparties : t.parties = s.parties) : Filed t where
  linked := by
    obtain ⟨hpayment, hreturn, hitem⟩ := h.linked
    refine ⟨?_, ?_, ?_⟩ <;> rw [hsales] <;> assumption
  noDrafts := by
    unfold NoDrafts
    rw [hsales]
    exact h.noDrafts
  payment := by
    rw [hsales]
    exact h.payment
  collection := by
    rw [hparties, hsales]
    exact h.collection

/-- Refreshing stored figures writes shifts only. -/
lemma refresh_kept (shifts : List ℕ) (b : Books) :
    (refreshClosedShiftSnapshots shifts b).pos.sales = b.pos.sales ∧
      (refreshClosedShiftSnapshots shifts b).pos.parties = b.pos.parties ∧
      (refreshClosedShiftSnapshots shifts b).expenses = b.expenses := by
  unfold refreshClosedShiftSnapshots
  induction shifts generalizing b with
  | nil => exact ⟨rfl, rfl, rfl⟩
  | cons shift shifts ih =>
    rw [List.foldl_cons]
    exact ih { b with pos := updateShift shift (refreshedShift b shift) b.pos }

lemma checkExpense_ok {c : Call} {r : ExpenseRequest} {b : Books} {persisted : Option Expense}
    {row : Expense} (h : checkExpense c r b = .ok (persisted, row)) :
    (match r.expense.id with
      | none => persisted = none
      | some id => persisted = b.expenses[id]? ∧ persisted.isSome) ∧
      ∀ m ∈ row.paymentMethod, m < b.pos.sales.paymentMethods.length := by
  unfold checkExpense at h
  simp only [except_bind_eq_ok, require_eq_ok, pure, Except.pure, Except.ok.injEq,
    Prod.mk.injEq] at h
  obtain ⟨-, -, persisted', hpersisted, branch, -, -, -, -, -, -, hmethod, -, -, shift, -, -, -,
    -, -, -, -, rfl, rfl⟩ := h
  refine ⟨?_, fun m hm => ?_⟩
  · unfold persistedExpense at hpersisted
    cases hid : r.expense.id with
    | none =>
      rw [hid] at hpersisted
      cases hpersisted
      rfl
    | some id =>
      rw [hid] at hpersisted
      simp only [except_bind_eq_ok, found_eq_ok, pure, Except.pure, Except.ok.injEq] at hpersisted
      obtain ⟨row, hrow, rfl⟩ := hpersisted
      exact ⟨hrow.symm, rfl⟩
  · rw [Option.all_eq_true] at hmethod
    exact (List.getElem?_eq_some_iff.mp (Option.isSome_iff_exists.mp (hmethod m hm)).choose_spec).1

lemma filedBooks_step {b : Books} (op : BooksOp) (hb : FiledBooks b) : FiledBooks (b.step op) := by
  by_cases haccepted : op.Accepted b
  · have hshift : ∀ {b'}, b'.pos.sales = b.pos.sales → b'.pos.parties = b.pos.parties →
        b'.expenses = b.expenses → FiledBooks b' := by
      intro b' hsales hparties hexpenses
      refine ⟨hb.pos.congr hsales hparties, ?_⟩
      rw [hexpenses, hsales]
      exact hb.expense
    have hexpense : ∀ {shifts rows}, (∀ x ∈ rows, ∀ m ∈ x.paymentMethod,
        m < b.pos.sales.paymentMethods.length) →
        FiledBooks (refreshClosedShiftSnapshots shifts { b with expenses := rows }) := by
      intro shifts rows hrows
      obtain ⟨hsales, hparties, hexpenses⟩ :=
        refresh_kept shifts { b with expenses := rows }
      refine ⟨hb.pos.congr hsales hparties, ?_⟩
      rw [hexpenses, hsales]
      exact hrows
    cases booksStep haccepted with
    | @pos op _ hpos hexpenses =>
      refine ⟨by rw [hpos]; exact filed_step op.op hb.pos, ?_⟩
      rw [hexpenses, hpos]
      exact fun x hx m hm => (hb.expense x hx m hm).trans_le (methods_le_step b.pos op.op)
    | opened _ h => exact hshift (by rw [h]) (by rw [h]) (by rw [h])
    | closed _ h => exact hshift (by rw [h]; rfl) (by rw [h]; rfl) (by rw [h])
    | approved _ h => exact hshift (by rw [h]; rfl) (by rw [h]; rfl) (by rw [h])
    | reopened _ h => exact hshift (by rw [h]; rfl) (by rw [h]; rfl) (by rw [h])
    | @saved c r persisted row hcheck h =>
      obtain ⟨-, hmethod⟩ := checkExpense_ok hcheck
      rw [h]
      unfold saveExpense
      split
      · refine hexpense fun x hx => ?_
        rcases List.mem_append.mp hx with hx | hx
        · exact hb.expense x hx
        · rw [List.mem_singleton.mp hx]
          exact hmethod
      · refine hexpense fun x hx => ?_
        obtain ⟨j, hj⟩ := List.mem_iff_getElem?.mp hx
        obtain ⟨old, hold, rfl⟩ := getElem?_modify_eq_some.mp hj
        split
        · exact hmethod
        · exact hb.expense old (List.mem_of_getElem? hold)
    | @status c expense status approvedBy row hcheck h =>
      rw [h]
      refine hexpense fun x hx => ?_
      obtain ⟨j, hj⟩ := List.mem_iff_getElem?.mp hx
      obtain ⟨old, hold, rfl⟩ := getElem?_modify_eq_some.mp hj
      have hrow := hb.expense old (List.mem_of_getElem? hold)
      split <;> exact hrow
  · rw [Books.step_of_not_accepted haccepted]
    exact hb

/-! ## Expenses -/

/-- Every closed or approved shift has been counted, and is aligned unless it is listed. -/
def AlignedExcept (shifts : List ℕ) (b : Books) : Prop :=
  ∀ (shift : ℕ) (x : Shift), b.pos.tenant.shifts[shift]? = some x → x.isClosed = true →
    x.actualCash.isSome = true ∧ (shift ∉ shifts → x.Aligned b shift)

lemma ClosedShiftsAligned.except {b b' : Books} {shifts : List ℕ} (h : ClosedShiftsAligned b)
    (hpos : b'.pos = b.pos)
    (hspent : ∀ shift, shift ∉ shifts → spentCash b' shift = spentCash b shift) :
    AlignedExcept shifts b' := by
  intro shift x hx hclosed
  rw [hpos] at hx
  have haligned := h shift x hx hclosed
  have ⟨_, actual, hactual, _⟩ := haligned
  refine ⟨by rw [hactual]; rfl, fun hout => haligned.congr ?_ rfl rfl rfl rfl⟩
  unfold drawerCash
  rw [hspent shift hout, hpos]

/-- Refreshing the listed shifts aligns all of them. -/
lemma AlignedExcept.refresh {shifts : List ℕ} {b : Books} (h : AlignedExcept shifts b) :
    ClosedShiftsAligned (refreshClosedShiftSnapshots shifts b) := by
  unfold refreshClosedShiftSnapshots
  induction shifts generalizing b with
  | nil => exact fun shift x hx hclosed => (h shift x hx hclosed).2 List.not_mem_nil
  | cons k shifts ih =>
    rw [List.foldl_cons]
    refine ih ?_
    intro shift y hy hclosed
    obtain ⟨x, hx, hxy⟩ := getElem?_modify_eq_some.mp hy
    by_cases hk : k = shift
    · -- the refreshed shift
      subst hk
      rw [if_pos rfl] at hxy
      obtain ⟨hstatus, -, -, hopening, hactual⟩ := refreshedShift_kept b k x
      have hxclosed : x.isClosed = true := by
        rw [← hxy] at hclosed
        unfold Shift.isClosed at hclosed ⊢
        rwa [hstatus] at hclosed
      obtain ⟨hcounted, -⟩ := h k x hx hxclosed
      obtain ⟨actual, hsome⟩ := Option.isSome_iff_exists.mp hcounted
      rw [← hxy]
      refine ⟨by rw [hactual]; exact hcounted, fun _ => ⟨?_, actual, by rw [hactual, hsome], ?_⟩⟩
      · rw [expectedCash_eq, hopening]
        unfold refreshedShift
        rw [if_pos hxclosed]
        exact expectedCash_eq b k x
      · unfold refreshedShift
        rw [if_pos hxclosed]
        dsimp only
        rw [hsome]
        rfl
    · rw [if_neg hk] at hxy
      subst hxy
      obtain ⟨hcounted, haligned⟩ := h shift x hx hclosed
      refine ⟨hcounted, fun hout => ?_⟩
      have hin : shift ∉ k :: shifts := by
        intro hmem
        rcases List.mem_cons.mp hmem with rfl | hmem
        · exact hk rfl
        · exact hout hmem
      exact (haligned hin).congr rfl rfl rfl rfl rfl

/-- Rewriting a row that counts neither before nor after. -/
lemma filter_modify_of_not {α : Type} {p : α → Bool} {f : α → α} {rows : List α} {i : ℕ}
    (h : ∀ x, rows[i]? = some x → p x = false ∧ p (f x) = false) :
    (rows.modify i f).filter p = rows.filter p := by
  induction rows generalizing i with
  | nil => simp
  | cons x rows ih =>
    cases i with
    | zero =>
      obtain ⟨hx, hfx⟩ := h x rfl
      rw [List.modify_zero_cons, List.filter_cons_of_neg (by simp [hfx]),
        List.filter_cons_of_neg (by simp [hx])]
    | succ i =>
      rw [List.modify_succ_cons, List.filter_cons, List.filter_cons, ih fun y hy => h y hy]

lemma spendsCash_of_ne {s : State} {shift : ℕ} {x : Expense} (h : x.shift ≠ some shift) :
    x.spendsCash s shift = false := by
  unfold Expense.spendsCash
  simp [h]

/-- Expense services leave every closed shift aligned. -/
lemma aligned_saveExpense {c : Call} {r : ExpenseRequest} {b : Books} {persisted : Option Expense}
    {row : Expense} (hcheck : checkExpense c r b = .ok (persisted, row))
    (h : ClosedShiftsAligned b) :
    ClosedShiftsAligned (refreshClosedShiftSnapshots (lockedShiftIds persisted row)
      (saveExpense r.expense.id row b)) := by
  obtain ⟨hpersisted, -⟩ := checkExpense_ok hcheck
  refine (h.except (saveExpense_pos _ _ _) fun shift hout => ?_).refresh
  have hids : persisted.bind Expense.shift ≠ some shift ∧ row.shift ≠ some shift := by
    unfold lockedShiftIds at hout
    rw [List.mem_mergeSort, List.mem_dedup, List.mem_append, Option.mem_toList,
      Option.mem_toList] at hout
    exact ⟨fun hold => hout (.inl hold), fun hnew => hout (.inr hnew)⟩
  unfold spentCash
  rw [saveExpense_pos]
  cases hid : r.expense.id with
  | none =>
    change (((b.expenses ++ [row]).filter _).map Expense.amount).sum = _
    rw [List.filter_append, List.filter_cons_of_neg (by simp [spendsCash_of_ne hids.2]),
      List.filter_nil, List.append_nil]
  | some i =>
    rw [hid] at hpersisted
    change (((b.expenses.modify i fun _ => row).filter _).map Expense.amount).sum = _
    rw [filter_modify_of_not]
    intro x hx
    rw [hpersisted.1, hx] at hids
    exact ⟨spendsCash_of_ne hids.1, spendsCash_of_ne hids.2⟩

lemma aligned_setExpenseStatus {c : Call} {expense : ℕ} {status : ExpenseStatus}
    {approvedBy : Option ℕ} {b : Books} {row : Expense}
    (hcheck : checkExpenseStatus c expense status b = .ok row) (h : ClosedShiftsAligned b) :
    ClosedShiftsAligned (refreshClosedShiftSnapshots row.shift.toList { b with
      expenses := b.expenses.modify expense (statusExpense status approvedBy) }) := by
  unfold checkExpenseStatus at hcheck
  simp only [except_bind_eq_ok, found_eq_ok, pure, Except.pure, Except.ok.injEq] at hcheck
  obtain ⟨-, -, row', hrow, -, -, rfl⟩ := hcheck
  refine AlignedExcept.refresh (h.except rfl fun shift hout => ?_)
  rw [Option.mem_toList] at hout
  unfold spentCash
  dsimp only
  rw [filter_modify_of_not]
  intro x hx
  obtain rfl : row' = x := Option.some.inj (hrow.symm.trans hx)
  exact ⟨spendsCash_of_ne hout, spendsCash_of_ne hout⟩

/-! ## Closing -/

/-- The counted cash lies half way between two thousandths, and on the other side of zero than
its difference to what was expected. -/
def CrossesZero (actual : ℚ) (expected : ℤ) : Prop :=
  Rounding.IsTie (actual * 1000) ∧ (0 < actual ↔ actual < dec expected)

lemma money_sub_dec_iff (actual : ℚ) (expected : ℤ) :
    money (actual - dec expected) = money actual - expected ↔ ¬ CrossesZero actual expected := by
  have hsub : (actual - dec expected) * 10 ^ 3 = actual * 10 ^ 3 - (expected : ℚ) := by
    rw [sub_mul, dec_mul_thousand]
  have hthousand : actual * 10 ^ 3 = actual * 1000 := by norm_num
  have hneg : actual * 1000 < 0 ↔ actual < 0 := by constructor <;> intro h <;> linarith
  have hlt : actual * 1000 < (expected : ℚ) ↔ actual < dec expected := by
    unfold dec
    rw [lt_div_iff₀ (by norm_num)]
  unfold money quantize CrossesZero
  rw [hsub, hthousand, Rounding.roundHalfAway_sub_intCast_iff, hneg, hlt, not_and]
  refine forall_congr' fun htie => ?_
  have hne : actual ≠ 0 := by
    rintro rfl
    unfold Rounding.IsTie at htie
    norm_num at htie
  rcases lt_or_gt_of_ne hne with h | h
  · simp [h, not_lt.mpr h.le]
  · simp [h, not_lt.mpr h.le]

/-! ## One request -/

/-- The request voids a sale that was paid in cash during a shift that is closed by now. -/
def BooksOp.VoidsClosedCash (op : BooksOp) (b : Books) : Prop :=
  match op with
  | .pos op => ∃ sale, op.op.Voids b.pos sale ∧
      ∃ (shift : ℕ) (x : Shift), b.pos.tenant.shifts[shift]? = some x ∧ x.isClosed = true ∧
        HasCashOf b.pos shift sale
  | _ => False

/-- The request closes a shift with counted cash that rounds across zero. -/
def BooksOp.ClosesAcrossZero (op : BooksOp) (b : Books) : Prop :=
  match op with
  | .closeShift c shift actualCash => ∃ row actual,
      checkCloseShift c shift actualCash b = .ok (row, actual) ∧
        CrossesZero actual (shiftTotals b shift row).expectedCash
  | _ => False

/-- A request that changes a drawer behind stored figures, or stores figures that do not add
up. -/
def BooksOp.Misstates (op : BooksOp) (b : Books) : Prop :=
  op.VoidsClosedCash b ∨ op.ClosesAcrossZero b

lemma not_misstates {b : Books} {op : BooksOp} (hpos : ∀ x, op ≠ .pos x)
    (hclose : ∀ c shift actualCash, op ≠ .closeShift c shift actualCash) : ¬ op.Misstates b := by
  rintro (h | h)
  · cases op with
    | pos x => exact hpos x rfl
    | _ => exact h
  · cases op with
    | closeShift c shift actualCash => exact hclose c shift actualCash rfl
    | _ => exact h

/-- A request that misstates something is accepted. -/
lemma BooksOp.Misstates.accepted {b : Books} {op : BooksOp} (h : op.Misstates b) :
    op.Accepted b := by
  rcases h with h | h
  · cases op with
    | pos x =>
      obtain ⟨sale, ⟨c, -, haccepted⟩, -⟩ := h
      exact accepted_pos haccepted
    | _ => exact h.elim
  · cases op with
    | closeShift c shift actualCash =>
      obtain ⟨row, actual, hcheck, -⟩ := h
      exact accepted_closeShift hcheck
    | _ => exact h.elim

/-- A request of the point of sale keeps closed shifts aligned unless it voids their cash. -/
lemma aligned_pos {b b' : Books} {op : PosOp} (hb : FiledBooks b) (h : ClosedShiftsAligned b)
    (hpos : b'.pos = step b.pos op.op) (hexpenses : b'.expenses = b.expenses) :
    ClosedShiftsAligned b' ↔ ¬ (BooksOp.pos op).VoidsClosedCash b := by
  have hrows : b'.pos.tenant.shifts = b.pos.tenant.shifts := by
    rw [hpos]
    exact op.shifts_eq b.pos
  constructor
  · rintro hafter ⟨sale, hvoids, shift, x, hx, hclosed, hcash⟩
    have hdrawer := drawerCash_voids hb.pos hb.expense hpos hexpenses (not_isOpenShift hx hclosed)
      hvoids
    have hne := (cashOfSale_pos_iff hb.pos shift sale).mpr hcash
    obtain ⟨hbefore, -⟩ := h shift x hx hclosed
    obtain ⟨hnow, -⟩ := hafter shift x (by rw [hrows, hx]) hclosed
    rw [expectedCash_eq] at hbefore hnow
    omega
  · intro hnone shift x hx hclosed
    rw [hrows] at hx
    have hopen := not_isOpenShift hx hclosed
    refine (h shift x hx hclosed).congr ?_ rfl rfl rfl rfl
    by_cases hvoids : ∃ sale, op.op.Voids b.pos sale
    · obtain ⟨sale, hvoids⟩ := hvoids
      have hzero : cashOfSale b.pos shift sale = 0 := by
        by_contra hne
        exact hnone ⟨sale, hvoids, shift, x, hx, hclosed, (cashOfSale_pos_iff hb.pos _ _).mp hne⟩
      rw [drawerCash_voids hb.pos hb.expense hpos hexpenses hopen hvoids, hzero, sub_zero]
    · exact drawerCash_step hb.pos hb.expense hpos hexpenses hopen (not_exists.mp hvoids)

/-- Rewriting one shift whose drawer is as it was: what has to be checked is that shift. -/
lemma aligned_updateShift {b : Books} {shift : ℕ} {f : Shift → Shift} {row : Shift}
    (h : ClosedShiftsAligned b) (hrow : b.pos.tenant.shifts[shift]? = some row) :
    ClosedShiftsAligned { b with pos := updateShift shift f b.pos } ↔
      ((f row).isClosed = true → (f row).Aligned b shift) := by
  constructor
  · intro hafter hclosed
    have hself : (b.pos.tenant.shifts.modify shift f)[shift]? = some (f row) := by
      rw [List.getElem?_modify_eq, hrow]
      rfl
    exact (hafter shift (f row) hself hclosed).congr rfl rfl rfl rfl rfl
  · intro hself k y hy hclosed
    obtain ⟨x, hx, rfl⟩ := getElem?_modify_eq_some.mp hy
    by_cases hk : shift = k
    · subst hk
      obtain rfl : row = x := Option.some.inj (hrow.symm.trans hx)
      rw [if_pos rfl] at hclosed ⊢
      exact (hself hclosed).congr rfl rfl rfl rfl rfl
    · rw [if_neg hk] at hclosed ⊢
      exact (h k x hx hclosed).congr rfl rfl rfl rfl rfl

/-- The row a closing stores is aligned unless the counted cash rounds across zero. -/
lemma closedShift_aligned_iff {c : Call} {b : Books} {shift : ℕ} {row : Shift} {actual : ℚ} :
    (closedShift c (shiftTotals b shift row).expectedCash actual row).Aligned b shift ↔
      ¬ CrossesZero actual (shiftTotals b shift row).expectedCash := by
  rw [← money_sub_dec_iff]
  constructor
  · rintro ⟨-, stored, hstored, hdifference⟩
    obtain rfl : money actual = stored := Option.some.inj hstored
    exact hdifference
  · exact fun hdifference => ⟨rfl, money actual, rfl, hdifference⟩

/-- **One request.**  It keeps the closed shifts aligned exactly if it misstates nothing. -/
lemma aligned_step {b : Books} (op : BooksOp) (hb : FiledBooks b) (h : ClosedShiftsAligned b) :
    ClosedShiftsAligned (b.step op) ↔ ¬ op.Misstates b := by
  by_cases haccepted : op.Accepted b
  · cases booksStep haccepted with
    | @pos op _ hpos hexpenses =>
      rw [aligned_pos hb h hpos hexpenses]
      exact not_congr ⟨Or.inl, fun hor => hor.resolve_right id⟩
    | @opened c register openingCash row hcheck hstep =>
      refine iff_of_true ?_ (not_misstates (fun _ => nofun) (fun _ _ _ => nofun))
      obtain ⟨-, -, hopen, -⟩ := checkOpenShift_ok hcheck
      rw [hstep]
      intro shift x hx hclosed
      rcases getElem?_concat_eq_some.mp hx with hx | ⟨-, rfl⟩
      · exact (h shift x hx hclosed).congr rfl rfl rfl rfl rfl
      · exact absurd hopen (Shift.isClosed_iff.mp hclosed)
    | @closed c shift actualCash row actual hcheck hstep =>
      obtain ⟨hrow, -⟩ := checkCloseShift_ok hcheck
      rw [hstep, aligned_updateShift h hrow]
      have hmisstates : (BooksOp.closeShift c shift actualCash).Misstates b ↔
          CrossesZero actual (shiftTotals b shift row).expectedCash := by
        constructor
        · rintro (hvoid | ⟨row', actual', hcheck', hcrosses⟩)
          · exact hvoid.elim
          · rw [hcheck] at hcheck'
            cases hcheck'
            exact hcrosses
        · exact fun hcrosses => .inr ⟨row, actual, hcheck, hcrosses⟩
      rw [hmisstates, ← closedShift_aligned_iff (c := c)]
      exact ⟨fun hself => hself rfl, fun hself _ => hself⟩
    | @approved c shift hcheck hstep =>
      refine iff_of_true ?_ (not_misstates (fun _ => nofun) (fun _ _ _ => nofun))
      obtain ⟨row, hrow, hstatus⟩ := checkApproveShift_ok hcheck
      rw [hstep, aligned_updateShift h hrow]
      intro _
      have hclosed : row.isClosed = true := by simp [Shift.isClosed, hstatus]
      exact (h shift row hrow hclosed).congr rfl rfl rfl rfl rfl
    | @reopened c shift row hcheck hstep =>
      refine iff_of_true ?_ (not_misstates (fun _ => nofun) (fun _ _ _ => nofun))
      obtain ⟨-, hrow, -⟩ := checkReopenShift_ok hcheck
      rw [hstep, aligned_updateShift h hrow]
      intro hclosed
      exact absurd rfl (Shift.isClosed_iff.mp hclosed)
    | saved hcheck hstep =>
      refine iff_of_true ?_ (not_misstates (fun _ => nofun) (fun _ _ _ => nofun))
      rw [hstep]
      exact aligned_saveExpense hcheck h
    | status hcheck hstep =>
      refine iff_of_true ?_ (not_misstates (fun _ => nofun) (fun _ _ _ => nofun))
      rw [hstep]
      exact aligned_setExpenseStatus hcheck h
  · rw [Books.step_of_not_accepted haccepted]
    exact iff_of_true h fun hmisstates => haccepted hmisstates.accepted

/-- The books along a run are sound. -/
lemma filedBooks_history (ops : List BooksOp) : FiledBooks (Books.history ops) := by
  refine Trace.invariant (fun b op => filedBooks_step op) ⟨filed_empty, fun x hx => ?_⟩ ops
  exact absurd hx List.not_mem_nil

/-- All along a run, the stored figures of every closed or approved shift are those of its
drawer, exactly if no request voids a sale that was paid in cash during such a shift and none
closes a shift with counted cash that rounds across zero. -/
theorem closedShiftsAligned_iff (ops : List BooksOp) :
    (∀ n, ClosedShiftsAligned (Books.history (ops.take n))) ↔
      Trace.All Books.step (fun b op => ¬ op.Misstates b) {} ops := by
  have hstep : ∀ (b : Books) (op : BooksOp), FiledBooks b ∧ ClosedShiftsAligned b →
      ((FiledBooks (b.step op) ∧ ClosedShiftsAligned (b.step op)) ↔ ¬ op.Misstates b) := by
    rintro b op ⟨hfiled, haligned⟩
    rw [← aligned_step op hfiled haligned]
    exact and_iff_right (filedBooks_step op hfiled)
  have hempty : FiledBooks {} ∧ ClosedShiftsAligned {} :=
    ⟨filedBooks_history [], fun shift x hx => nomatch hx⟩
  rw [← Trace.invariant_iff_all hstep hempty ops]
  refine forall_congr' fun n => ?_
  exact (and_iff_right (filedBooks_history (ops.take n))).symm

/-! ## A void after the closing -/

/-- A sale for ten in cash, the drawer closed with ten counted, and then the sale voided. -/
def voidedAfterClosing : List BooksOp := [
  .pos ⟨.saveMasterData (.branch none { name := ['S'], code := ['S'] }), by decide⟩,
  .pos ⟨.saveMasterData (.warehouse none { name := ['A'], code := ['A'], branch := some 0 }), rfl⟩,
  .pos ⟨.saveMasterData (.register none { branch := 0 }), by decide⟩,
  .pos ⟨.saveMasterData (.customer none { homeBranch := some 0 }), rfl⟩,
  .pos ⟨.saveMasterData (.paymentMethod none { kind := .cash }), rfl⟩,
  .pos ⟨.saveMasterData (.product none { name := "item", salePrice := 10000 }), rfl⟩,
  .pos ⟨.ensureBranchOpeningStock Shop.call ⟨0, 0, none⟩ 10 1, rfl⟩,
  .openShift Shop.call 0 (.number ⟨0, 0⟩),
  .pos ⟨Shop.sell 1 [{ method := 0, amount := 10 }], rfl⟩,
  .closeShift Shop.call 0 (.number ⟨10, 0⟩),
  .pos ⟨.voidSale Shop.call 0, rfl⟩]

/-- The stored figures still hold the ten that the drawer no longer has. -/
theorem voidedAfterClosing_misaligned : ¬ ∀ ops, ClosedShiftsAligned (Books.history ops) := by
  intro h
  let b := Books.history voidedAfterClosing
  have hrow : (b.pos.tenant.shifts[0]?.map fun x => (x.isClosed, x.expectedCash,
      (shiftTotals b 0 x).expectedCash)) = some (true, 10000, 0) := by decide +kernel
  obtain ⟨x, hx, hfigures⟩ := Option.map_eq_some_iff.mp hrow
  simp only [Prod.mk.injEq] at hfigures
  obtain ⟨hclosed, hstored, hnow⟩ := hfigures
  obtain ⟨haligned, -⟩ := h voidedAfterClosing 0 x hx hclosed
  change x.expectedCash = (shiftTotals b 0 x).expectedCash at haligned
  omega

end NexaPos
