import NexaPos.Books
import NexaPos.Lib.UniqueWhere

/-!
# Who holds an open shift

A register and a cashier should each have at most one open shift.  Opening checks both, and the
database has a constraint for registers.  Opening a shift again checks the register only
(`checkReopenShift_ok`): when the cashier has gone on to another register meanwhile, both of
their shifts are open afterwards.  Nothing else breaks either rule
(`shiftsExclusive_iff`).
-/

namespace NexaPos

open Tx

/-- A row rewritten so that the shift stays where it is, with its cashier, and does not open. -/
def Shift.Settles (x y : Shift) : Prop :=
  y.register = x.register ∧ y.cashier = x.cashier ∧ (y.status = .opened → x.status = .opened)

lemma Shift.Settles.refl (x : Shift) : x.Settles x := ⟨rfl, rfl, id⟩

lemma Shift.Settles.trans {x y z : Shift} (h : x.Settles y) (h' : y.Settles z) : x.Settles z :=
  ⟨h'.1.trans h.1, h'.2.1.trans h.2.1, h.2.2 ∘ h'.2.2⟩

/-- The shifts of two tables, one after the other. -/
def Settled (rows rows' : List Shift) : Prop := List.Forall₂ Shift.Settles rows rows'

lemma settled_of_eq {rows rows' : List Shift} (h : rows' = rows) : Settled rows rows' := by
  rw [h]
  exact List.forall₂_same.mpr fun x _ => .refl x

lemma Settled.trans {rows rows' rows'' : List Shift} (h : Settled rows rows')
    (h' : Settled rows' rows'') : Settled rows rows'' := by
  induction h generalizing rows'' with
  | nil => exact h'
  | cons hxy _ ih =>
    obtain ⟨z, rest, hyz, hrest, rfl⟩ := List.forall₂_cons_left_iff.mp h'
    exact .cons (hxy.trans hyz) (ih hrest)

/-- One row rewritten so that it does not open. -/
lemma settled_modify {rows : List Shift} {shift : ℕ} {f : Shift → Shift}
    (h : ∀ x, rows[shift]? = some x → x.Settles (f x)) : Settled rows (rows.modify shift f) := by
  induction rows generalizing shift with
  | nil => simp [Settled]
  | cons x rows ih =>
    cases shift with
    | zero => exact .cons (h x rfl) (settled_of_eq rfl)
    | succ shift => exact .cons (.refl x) (ih fun y hy => h y hy)

/-- The stored figures of shifts say nothing about who holds them. -/
lemma settled_refresh (shifts : List ℕ) (b : Books) :
    Settled b.pos.tenant.shifts (refreshClosedShiftSnapshots shifts b).pos.tenant.shifts := by
  unfold refreshClosedShiftSnapshots
  induction shifts generalizing b with
  | nil => exact settled_of_eq rfl
  | cons shift shifts ih =>
    rw [List.foldl_cons]
    refine (settled_modify fun x _ => ?_).trans
      (ih { b with pos := updateShift shift (refreshedShift b shift) b.pos })
    obtain ⟨hstatus, hregister, hcashier, -, -⟩ := refreshedShift_kept b shift x
    exact ⟨hregister, hcashier, fun h => hstatus ▸ h⟩

/-- Everything a request can do to who holds which shift. -/
inductive ShiftsStep (b : Books) (rows : List Shift) : BooksOp → Prop
  | settled {op : BooksOp} (h : Settled b.pos.tenant.shifts rows)
      (hop : ∀ c shift, op = .reopenShift c shift → ¬ op.Accepted b) : ShiftsStep b rows op
  | opened {c : Call} {register : ℕ} {openingCash : Cell} {row : Shift}
      (h : checkOpenShift c register openingCash b.pos = .ok row)
      (hrows : rows = b.pos.tenant.shifts ++ [row]) :
      ShiftsStep b rows (.openShift c register openingCash)
  | reopened {c : Call} {shift : ℕ} {row : Shift} (h : checkReopenShift c shift b.pos = .ok row)
      (hrows : rows = b.pos.tenant.shifts.modify shift reopenedShift) :
      ShiftsStep b rows (.reopenShift c shift)

theorem shiftsStep (b : Books) (op : BooksOp) :
    ShiftsStep b (b.step op).pos.tenant.shifts op := by
  by_cases haccepted : op.Accepted b
  · cases booksStep haccepted with
    | @pos op _ hpos _ =>
      refine .settled (settled_of_eq ?_) (fun _ _ => nofun)
      rw [hpos]
      exact op.shifts_eq b.pos
    | opened hcheck h => exact .opened hcheck (by rw [h])
    | closed hcheck h =>
      rw [h]
      refine .settled (settled_modify fun x _ => ⟨rfl, rfl, ?_⟩) (fun _ _ => nofun)
      exact fun h => nomatch h
    | approved hcheck h =>
      rw [h]
      refine .settled (settled_modify fun x _ => ⟨rfl, rfl, ?_⟩) (fun _ _ => nofun)
      exact fun h => nomatch h
    | reopened hcheck h => exact .reopened hcheck (by rw [h]; rfl)
    | @saved c r persisted row hcheck h =>
      have hrefresh := settled_refresh (lockedShiftIds persisted row)
        (saveExpense r.expense.id row b)
      rw [saveExpense_pos] at hrefresh
      rw [h]
      exact .settled hrefresh (fun _ _ => nofun)
    | @status c expense status approvedBy row hcheck h =>
      have hrefresh := settled_refresh row.shift.toList { b with
        expenses := b.expenses.modify expense (statusExpense status approvedBy) }
      rw [h]
      exact .settled hrefresh (fun _ _ => nofun)
  · rw [Books.step_of_not_accepted haccepted]
    exact .settled (settled_of_eq rfl) (fun _ _ _ => haccepted)

/-! ## Exclusive shifts -/

/-- The shift is open. -/
def Shift.IsOpen (x : Shift) : Prop := x.status = .opened

/-- At most one open shift a register and at most one a cashier, so that `get_open_shift` never
has to choose. -/
structure ShiftsExclusive (s : State) : Prop where
  register : UniqueWhere Shift.IsOpen Shift.register s.tenant.shifts
  cashier : UniqueWhere Shift.IsOpen Shift.cashier s.tenant.shifts
  unambiguous : ∀ user register membership, (openShifts s user register membership).length ≤ 1

/-- The two rules settle the search. -/
lemma ShiftsExclusive.of_unique {s : State}
    (hregister : UniqueWhere Shift.IsOpen Shift.register s.tenant.shifts)
    (hcashier : UniqueWhere Shift.IsOpen Shift.cashier s.tenant.shifts) : ShiftsExclusive s where
  register := hregister
  cashier := hcashier
  unambiguous user register membership := by
    unfold openShifts
    cases register with
    | none =>
      refine hcashier.length_filter_le_one (b := user) fun e he => ?_
      simp only [Bool.and_eq_true, decide_eq_true_eq] at he
      exact ⟨he.1.1.1, he.1.2⟩
    | some register =>
      refine hregister.length_filter_le_one (b := register) fun e he => ?_
      simp only [Bool.and_eq_true, decide_eq_true_eq] at he
      exact ⟨he.1.1.1, he.1.2⟩

lemma hasOpenShift_eq_false {s : State} {p : Shift → Bool} :
    hasOpenShift s p = false ↔ ∀ x ∈ s.tenant.shifts, x.IsOpen → p x = false := by
  unfold hasOpenShift Shift.IsOpen
  simp only [List.any_eq_false, Bool.and_eq_true, decide_eq_true_eq, not_and, Bool.not_eq_true]

/-- The request is accepted and opens a shift again whose cashier has an open shift. -/
def BooksOp.DoublesCashier (op : BooksOp) (b : Books) : Prop :=
  match op with
  | .reopenShift c shift =>
    ∃ row, checkReopenShift c shift b.pos = .ok row ∧
      hasOpenShift b.pos (fun x => x.cashier = row.cashier) = true
  | _ => False

/-- Rows that settle keep any rule about open shifts of a register or a cashier. -/
lemma unique_of_settled {rows rows' : List Shift} {g : Shift → ℕ}
    (hg : ∀ x y : Shift, x.Settles y → g y = g x) (h : UniqueWhere Shift.IsOpen g rows)
    (hrows : Settled rows rows') : UniqueWhere Shift.IsOpen g rows' :=
  h.of_forall₂ (hrows.imp fun x y hxy hopen => ⟨hxy.2.2 hopen, hg x y hxy⟩)

lemma shiftsExclusive_step (b : Books) (op : BooksOp) (h : ShiftsExclusive b.pos) :
    ShiftsExclusive (b.step op).pos ↔ ¬ op.DoublesCashier b := by
  have hnot : ∀ {op : BooksOp}, (∀ c shift, op ≠ .reopenShift c shift) →
      ¬ op.DoublesCashier b := by
    intro op hop
    cases op with
    | reopenShift c shift => exact absurd rfl (hop c shift)
    | _ => exact id
  cases shiftsStep b op with
  | settled hrows hop =>
    have hafter : ShiftsExclusive (b.step op).pos :=
      .of_unique (unique_of_settled (fun _ _ hxy => hxy.1) h.register hrows)
        (unique_of_settled (fun _ _ hxy => hxy.2.1) h.cashier hrows)
    refine iff_of_true hafter fun hdoubles => ?_
    cases op with
    | reopenShift c shift =>
      obtain ⟨row, hcheck, -⟩ := hdoubles
      exact hop c shift rfl (accepted_reopenShift hcheck)
    | _ => exact hdoubles
  | @opened c register openingCash row hcheck hrows =>
    obtain ⟨hregister, hcashier, -, hfree, hown⟩ := checkOpenShift_ok hcheck
    rw [hasOpenShift_eq_false] at hfree hown
    refine iff_of_true (.of_unique ?_ ?_) (hnot fun _ _ => nofun)
    · rw [hrows]
      refine h.register.append fun x hx hopen hsame => ?_
      have := hfree x hx hopen
      rw [hsame, hregister] at this
      simp at this
    · rw [hrows]
      refine h.cashier.append fun x hx hopen hsame => ?_
      have := hown x hx hopen
      rw [hsame, hcashier] at this
      simp at this
  | @reopened c shift row hcheck hrows =>
    obtain ⟨-, hrow, hclosed, hfree⟩ := checkReopenShift_ok hcheck
    rw [hasOpenShift_eq_false] at hfree
    have hregister : UniqueWhere Shift.IsOpen Shift.register
        (b.pos.tenant.shifts.modify shift reopenedShift) := by
      rw [uniqueWhere_modify_iff (f := reopenedShift) h.register hrow hclosed rfl rfl]
      exact fun x hx hopen => of_decide_eq_false (hfree x hx hopen)
    have hcashier := uniqueWhere_modify_iff (f := reopenedShift) h.cashier hrow hclosed rfl rfl
    have hdoubles : (BooksOp.reopenShift c shift).DoublesCashier b ↔
        hasOpenShift b.pos (fun x => x.cashier = row.cashier) = true := by
      constructor
      · rintro ⟨row', hcheck', hopen⟩
        obtain rfl : row = row' := Except.ok.inj (hcheck.symm.trans hcheck')
        exact hopen
      · exact fun hopen => ⟨row, hcheck, hopen⟩
    rw [hdoubles, Bool.not_eq_true, hasOpenShift_eq_false]
    constructor
    · intro hafter x hx hopen
      have hother := hafter.cashier
      rw [hrows, hcashier] at hother
      exact decide_eq_false (hother x hx hopen)
    · intro hnone
      refine .of_unique (by rw [hrows]; exact hregister) ?_
      rw [hrows, hcashier]
      exact fun x hx hopen => of_decide_eq_false (hnone x hx hopen)

/-- An approved shift that is open after a request was reopened by that request, by a member who
may reopen shifts. -/
lemma reopened_of_opens {b : Books} {op : BooksOp} {shift : ℕ} {x y : Shift}
    (hx : b.pos.tenant.shifts[shift]? = some x)
    (hy : (b.step op).pos.tenant.shifts[shift]? = some y) (hclosed : ¬ x.IsOpen)
    (hopen : y.IsOpen) :
    ∃ c, op = .reopenShift c shift ∧ c.actor.allows .posCore "shifts.reopen" = true := by
  cases shiftsStep b op with
  | settled hrows hop =>
    obtain ⟨hlt, rfl⟩ := List.getElem?_eq_some_iff.mp hx
    obtain ⟨hlt', rfl⟩ := List.getElem?_eq_some_iff.mp hy
    exact absurd ((hrows.get hlt hlt').2.2 hopen) hclosed
  | opened hcheck hrows =>
    rw [hrows, List.getElem?_append_left (List.getElem?_eq_some_iff.mp hx).1, hx] at hy
    exact absurd (Option.some.inj hy ▸ hopen) hclosed
  | @reopened c reopened row hcheck hrows =>
    obtain ⟨hallowed, -⟩ := checkReopenShift_ok hcheck
    by_cases hsame : reopened = shift
    · subst hsame
      exact ⟨c, rfl, hallowed⟩
    · rw [hrows, List.getElem?_modify_ne _ _ hsame, hx] at hy
      exact absurd (Option.some.inj hy ▸ hopen) hclosed

/-- Shifts stay exclusive all along a run exactly if no request of it opens a shift again whose
cashier has an open one; and an approved shift opens again only by being reopened. -/
theorem shiftsExclusive_iff (ops : List BooksOp) :
    ((∀ n, ShiftsExclusive (Books.history (ops.take n)).pos) ↔
      Trace.All Books.step (fun b op => ¬ op.DoublesCashier b) {} ops) ∧
    ∀ op shift x y, (Books.history ops).pos.tenant.shifts[shift]? = some x →
      (Books.history (ops ++ [op])).pos.tenant.shifts[shift]? = some y →
      x.status = .approved → y.status = .opened →
      ∃ c, op = .reopenShift c shift ∧ c.actor.allows .posCore "shifts.reopen" = true := by
  constructor
  · refine Trace.invariant_iff_all (I := fun b : Books => ShiftsExclusive b.pos)
      shiftsExclusive_step ?_ ops
    exact .of_unique uniqueWhere_nil uniqueWhere_nil
  · intro op shift x y hx hy happroved hopened
    have hlast : Books.history (ops ++ [op]) = (Books.history ops).step op := Trace.run_append _ _
    rw [hlast] at hy
    refine reopened_of_opens hx hy ?_ hopened
    intro hopen
    rw [Shift.IsOpen, happroved] at hopen
    exact nomatch hopen

/-- A cashier closes a shift, opens one on another register, and has the first one reopened. -/
def movedCashier : List BooksOp := [
  .pos ⟨.saveMasterData (.branch none { name := ['S'], code := ['S'] }), rfl⟩,
  .pos ⟨.saveMasterData (.register none { branch := 0 }), rfl⟩,
  .pos ⟨.saveMasterData (.register none { branch := 0 }), rfl⟩,
  .openShift Shop.call 0 (.number ⟨0, 0⟩),
  .closeShift Shop.call 0 (.number ⟨0, 0⟩),
  .openShift Shop.call 1 (.number ⟨0, 0⟩),
  .reopenShift Shop.call 0]

/-- The cashier then has two open shifts. -/
theorem movedCashier_two_open :
    ¬ ∀ ops, ShiftsExclusive (Books.history ops).pos := by
  intro h
  have htwo : (openShifts (Books.history movedCashier).pos 1 none none).length = 2 := by decide
  have hone := (h movedCashier).unambiguous 1 none none
  omega

end NexaPos
