import NexaPos.Properties.RecurringExpenses
import NexaPos.Reports.Expenses

/-!
# Projected fixed expenses

What a generation over a range of months adds is what the report shows for these months before,
template by template and month by month, with one exception: the generation looks at whole months,
so that a template that starts in the last month, but only after the range, has its expense
generated and not projected.

The books are any books whose expense numbers are unique.
-/

namespace NexaPos.Recurring

open Tx
open Wms (Date monthDays)

variable {b b' b'' : ExpenseBook}

/-! ## What a generation adds -/

/-- The branch that `_generation_branch` finds. -/
def branchOf (b : ExpenseBook) (t : RecurringExpenseTemplate) : ℕ :=
  (generationBranch b t).toOption.getD 0

lemma branchOf_eq {t : RecurringExpenseTemplate} {branch : ℕ}
    (h : generationBranch b t = .ok branch) : branchOf b t = branch := by
  rw [branchOf, h]
  rfl

/-- The expense of a template for a month, if there is none yet. -/
def newRow (b : ExpenseBook) (month : Date) (x : RecurringExpenseTemplate × ℕ) : Option Expense :=
  if b.expenses.any (·.isFor x.2 month) then none
  else some (generatedExpense x.1 x.2 month (dueDate x.1 month) (branchOf b x.1))

lemma newRow_eq_some {month : Date} {x : RecurringExpenseTemplate × ℕ} {e : Expense} :
    newRow b month x = some e ↔ (∀ row ∈ b.expenses, row.isFor x.2 month = false) ∧
      e = generatedExpense x.1 x.2 month (dueDate x.1 month) (branchOf b x.1) := by
  unfold newRow
  split_ifs with h
  · obtain ⟨row, hrow, hfor⟩ := List.any_eq_true.mp h
    constructor
    · exact fun h => nomatch h
    · rintro ⟨hnone, -⟩
      rw [hnone row hrow] at hfor
      exact nomatch hfor
  · rw [List.any_eq_true] at h
    push Not at h
    constructor
    · intro he
      exact ⟨fun row hrow => Bool.eq_false_of_not_eq_true (h row hrow), (Option.some.inj he).symm⟩
    · rintro ⟨-, rfl⟩
      rfl

lemma isFor_generatedExpense {t : RecurringExpenseTemplate} {pk pk' branch : ℕ}
    {month month' due : Date} :
    (generatedExpense t pk month due branch).isFor pk' month' = true ↔
      pk = pk' ∧ month = month' := by
  simp [Expense.isFor, generatedExpense]

/-- The second book is the first with the expenses of the templates and months that are asked for,
where there were none. -/
structure Added (asked : Date → RecurringExpenseTemplate × ℕ → Prop) (b b' : ExpenseBook) :
    Prop where
  rows : ∃ new, b' = { b with expenses := b.expenses ++ new } ∧
    ∀ e, e ∈ new ↔ ∃ month x, asked month x ∧ newRow b month x = some e
  numbers : (b'.expenses.map (·.expenseNumber)).Nodup

namespace Added

variable {asked asked' : Date → RecurringExpenseTemplate × ℕ → Prop}

lemma refl (h : (b.expenses.map (·.expenseNumber)).Nodup)
    (hnone : ∀ month x, ¬ asked month x) : Added asked b b where
  rows := ⟨[], by simp, fun e => by simp [hnone]⟩
  numbers := h

lemma congr (h : Added asked b b') (heq : ∀ month x, asked' month x ↔ asked month x) :
    Added asked' b b' where
  rows := by
    obtain ⟨new, hnew, hmem⟩ := h.rows
    exact ⟨new, hnew, fun e => by simp only [heq, hmem]⟩
  numbers := h.numbers

lemma applicable_eq (h : Added asked b b') (first last : Date) :
    b'.applicable first last = b.applicable first last := by
  obtain ⟨new, rfl, -⟩ := h.rows
  rfl

lemma generationBranch_eq (h : Added asked b b') (t : RecurringExpenseTemplate) :
    generationBranch b' t = generationBranch b t := by
  obtain ⟨new, rfl, -⟩ := h.rows
  rfl

/-- What was not asked for is as new as before. -/
lemma newRow_eq (h : Added asked b b') {month : Date} {x : RecurringExpenseTemplate × ℕ}
    (hother : ∀ month' y, asked month' y → ¬ (y.2 = x.2 ∧ month' = month)) :
    newRow b' month x = newRow b month x := by
  obtain ⟨new, rfl, hmem⟩ := h.rows
  have hnone : new.any (·.isFor x.2 month) = false := by
    refine List.any_eq_false.mpr fun e he hfor => ?_
    obtain ⟨month', y, hasked, hy⟩ := (hmem e).mp he
    obtain rfl := (newRow_eq_some.mp hy).2
    exact hother month' y hasked (isFor_generatedExpense.mp hfor)
  show (if (b.expenses ++ new).any (·.isFor x.2 month) then _ else _) = _
  rw [List.any_append, hnone, Bool.or_false]
  rfl

lemma trans (h : Added asked b b') (h' : Added asked' b' b'')
    (hother : ∀ month x month' y, asked month x → asked' month' y →
      ¬ (x.2 = y.2 ∧ month = month')) :
    Added (fun month x => asked month x ∨ asked' month x) b b'' where
  rows := by
    have hrow : ∀ {month x}, asked' month x → newRow b' month x = newRow b month x :=
      fun hx => h.newRow_eq fun month' y hy => hother month' y _ _ hy hx
    obtain ⟨new, rfl, hmem⟩ := h.rows
    obtain ⟨new', rfl, hmem'⟩ := h'.rows
    refine ⟨new ++ new', by rw [List.append_assoc], fun e => ?_⟩
    rw [List.mem_append, hmem, hmem']
    constructor
    · rintro (⟨month, x, hx, he⟩ | ⟨month, x, hx, he⟩)
      · exact ⟨month, x, .inl hx, he⟩
      · exact ⟨month, x, .inr hx, by rwa [hrow hx] at he⟩
    · rintro ⟨month, x, hx | hx, he⟩
      · exact .inl ⟨month, x, hx, he⟩
      · exact .inr ⟨month, x, hx, by rwa [hrow hx]⟩
  numbers := h'.numbers

end Added

/-! ## One month -/

lemma getOrCreate_added {t : RecurringExpenseTemplate} {pk branch : ℕ} {month : Date}
    {created : Bool} (hnumbers : (b.expenses.map (·.expenseNumber)).Nodup)
    (hbranch : generationBranch b t = .ok branch)
    (hrun : Runs (getOrCreate pk month (generatedExpense t pk month (dueDate t month) branch))
      b created b') :
    Added (fun month' x => month' = month ∧ x = (t, pk)) b b' := by
  unfold getOrCreate at hrun
  simp only [runs_bind, runs_get] at hrun
  obtain ⟨read, stored, ⟨hread, hstored⟩, hrun⟩ := hrun
  rw [hread, hstored] at hrun
  have hbranchOf := branchOf_eq hbranch
  rcases hfilter : b.expenses.filter (·.isFor pk month) with _ | ⟨row, _ | ⟨_, _⟩⟩
  · rw [hfilter] at hrun
    simp only [runs_bind, runs_check, runs_modify, runs_pure] at hrun
    obtain ⟨_, _, ⟨hall, rfl⟩, _, _, rfl, -, rfl⟩ := hrun
    have hnone := List.filter_eq_nil_iff.mp hfilter
    refine ⟨⟨[_], rfl, fun e => ?_⟩, ?_⟩
    · rw [List.mem_singleton]
      constructor
      · rintro rfl
        refine ⟨month, (t, pk), ⟨rfl, rfl⟩, newRow_eq_some.mpr ⟨fun row hrow => ?_, ?_⟩⟩
        · exact Bool.eq_false_of_not_eq_true (hnone row hrow)
        · rw [hbranchOf]
      · rintro ⟨_, _, ⟨rfl, rfl⟩, he⟩
        rw [(newRow_eq_some.mp he).2, hbranchOf]
    · rw [List.map_append, List.map_singleton]
      refine List.nodup_append'.mpr ⟨hnumbers, List.nodup_singleton _, ?_⟩
      rw [List.disjoint_singleton]
      intro hmem
      obtain ⟨e, he, heq⟩ := List.mem_map.mp hmem
      exact of_decide_eq_true (List.all_eq_true.mp hall e he) heq
  · have hfound : row ∈ b.expenses.filter (·.isFor pk month) := by simp [hfilter]
    obtain ⟨hmem, hfor⟩ := List.mem_filter.mp hfound
    rw [hfilter] at hrun
    obtain ⟨-, rfl⟩ := runs_pure.mp hrun
    refine ⟨⟨[], by simp, fun e => ?_⟩, hnumbers⟩
    refine ⟨fun he => absurd he List.not_mem_nil, ?_⟩
    rintro ⟨_, _, ⟨rfl, rfl⟩, he⟩
    rw [(newRow_eq_some.mp he).1 row hmem] at hfor
    cases hfor
  · rw [hfilter] at hrun
    exact absurd hrun runs_throw

lemma generateOne_added {month : Date} (hmonth : IsMonth month)
    {x : RecurringExpenseTemplate × ℕ} {result r : RecurringGenerationResult}
    (hnumbers : (b.expenses.map (·.expenseNumber)).Nodup)
    (hrun : Runs (generateOne month (lastOf month).day result x) b r b') :
    Added (fun month' y => month' = month ∧ y = x) b b' := by
  have hdue : replaceDate month.year month.month (min x.1.dueDay (lastOf month).day) =
      .ok (dueDate x.1 month) := replaceDate_of_isDate (isDate_dueDate x.1 hmonth.1)
  unfold generateOne at hrun
  simp only [runs_bind, runs_reads, hdue] at hrun
  obtain ⟨branch, _, ⟨hbranch, rfl⟩, due, _, ⟨hok, rfl⟩, created, _, hcreate, hrest⟩ := hrun
  obtain rfl := Except.ok.inj hok
  have hadded := getOrCreate_added hnumbers hbranch hcreate
  split_ifs at hrest
  · obtain ⟨-, rfl⟩ := runs_pure.mp hrest
    exact hadded
  · obtain ⟨-, rfl⟩ := runs_pure.mp hrest
    exact hadded

/-- The loop over templates adds their expenses for the month, and finds their branches. -/
lemma generate_added {month : Date} (hmonth : IsMonth month)
    {xs : List (RecurringExpenseTemplate × ℕ)} (hxs : (xs.map (·.2)).Nodup)
    {result r : RecurringGenerationResult} (hnumbers : (b.expenses.map (·.expenseNumber)).Nodup)
    (hrun : Runs (xs.foldlM (generateOne month (lastOf month).day) result) b r b') :
    Added (fun month' x => month' = month ∧ x ∈ xs) b b' ∧ Placed b xs := by
  induction xs generalizing b result with
  | nil =>
    obtain ⟨-, rfl⟩ := runs_foldlM_nil.mp hrun
    exact ⟨Added.refl hnumbers (by simp), by simp [Placed]⟩
  | cons x xs ih =>
    obtain ⟨r₁, b₁, hone, hrest⟩ := runs_foldlM_cons.mp hrun
    rw [List.map_cons, List.nodup_cons] at hxs
    have hfirst := generateOne_added hmonth hnumbers hone
    obtain ⟨hadded, hplaced⟩ := ih hxs.2 hfirst.numbers hrest
    constructor
    · refine (hfirst.trans hadded ?_).congr fun month' y => ?_
      · rintro _ _ _ y ⟨-, rfl⟩ ⟨-, hy⟩ ⟨hpk, -⟩
        exact hxs.1 (hpk ▸ List.mem_map_of_mem hy)
      · rw [List.mem_cons, and_or_left]
    · intro y hy
      rcases List.mem_cons.mp hy with rfl | hy
      · exact generateOne_placed hone
      · obtain ⟨branch, hbranch⟩ := hplaced y hy
        exact ⟨branch, by rwa [hfirst.generationBranch_eq] at hbranch⟩

lemma nodup_applicable (first last : Date) : ((b.applicable first last).map (·.2)).Nodup := by
  refine List.Nodup.sublist (List.filter_sublist.map _) ?_
  rw [List.zipIdx_map_snd]
  exact List.nodup_range'

lemma month_added {c : Conditions} {month : Date} (hmonth : IsMonth month)
    {r : RecurringGenerationResult} (hnumbers : (b.expenses.map (·.expenseNumber)).Nodup)
    (hrun : Runs (ensureRecurringExpensesForMonth c month) b r b') :
    Added (fun month' x => month' = month ∧ x ∈ b.applicable month (lastOf month)) b b' ∧
      Placed b (b.applicable month (lastOf month)) := by
  obtain ⟨-, -, hloop⟩ := (month_runs_iff hmonth.1).mp hrun
  rw [monthOf_eq hmonth] at hloop
  exact generate_added hmonth (nodup_applicable _ _) hnumbers hloop

/-! ## A range of months -/

/-- The templates that are active in months of some kind. -/
def ActiveIn (b : ExpenseBook) (months : Date → Prop) (month : Date)
    (x : RecurringExpenseTemplate × ℕ) : Prop :=
  months month ∧ x ∈ b.applicable month (lastOf month)

/-- A loop over months that ends adds the expenses of each, and does not pass the last month that
there is. -/
lemma ensureMonths_added {c : Conditions} {n : ℕ} {current : Date} (hcurrent : IsMonth current)
    {result r : RecurringGenerationResult} (hnumbers : (b.expenses.map (·.expenseNumber)).Nodup)
    (hrun : ensureMonths c n current result b = (.ok r, b')) :
    Added (ActiveIn b (Counted (monthIndex current) n)) b b' ∧
      (∀ month x, ActiveIn b (Counted (monthIndex current) n) month x →
        ∃ branch, generationBranch b x.1 = .ok branch) ∧
      (n = 0 ∨ monthIndex current + n ≤ 120000) := by
  induction n generalizing current result b with
  | zero =>
    obtain ⟨-, rfl⟩ := Prod.mk.inj hrun
    have hnone : ∀ month x, ¬ ActiveIn b (Counted (monthIndex current) 0) month x := by
      rintro month x ⟨⟨-, hle, hlt⟩, -⟩
      omega
    exact ⟨Added.refl hnumbers hnone, fun month x hx => absurd hx (hnone month x), .inl rfl⟩
  | succ n ih =>
    rw [ensureMonths] at hrun
    cases hmonth : (ensureRecurringExpensesForMonth c current).run b with
    | error e =>
      rw [hmonth] at hrun
      cases hrun
    | ok out =>
      obtain ⟨r₁, b₁⟩ := out
      obtain ⟨hadded, hplaced⟩ := month_added hcurrent hnumbers hmonth
      simp only [hmonth] at hrun
      rcases nextMonth_eq hcurrent with ⟨next, hnext, hnextMonth, hindex, hlt⟩ | ⟨hnext, -⟩
      · simp only [hnext] at hrun
        obtain ⟨hadded', hplaced', hbound⟩ := ih hnextMonth hadded.numbers hrun
        have hactive : ∀ month x, ActiveIn b (Counted (monthIndex current) (n + 1)) month x ↔
            (month = current ∧ x ∈ b.applicable current (lastOf current)) ∨
              ActiveIn b₁ (Counted (monthIndex next) n) month x := by
          intro month x
          unfold ActiveIn
          rw [counted_succ hcurrent, hindex, hadded.applicable_eq, or_and_right]
          refine or_congr_left (and_congr_right ?_)
          rintro rfl
          rfl
        refine ⟨(hadded.trans hadded' ?_).congr hactive, fun month x hx => ?_, .inr (by omega)⟩
        · rintro _ x month' y ⟨rfl, -⟩ ⟨⟨-, hle, -⟩, -⟩ ⟨-, rfl⟩
          omega
        · rcases (hactive month x).mp hx with ⟨-, hx⟩ | hx
          · exact hplaced x hx
          · obtain ⟨branch, hbranch⟩ := hplaced' month x hx
            exact ⟨branch, by rwa [hadded.generationBranch_eq] at hbranch⟩
      · simp only [hnext] at hrun
        cases hrun

/-- A generation that ends over some dates adds the expenses of their months. -/
lemma range_added {c : Conditions} {dateFrom dateTo : CalendarDate} {maxMonths : ℕ}
    {r : RecurringGenerationResult} (hle : dateFrom.date ≤ dateTo.date)
    (hnumbers : (b.expenses.map (·.expenseNumber)).Nodup)
    (hrun : ensureRecurringExpensesForRange c (.date dateFrom) (.date dateTo) maxMonths b =
      (.ok r, b')) :
    Added (ActiveIn b (InRange dateFrom.date dateTo.date)) b b' ∧
      (∀ month x, ActiveIn b (InRange dateFrom.date dateTo.date) month x →
        ∃ branch, generationBranch b x.1 = .ok branch) ∧
      (b.applicable (monthOf dateFrom.date) (lastOf dateTo.date) = [] ∨
        monthIndex dateTo.date + 1 ≤ 120000) := by
  have hrange : requestedRange c (.date dateFrom) (.date dateTo) =
      .ok (dateFrom.date, dateTo.date) := rfl
  have hfirst : replaceDate dateFrom.date.year dateFrom.date.month 1 =
      .ok (monthOf dateFrom.date) := replaceDate_of_isDate (isMonth_monthOf dateFrom.valid).1
  simp only [ensureRecurringExpensesForRange, hrange, hfirst, monthBounds_eq dateTo.valid,
    not_not.mpr hle, if_false] at hrun
  split_ifs at hrun with hcap hnone
  · cases hrun
  · obtain ⟨-, rfl⟩ := Prod.mk.inj hrun
    rw [List.isEmpty_iff] at hnone
    have hidle : ∀ month x, ¬ ActiveIn b (InRange dateFrom.date dateTo.date) month x := by
      rintro month x ⟨hmonth, hx⟩
      rw [applicable_eq_nil dateFrom.valid dateTo.valid hnone hmonth] at hx
      exact List.not_mem_nil hx
    exact ⟨Added.refl hnumbers hidle, fun month x hx => absurd hx (hidle month x), .inl hnone⟩
  · obtain ⟨hadded, hplaced, hbound⟩ :=
      ensureMonths_added (isMonth_monthOf dateFrom.valid) hnumbers hrun
    have hactive : ∀ month x, ActiveIn b (InRange dateFrom.date dateTo.date) month x ↔
        ActiveIn b (Counted (monthIndex (monthOf dateFrom.date))
          (monthIndex dateTo.date - monthIndex dateFrom.date + 1)) month x :=
      fun month x => and_congr_left' (inRange_iff dateFrom.valid dateTo.valid hle)
    have hindex := monthIndex_mono dateFrom.valid dateTo.valid hle
    have hmonth : monthIndex (monthOf dateFrom.date) = monthIndex dateFrom.date := rfl
    exact ⟨hadded.congr hactive, fun month x hx => hplaced month x ((hactive month x).mp hx),
      .inr (by omega)⟩

/-! ## What the report projects -/

/-- A template that is active in a month is due between two dates. -/
def Falls (dateFrom dateTo : Date) (generated : List (ℕ × Date))
    (x : RecurringExpenseTemplate × ℕ) (month : Date) : Prop :=
  (x.1.startDate ≤ lastOf month ∧ x.1.endDate.all (fun d => decide (month ≤ d)) = true) ∧
    (dateFrom ≤ dueDate x.1 month ∧ dueDate x.1 month ≤ dateTo) ∧ (x.2, month) ∉ generated

/-- The record of a template for a month. -/
def recordFor (names : Names) (x : RecurringExpenseTemplate × ℕ) (branch : ℕ) (month : Date) :
    Record :=
  occurrence names x.1 x.2 month (dueDate x.1 month) branch

section Occurrences

variable (names : Names) (dateFrom dateTo : Date) (generated : List (ℕ × Date))

lemma occurrencesOf_ok (x : RecurringExpenseTemplate × ℕ) (branch : ℕ) {n : ℕ} {current : Date}
    (hcurrent : IsMonth current) (hbound : n = 0 ∨ monthIndex current + n ≤ 120000) :
    ∃ l, occurrencesOf names dateFrom dateTo generated x branch n current = .ok l ∧
      (l.map (·.number)).Nodup ∧ ∀ r, r ∈ l ↔ ∃ month, Counted (monthIndex current) n month ∧
        Falls dateFrom dateTo generated x month ∧ r = recordFor names x branch month := by
  induction n generalizing current with
  | zero =>
    refine ⟨[], rfl, List.nodup_nil, fun r => ⟨fun hr => absurd hr List.not_mem_nil, ?_⟩⟩
    rintro ⟨month, ⟨-, hle, hlt⟩, -⟩
    omega
  | succ n ih =>
    rcases nextMonth_eq hcurrent with ⟨next, hnext, hnextMonth, hindex, hlt⟩ | ⟨-, hlast⟩
    swap
    · omega
    obtain ⟨rest, hrest, hnodup, hmem⟩ := ih hnextMonth (by omega)
    have hend : replaceDate current.year current.month (monthDays current.year current.month) =
        .ok (lastOf current) := replaceDate_of_isDate (isDate_lastOf hcurrent.1)
    have hdue : replaceDate current.year current.month (min x.1.dueDay (lastOf current).day) =
        .ok (dueDate x.1 current) := replaceDate_of_isDate (isDate_dueDate x.1 hcurrent.1)
    have hcounted : ∀ month, Counted (monthIndex current) (n + 1) month ↔
        month = current ∨ Counted (monthIndex next) n month := by
      intro month
      rw [counted_succ hcurrent, hindex]
    by_cases hfalls : Falls dateFrom dateTo generated x current
    · refine ⟨recordFor names x branch current :: rest, ?_, ?_, fun r => ?_⟩
      · simp only [occurrencesOf, except_bind_eq_ok]
        exact ⟨_, hend, _, hdue, next, hnext, rest, hrest, if_pos hfalls⟩
      · rw [List.map_cons, List.nodup_cons]
        refine ⟨fun hin => ?_, hnodup⟩
        obtain ⟨r, hr, hnumber⟩ := List.mem_map.mp hin
        obtain ⟨month, ⟨hmonth, hle, -⟩, -, rfl⟩ := (hmem r).mp hr
        obtain ⟨rfl, -⟩ := recurringNumber_inj hmonth hcurrent hnumber
        omega
      · rw [List.mem_cons, hmem]
        simp only [hcounted, or_and_right, exists_or, exists_eq_left]
        exact or_congr_left ⟨fun h => ⟨hfalls, h⟩, fun h => h.2⟩
    · refine ⟨rest, ?_, hnodup, fun r => ?_⟩
      · simp only [occurrencesOf, except_bind_eq_ok]
        exact ⟨_, hend, _, hdue, next, hnext, rest, hrest, if_neg hfalls⟩
      · rw [hmem]
        simp only [hcounted, or_and_right, exists_or, exists_eq_left]
        exact ⟨.inr, fun h => h.resolve_left fun h => hfalls h.1⟩

lemma occurrencesAt_ok (f : ExpenseFilters) (sole : Option ℕ) {n : ℕ} {first : Date}
    (hfirst : IsMonth first) (hbound : monthIndex first + n ≤ 120000)
    (x : RecurringExpenseTemplate × ℕ) :
    ∃ l, occurrencesAt names f dateFrom dateTo generated sole first n x = .ok l ∧
      (l.map (·.number)).Nodup ∧ ∀ r, r ∈ l ↔ ∃ branch,
        (x.1.branch.or sole = some branch ∧ f.admitsBranch branch = true) ∧
        ∃ month, Counted (monthIndex first) n month ∧ Falls dateFrom dateTo generated x month ∧
          r = recordFor names x branch month := by
  unfold occurrencesAt
  cases hbranch : x.1.branch.or sole with
  | none => exact ⟨[], rfl, List.nodup_nil, fun r => by simp⟩
  | some branch =>
    by_cases hadmits : f.admitsBranch branch = true
    · obtain ⟨l, hok, hnodup, hmem⟩ :=
        occurrencesOf_ok names dateFrom dateTo generated x branch hfirst (.inr hbound)
      refine ⟨l, by simp only [hadmits, if_true, hok], hnodup, fun r => ?_⟩
      simp only [hmem, Option.some.injEq, and_assoc, exists_eq_left', hadmits, true_and]
    · refine ⟨[], if_neg hadmits, List.nodup_nil, fun r => ?_⟩
      refine ⟨fun hr => absurd hr List.not_mem_nil, ?_⟩
      rintro ⟨branch', ⟨hsame, hadmits'⟩, -⟩
      obtain rfl := Option.some.inj hsame
      exact absurd hadmits' hadmits

lemma occurrencesOfAll_ok (f : ExpenseFilters) (sole : Option ℕ) {n : ℕ} {first : Date}
    (hfirst : IsMonth first)
    {xs : List (RecurringExpenseTemplate × ℕ)} (hxs : (xs.map (·.2)).Nodup)
    (hbound : xs = [] ∨ monthIndex first + n ≤ 120000) :
    ∃ l, occurrencesOfAll names f dateFrom dateTo generated sole first n xs = .ok l ∧
      (l.map (·.number)).Nodup ∧ ∀ r, r ∈ l ↔ ∃ x ∈ xs, ∃ branch,
        (x.1.branch.or sole = some branch ∧ f.admitsBranch branch = true) ∧
        ∃ month, Counted (monthIndex first) n month ∧ Falls dateFrom dateTo generated x month ∧
          r = recordFor names x branch month := by
  induction xs with
  | nil => exact ⟨[], rfl, List.nodup_nil, fun r => by simp⟩
  | cons x xs ih =>
    have hfits : monthIndex first + n ≤ 120000 := hbound.resolve_left (List.cons_ne_nil x xs)
    rw [List.map_cons, List.nodup_cons] at hxs
    obtain ⟨rest, hrest, hnodup, hmem⟩ := ih hxs.2 (.inr hfits)
    obtain ⟨here, hok, hown, hin⟩ :=
      occurrencesAt_ok names dateFrom dateTo generated f sole hfirst hfits x
    refine ⟨here ++ rest, ?_, ?_, fun r => ?_⟩
    · simp only [occurrencesOfAll, except_bind_eq_ok]
      exact ⟨here, hok, rest, hrest, rfl⟩
    · rw [List.map_append]
      refine List.nodup_append'.mpr ⟨hown, hnodup, fun number hhere hother => ?_⟩
      obtain ⟨r, hr, rfl⟩ := List.mem_map.mp hhere
      obtain ⟨r', hr', hnumber⟩ := List.mem_map.mp hother
      obtain ⟨branch, -, month, ⟨hmonth, -⟩, -, rfl⟩ := (hin r).mp hr
      obtain ⟨y, hy, branch', -, month', ⟨hmonth', -⟩, -, rfl⟩ := (hmem r').mp hr'
      obtain ⟨-, hpk⟩ := recurringNumber_inj hmonth' hmonth hnumber
      exact hxs.1 (hpk ▸ List.mem_map_of_mem hy)
    · simp only [List.mem_append, hin, hmem, List.mem_cons, or_and_right, exists_or,
        exists_eq_left]

end Occurrences

lemma mem_generatedFor {templates : List ℕ} {firstMonth lastMonth month : Date} {pk : ℕ} :
    (pk, month) ∈ b.generatedFor templates firstMonth lastMonth ↔
      (pk ∈ templates ∧ firstMonth ≤ month ∧ month ≤ lastMonth) ∧
        ∃ e ∈ b.expenses, e.isFor pk month = true := by
  simp only [ExpenseBook.generatedFor, List.mem_filterMap, Expense.isFor, Bool.and_eq_true,
    decide_eq_true_eq, Option.bind_eq_some_iff, Option.ite_none_right_eq_some, Option.some.injEq,
    Prod.mk.injEq]
  constructor
  · rintro ⟨e, he, pk', hpk, month', hmonth, hrange, rfl, rfl⟩
    exact ⟨hrange, e, he, hpk, hmonth⟩
  · rintro ⟨hrange, e, he, hpk, hmonth⟩
    exact ⟨e, he, pk, hpk, month, hmonth, hrange, rfl, rfl⟩

/-- The report falls back on the same branch as the generation. -/
lemma or_soleLegacyBranch {t : RecurringExpenseTemplate} {branch : ℕ}
    (h : generationBranch b t = .ok branch) : t.branch.or b.soleLegacyBranch = some branch := by
  unfold generationBranch at h
  unfold ExpenseBook.soleLegacyBranch
  cases hown : t.branch with
  | some pk =>
    rw [hown] at h
    dsimp only at h
    split_ifs at h
    obtain rfl := Except.ok.inj h
    rfl
  | none =>
    rw [hown] at h
    dsimp only at h ⊢
    split at h
    · next hlist =>
      obtain rfl := Except.ok.inj h
      rw [hlist]
      rfl
    · exact nomatch h
    · exact nomatch h

/-! ## What both show -/

section Shown

variable {f : ExpenseFilters} {dateFrom dateTo : CalendarDate}

/-- The expense of a template for a month is not there yet, and the report would select it. -/
structure Shown (f : ExpenseFilters) (b : ExpenseBook) (dateFrom dateTo month : Date)
    (x : RecurringExpenseTemplate × ℕ) : Prop where
  active : ActiveIn b (InRange dateFrom dateTo) month x
  missing : ∀ row ∈ b.expenses, row.isFor x.2 month = false
  from_le : dateFrom ≤ dueDate x.1 month
  le_to : dueDate x.1 month ≤ dateTo
  branch : f.admitsBranch (branchOf b x.1) = true
  category : f.admitsCategory x.1.category = true

/-- The filters of a report over some dates, on branches and categories alone. -/
structure Ranged (f : ExpenseFilters) (dateFrom dateTo : CalendarDate) : Prop where
  start : f.start = some dateFrom.date
  finish : f.finish = some dateTo.date
  status : f.expenseStatus = none
  medium : f.expensePaymentMedium = none

lemma Ranged.keeps_iff (h : Ranged f dateFrom dateTo) {r : Record} :
    f.keeps r = true ↔ f.admitsCategory r.categoryId = true := by
  simp [ExpenseFilters.keeps, h.status, h.medium]

lemma Ranged.selects_iff (h : Ranged f dateFrom dateTo) {t : RecurringExpenseTemplate}
    {pk branch : ℕ} {month due : Date} :
    f.selects (generatedExpense t pk month due branch) = true ↔
      (dateFrom.date ≤ due ∧ due ≤ dateTo.date) ∧ f.admitsBranch branch = true ∧
        f.admitsCategory t.category = true := by
  simp only [ExpenseFilters.selects, h.start, h.finish, h.status, h.medium, Option.elim_none,
    Option.all_some, Option.all_none, Bool.and_eq_true, decide_eq_true_eq, and_true, and_assoc]
  simp [generatedExpense]

lemma record_generatedExpense (names : Names) {t : RecurringExpenseTemplate} {pk branch : ℕ}
    {month due : Date} (hname : t.name ≠ "") :
    (generatedExpense t pk month due branch).record names =
      occurrence names t pk month due branch := by
  simp [Expense.record, occurrence, generatedExpense, Expense.sourceDisplay, Expense.paidTo,
    Expense.paymentMediumKey, PaymentMedium.label, hname]

lemma InRange.bounds {start last month : Date} (hstart : IsDate start) (hlast : IsDate last)
    (h : InRange start last month) : monthOf start ≤ month ∧ month ≤ monthOf last := by
  obtain ⟨⟨⟨-, -, hone, htwelve, -, -⟩, hday⟩, hfrom, hto⟩ := h
  obtain ⟨-, -, hone', htwelve', -, -⟩ := hstart
  obtain ⟨-, -, hone'', htwelve'', -, -⟩ := hlast
  unfold monthIndex at hfrom hto
  simp only [Wms.Date.le_iff, monthOf]
  omega

lemma overlaps_iff {t : RecurringExpenseTemplate} {first last : Date} :
    t.overlaps first last = true ↔ t.isActive = true ∧ t.startDate ≤ last ∧
      t.endDate.all (fun d => decide (first ≤ d)) = true := by
  simp [RecurringExpenseTemplate.overlaps, and_assoc]

/-- Where a generation over the range would end, the report finds every template that started by
the last date. -/
lemma fixedExpenseOccurrences_ok (names : Names) (h : Ranged f dateFrom dateTo)
    (hle : dateFrom.date ≤ dateTo.date)
    (hplaced : ∀ month x, ActiveIn b (InRange dateFrom.date dateTo.date) month x →
      ∃ branch, generationBranch b x.1 = .ok branch)
    (hbound : b.applicable (monthOf dateFrom.date) (lastOf dateTo.date) = [] ∨
      monthIndex dateTo.date + 1 ≤ 120000) :
    ∃ l, fixedExpenseOccurrences names f b = .ok l ∧ (l.map (·.number)).Nodup ∧
      ∀ r, r ∈ l.filter f.keeps ↔ ∃ month x, Shown f b dateFrom.date dateTo.date month x ∧
        x.1.startDate ≤ dateTo.date ∧ r = recordFor names x (branchOf b x.1) month := by
  have hfrom : replaceDate dateFrom.date.year dateFrom.date.month 1 =
      .ok (monthOf dateFrom.date) := replaceDate_of_isDate (isMonth_monthOf dateFrom.valid).1
  have hto : replaceDate dateTo.date.year dateTo.date.month 1 = .ok (monthOf dateTo.date) :=
    replaceDate_of_isDate (isMonth_monthOf dateTo.valid).1
  have hindex := monthIndex_mono dateFrom.valid dateTo.valid hle
  have hlast : dateTo.date ≤ lastOf dateTo.date :=
    Wms.Date.le_iff.mpr (.inr ⟨rfl, .inr ⟨rfl, dateTo.valid.2.2.2.2.2⟩⟩)
  -- the report looks at fewer templates than the generation
  have hfewer : b.applicable (monthOf dateFrom.date) dateTo.date = [] ∨
      monthIndex (monthOf dateFrom.date) +
        (monthIndex (monthOf dateTo.date) - monthIndex (monthOf dateFrom.date) + 1) ≤ 120000 := by
    rcases hbound with hnone | hbound
    · refine .inl (List.eq_nil_iff_forall_not_mem.mpr fun x hx => ?_)
      obtain ⟨ht, hoverlaps⟩ := mem_applicable.mp hx
      obtain ⟨hactive, hstarts, hends⟩ := overlaps_iff.mp hoverlaps
      have hmem : x ∈ b.applicable (monthOf dateFrom.date) (lastOf dateTo.date) :=
        mem_applicable.mpr ⟨ht, overlaps_iff.mpr ⟨hactive, le_trans_date hstarts hlast, hends⟩⟩
      rw [hnone] at hmem
      exact List.not_mem_nil hmem
    · refine .inr ?_
      have hmonth : monthIndex (monthOf dateFrom.date) = monthIndex dateFrom.date := rfl
      have hmonth' : monthIndex (monthOf dateTo.date) = monthIndex dateTo.date := rfl
      omega
  obtain ⟨l, hok, hnodup, hmem⟩ := occurrencesOfAll_ok names dateFrom.date dateTo.date
    (b.generatedFor ((b.applicable (monthOf dateFrom.date) dateTo.date).map (·.2))
      (monthOf dateFrom.date) (monthOf dateTo.date))
    f b.soleLegacyBranch (isMonth_monthOf dateFrom.valid) (nodup_applicable _ _) hfewer
  refine ⟨l, ?_, hnodup, fun r => ?_⟩
  · simp only [fixedExpenseOccurrences, h.start, h.finish, not_not.mpr hle, if_false,
      except_bind_eq_ok]
    exact ⟨_, hfrom, _, hto, hok⟩
  have hcounted' : ∀ month, InRange dateFrom.date dateTo.date month ↔
      Counted (monthIndex (monthOf dateFrom.date)) (monthIndex (monthOf dateTo.date) -
        monthIndex (monthOf dateFrom.date) + 1) month :=
    fun month => inRange_iff dateFrom.valid dateTo.valid hle
  rw [List.mem_filter, hmem, h.keeps_iff]
  constructor
  · rintro ⟨⟨x, hx, branch, ⟨hbranch, hadmits⟩, month, hcounted, ⟨⟨hstart, hend⟩, ⟨hle', hge'⟩,
      hnew⟩, rfl⟩, hcategory⟩
    obtain ⟨ht, hoverlaps⟩ := mem_applicable.mp hx
    obtain ⟨hactive, hstarts, -⟩ := overlaps_iff.mp hoverlaps
    have hrange := (hcounted' month).mpr hcounted
    have hin : ActiveIn b (InRange dateFrom.date dateTo.date) month x :=
      ⟨hrange, mem_applicable.mpr ⟨ht, overlaps_iff.mpr ⟨hactive, hstart, hend⟩⟩⟩
    obtain ⟨branch', hfound⟩ := hplaced month x hin
    obtain rfl := Option.some.inj (hbranch.symm.trans (or_soleLegacyBranch hfound))
    obtain ⟨hge, hle''⟩ := hrange.bounds dateFrom.valid dateTo.valid
    have hmissing : ∀ row ∈ b.expenses, row.isFor x.2 month = false := by
      intro row hrow
      refine Bool.eq_false_of_not_eq_true fun hfor => hnew ?_
      exact mem_generatedFor.mpr
        ⟨⟨List.mem_map_of_mem hx, hge, hle''⟩, row, hrow, hfor⟩
    rw [← branchOf_eq hfound] at hadmits
    refine ⟨month, x, ⟨hin, hmissing, hle', hge', hadmits, hcategory⟩, hstarts, ?_⟩
    rw [branchOf_eq hfound]
  · rintro ⟨month, x, hshown, hstart, rfl⟩
    obtain ⟨ht, hoverlaps⟩ := mem_applicable.mp hshown.active.2
    obtain ⟨hactive, hstarts, hend⟩ := overlaps_iff.mp hoverlaps
    obtain ⟨hge, -⟩ := hshown.active.1.bounds dateFrom.valid dateTo.valid
    obtain ⟨branch, hfound⟩ := hplaced month x hshown.active
    have hx : x ∈ b.applicable (monthOf dateFrom.date) dateTo.date := by
      refine mem_applicable.mpr ⟨ht, overlaps_iff.mpr ⟨hactive, hstart, ?_⟩⟩
      rw [Option.all_eq_true] at hend ⊢
      exact fun d hd => decide_eq_true (le_trans_date hge (of_decide_eq_true (hend d hd)))
    have hnew : (x.2, month) ∉ b.generatedFor
        ((b.applicable (monthOf dateFrom.date) dateTo.date).map (·.2)) (monthOf dateFrom.date)
        (monthOf dateTo.date) := by
      intro hin
      obtain ⟨-, row, hrow, hfor⟩ := mem_generatedFor.mp hin
      rw [hshown.missing row hrow] at hfor
      cases hfor
    refine ⟨⟨x, hx, branchOf b x.1, ⟨?_, hshown.branch⟩, month, (hcounted' month).mp
      hshown.active.1, ⟨⟨hstarts, hend⟩, ⟨hshown.from_le, hshown.le_to⟩, hnew⟩, rfl⟩,
      hshown.category⟩
    rw [branchOf_eq hfound]
    exact or_soleLegacyBranch hfound

/-- The rows that a generation adds and the report selects. -/
lemma mem_added_records (names : Names) (h : Ranged f dateFrom dateTo) {new : List Expense}
    (hnames : ∀ t ∈ b.templates, t.name ≠ "")
    (hmem : ∀ e, e ∈ new ↔ ∃ month x, ActiveIn b (InRange dateFrom.date dateTo.date) month x ∧
      newRow b month x = some e) (r : Record) :
    r ∈ (new.filter f.selects).map (·.record names) ↔
      ∃ month x, Shown f b dateFrom.date dateTo.date month x ∧
        r = recordFor names x (branchOf b x.1) month := by
  have hrecord : ∀ {month x}, ActiveIn b (InRange dateFrom.date dateTo.date) month x →
      (generatedExpense x.1 x.2 month (dueDate x.1 month) (branchOf b x.1)).record names =
        recordFor names x (branchOf b x.1) month := by
    intro month x hactive
    have ht := List.mem_of_getElem? (mem_applicable.mp hactive.2).1
    exact record_generatedExpense names (hnames x.1 ht)
  rw [List.mem_map]
  constructor
  · rintro ⟨e, he, rfl⟩
    obtain ⟨hin, hselects⟩ := List.mem_filter.mp he
    obtain ⟨month, x, hactive, hrow⟩ := (hmem e).mp hin
    obtain ⟨hmissing, rfl⟩ := newRow_eq_some.mp hrow
    obtain ⟨⟨hfrom, hto⟩, hbranch, hcategory⟩ := h.selects_iff.mp hselects
    exact ⟨month, x, ⟨hactive, hmissing, hfrom, hto, hbranch, hcategory⟩, hrecord hactive⟩
  · rintro ⟨month, x, hshown, rfl⟩
    refine ⟨_, List.mem_filter.mpr ⟨(hmem _).mpr ⟨month, x, hshown.active,
      newRow_eq_some.mpr ⟨hshown.missing, rfl⟩⟩, h.selects_iff.mpr ?_⟩, hrecord hshown.active⟩
    exact ⟨⟨hshown.from_le, hshown.le_to⟩, hshown.branch, hshown.category⟩

/-- After a generation nothing is missing. -/
lemma Added.not_shown
    (hadded : Added (ActiveIn b (InRange dateFrom.date dateTo.date)) b b') {month : Date}
    {x : RecurringExpenseTemplate × ℕ} : ¬ Shown f b' dateFrom.date dateTo.date month x := by
  intro hshown
  have hactive : ActiveIn b (InRange dateFrom.date dateTo.date) month x := by
    have hactive' := hshown.active
    unfold ActiveIn at hactive' ⊢
    rwa [hadded.applicable_eq] at hactive'
  obtain ⟨new, rfl, hmem⟩ := hadded.rows
  have hnew : newRow b month x =
      some (generatedExpense x.1 x.2 month (dueDate x.1 month) (branchOf b x.1)) :=
    newRow_eq_some.mpr ⟨fun row hrow => hshown.missing row (List.mem_append_left new hrow), rfl⟩
  have hrow := hshown.missing _ (List.mem_append_right b.expenses ((hmem _).mpr
    ⟨month, x, hactive, hnew⟩))
  rw [isFor_generatedExpense.mpr ⟨rfl, rfl⟩] at hrow
  exact nomatch hrow

end Shown

/-! ## The order of the records -/

lemma le_total_date (x y : Date) : x ≤ y ∨ y ≤ x := by
  simp only [Wms.Date.le_iff]
  omega

lemma le_antisymm_date {x y : Date} (h : x ≤ y) (h' : y ≤ x) : x = y := by
  obtain ⟨year, month, day⟩ := x
  obtain ⟨year', month', day'⟩ := y
  simp only [Wms.Date.le_iff] at h h'
  simp only [Date.mk.injEq]
  omega

lemma Record.before_iff {x y : Record} :
    x.before y = true ↔ x.date ≤ y.date ∧ (x.date = y.date → x.number ≤ y.number) := by
  simp only [Record.before, Bool.and_eq_true, Bool.or_eq_true, decide_eq_true_eq, ne_eq,
    imp_iff_not_or]

lemma Record.before_trans (x y z : Record) (h : x.before y = true) (h' : y.before z = true) :
    x.before z = true := by
  rw [Record.before_iff] at h h' ⊢
  refine ⟨le_trans_date h.1 h'.1, fun heq => ?_⟩
  have hxy : x.date = y.date := le_antisymm_date h.1 (heq ▸ h'.1)
  exact le_trans (h.2 hxy) (h'.2 (hxy.symm.trans heq))

lemma Record.before_total (x y : Record) : (x.before y || y.before x) = true := by
  rw [Bool.or_eq_true, Record.before_iff, Record.before_iff]
  by_cases hdate : x.date = y.date
  · rcases le_total x.number y.number with hle | hle
    · exact .inl ⟨hdate ▸ (le_total_date x.date x.date).elim id id, fun _ => hle⟩
    · exact .inr ⟨hdate ▸ (le_total_date x.date x.date).elim id id, fun _ => hle⟩
  · rcases le_total_date x.date y.date with hle | hle
    · exact .inl ⟨hle, fun heq => absurd heq hdate⟩
    · exact .inr ⟨hle, fun heq => absurd heq.symm hdate⟩

/-- Records with different numbers are sorted in one way. -/
lemma mergeSort_eq_of_perm {l l' : List Record} (h : l.Perm l')
    (hnodup : (l.map (·.number)).Nodup) :
    l.mergeSort Record.before = l'.mergeSort Record.before := by
  have hsorted := List.pairwise_mergeSort Record.before_trans Record.before_total
  refine List.Perm.eq_of_pairwise (fun x y hx hy hxy hyx => ?_) (hsorted l) (hsorted l')
    (((List.mergeSort_perm l _).trans h).trans (List.mergeSort_perm l' _).symm)
  rw [List.mem_mergeSort] at hx hy
  rw [Record.before_iff] at hxy hyx
  have hdate := le_antisymm_date hxy.1 hyx.1
  have hnumber := le_antisymm (hxy.2 hdate) (hyx.2 hdate.symm)
  exact List.inj_on_of_nodup_map hnodup hx (h.mem_iff.mpr hy) hnumber

/-! ## Before and after -/

variable {f : ExpenseFilters} {dateFrom dateTo : CalendarDate}

/-- Two reports show the same records, days and grand total. -/
def SameFigures (before after : Except Fault ExpenseReport) : Prop :=
  ∃ r r', before = .ok r ∧ after = .ok r' ∧ r'.transactions = r.transactions ∧
    r'.dailyBreakdown = r.dailyBreakdown ∧ r'.totalExpenses = r.totalExpenses

/-- A template starts after the last date but within its month, is due by the last date, has no
expense for that month, and passes the filters. -/
def StartsLate (f : ExpenseFilters) (b : ExpenseBook) (dateFrom dateTo : Date) : Prop :=
  ∃ x ∈ b.applicable (monthOf dateTo) (lastOf dateTo), ¬ x.1.startDate ≤ dateTo ∧
    (∀ row ∈ b.expenses, row.isFor x.2 (monthOf dateTo) = false) ∧
    (dateFrom ≤ dueDate x.1 dateTo ∧ dueDate x.1 dateTo ≤ dateTo) ∧
    f.admitsBranch (branchOf b x.1) = true ∧ f.admitsCategory x.1.category = true

/-- Only a template of the last month can start after the range. -/
lemma startsLate_iff (hle : dateFrom.date ≤ dateTo.date) :
    StartsLate f b dateFrom.date dateTo.date ↔
      ∃ month x, Shown f b dateFrom.date dateTo.date month x ∧ ¬ x.1.startDate ≤ dateTo.date := by
  constructor
  · rintro ⟨x, hx, hstart, hmissing, ⟨hge, hle'⟩, hbranch, hcategory⟩
    have hindex : monthIndex dateFrom.date ≤ monthIndex dateTo.date :=
      monthIndex_mono dateFrom.valid dateTo.valid hle
    have hmonth : InRange dateFrom.date dateTo.date (monthOf dateTo.date) :=
      ⟨isMonth_monthOf dateTo.valid, hindex, Nat.le_refl _⟩
    exact ⟨monthOf dateTo.date, x, ⟨⟨hmonth, hx⟩, hmissing, hge, hle', hbranch, hcategory⟩, hstart⟩
  · rintro ⟨month, x, hshown, hstart⟩
    obtain ⟨hrange, hx⟩ := hshown.active
    have hstarts := (overlaps_iff.mp (mem_applicable.mp hx).2).2.1
    have hmonth : month = monthOf dateTo.date := by
      refine eq_of_monthIndex hrange.1 (isMonth_monthOf dateTo.valid) ?_
      by_contra hne
      refine hstart (le_trans_date hstarts ?_)
      obtain ⟨⟨⟨-, -, hone, htwelve, -, -⟩, -⟩, -, hto⟩ := hrange
      obtain ⟨-, -, hone', htwelve', -, -⟩ := dateTo.valid
      simp only [monthIndex, monthOf] at hne hto
      simp only [Wms.Date.le_iff, lastOf]
      omega
    subst hmonth
    exact ⟨x, hx, hstart, hshown.missing, ⟨hshown.from_le, hshown.le_to⟩, hshown.branch,
      hshown.category⟩

lemma expenseAnalysis_ok {names : Names} {l : List Record}
    (h : fixedExpenseOccurrences names f b = .ok l) :
    expenseAnalysis names f b = .ok (reportOf f (((b.expenses.filter f.selects).map
      (·.record names) ++ l.filter f.keeps).mergeSort Record.before)) := by
  unfold expenseAnalysis
  rw [h]
  rfl

lemma transactions_reportOf (records : List Record) :
    (reportOf f records).transactions = records := rfl

/-- A generation over the dates of a report leaves its records, days and total as they are exactly
if no template of the last month starts after the last date and is still due by it. -/
theorem projected_expenses (names : Names) (h : Ranged f dateFrom dateTo) {c : Conditions}
    {maxMonths : ℕ} {r : RecurringGenerationResult}
    (hnumbers : (b.expenses.map (·.expenseNumber)).Nodup)
    (hnames : ∀ t ∈ b.templates, t.name ≠ "")
    (hrun : ensureRecurringExpensesForRange c (.date dateFrom) (.date dateTo) maxMonths b =
      (.ok r, b')) :
    SameFigures (expenseAnalysis names f b) (expenseAnalysis names f b') ↔
      ¬ StartsLate f b dateFrom.date dateTo.date := by
  by_cases hle : dateFrom.date ≤ dateTo.date
  · obtain ⟨hadded, hplaced, hbound⟩ := range_added hle hnumbers hrun
    obtain ⟨l, hl, hnodup, hmem⟩ := fixedExpenseOccurrences_ok names h hle hplaced hbound
    have hplaced' : ∀ month x, ActiveIn b' (InRange dateFrom.date dateTo.date) month x →
        ∃ branch, generationBranch b' x.1 = .ok branch := by
      rintro month x ⟨hmonth, hx⟩
      rw [hadded.applicable_eq] at hx
      rw [hadded.generationBranch_eq]
      exact hplaced month x ⟨hmonth, hx⟩
    obtain ⟨l', hl', -, hmem'⟩ := fixedExpenseOccurrences_ok names h hle hplaced'
      (by rwa [hadded.applicable_eq])
    have hnone : l'.filter f.keeps = [] := by
      refine List.eq_nil_iff_forall_not_mem.mpr fun r hr => ?_
      obtain ⟨month, x, hshown, -⟩ := (hmem' r).mp hr
      exact hadded.not_shown hshown
    have hafter := expenseAnalysis_ok hl'
    have hsorted := hadded.numbers
    rw [hnone, List.append_nil] at hafter
    obtain ⟨new, rfl, hnew⟩ := hadded.rows
    have hrecords := mem_added_records names h hnames hnew
    let old := (b.expenses.filter f.selects).map (·.record names)
    let added := (new.filter f.selects).map (·.record names)
    have hrows : ((b.expenses ++ new).filter f.selects).map (·.record names) = old ++ added := by
      rw [List.filter_append, List.map_append]
    have hunique : ((old ++ added).map (·.number)).Nodup := by
      rw [← hrows, List.map_map]
      exact List.Nodup.sublist (List.filter_sublist.map _) hsorted
    have hperm_iff : (l.filter f.keeps).Perm added ↔
        ¬ StartsLate f b dateFrom.date dateTo.date := by
      have hadded' : added.Nodup := (List.nodup_append'.mp hunique.of_map).2.1
      have hprojected : (l.filter f.keeps).Nodup := hnodup.of_map.filter _
      rw [List.perm_ext_iff_of_nodup hprojected hadded', startsLate_iff hle]
      simp only [hmem]
      constructor
      · rintro hsame ⟨month, x, hshown, hstart⟩
        obtain ⟨month', y, hshown', hstart', heq⟩ :=
          (hsame _).mpr ((hrecords _).mpr ⟨month, x, hshown, rfl⟩)
        obtain ⟨-, hpk⟩ := recurringNumber_inj hshown.active.1.1 hshown'.active.1.1
          (congrArg Record.number heq)
        have hx := (mem_applicable.mp hshown.active.2).1
        have hy := (mem_applicable.mp hshown'.active.2).1
        rw [hpk, hy] at hx
        rw [← Option.some.inj hx] at hstart
        exact hstart hstart'
      · intro hlate r
        rw [hrecords]
        constructor
        · rintro ⟨month, x, hshown, -, rfl⟩
          exact ⟨month, x, hshown, rfl⟩
        · rintro ⟨month, x, hshown, rfl⟩
          exact ⟨month, x, hshown, not_not.mp fun hstart => hlate ⟨month, x, hshown, hstart⟩, rfl⟩
    have hbefore := expenseAnalysis_ok hl
    rw [hrows] at hafter
    rw [← hperm_iff]
    constructor
    · rintro ⟨r₁, r₂, hok, hok', hsame, -⟩
      obtain rfl := Except.ok.inj (hbefore.symm.trans hok)
      obtain rfl := Except.ok.inj (hafter.symm.trans hok')
      rw [transactions_reportOf, transactions_reportOf] at hsame
      have hperm := (List.mergeSort_perm (old ++ l.filter f.keeps) Record.before).symm.trans
        (hsame ▸ List.mergeSort_perm (old ++ added) Record.before)
      exact (List.perm_append_left_iff old).mp hperm
    · intro hperm
      have heq := mergeSort_eq_of_perm (hperm.symm.append_left old) hunique
      refine ⟨_, _, hbefore, hafter, ?_⟩
      rw [heq]
      exact ⟨rfl, rfl, rfl⟩
  · have hsame : b' = b := by
      have hrange : requestedRange c (.date dateFrom) (.date dateTo) =
          .ok (dateFrom.date, dateTo.date) := rfl
      simp only [ensureRecurringExpensesForRange, hrange, hle, not_false_eq_true, if_true] at hrun
      exact (Prod.mk.inj hrun).2.symm
    subst hsame
    have hl : fixedExpenseOccurrences names f b' = .ok [] := by
      simp only [fixedExpenseOccurrences, h.start, h.finish, hle, not_false_eq_true, if_true]
      rfl
    constructor
    · rintro - ⟨x, -, -, -, ⟨hge, hle'⟩, -⟩
      exact hle (le_trans_date hge hle')
    · exact fun _ => ⟨_, _, expenseAnalysis_ok hl, expenseAnalysis_ok hl, rfl, rfl, rfl⟩

/-! ## Examples -/

/-- A licence that is due on the fifth and starts on the twentieth of March. -/
def licence : RecurringExpenseTemplate where
  name := "Licence"
  branch := some 0
  category := 0
  defaultAmount := 40000
  dueDay := 5
  startDate := ⟨2024, 3, 20⟩
  endDate := none
  notes := ""
  isActive := true
  due_pos := by decide
  due_le := by decide

def licensedShop : ExpenseBook where
  business := 0
  branches := [⟨0, true⟩]
  templates := [licence]

def shopNames : Names where
  branch _ := "Main"
  category _ := "General"

/-- The first days of a month of 2024. -/
def firstDays (month : ℕ) (h : IsDate ⟨2024, month, 1⟩ ∧ IsDate ⟨2024, month, 10⟩) :
    ExpenseFilters where
  dateFrom := some ⟨⟨2024, month, 1⟩, h.1⟩
  dateTo := some ⟨⟨2024, month, 10⟩, h.2⟩

/-- The expense that a generation adds for a month. -/
def licensed (month : ℕ) : ExpenseBook :=
  { licensedShop with
    expenses := [generatedExpense licence 0 ⟨2024, month, 1⟩ ⟨2024, month, 5⟩ 0] }

/-- In April the generation adds an expense, and the figures stay the same. -/
theorem projected_expenses_april :
    ensureRecurringExpensesForRange allowed (.date ⟨⟨2024, 4, 1⟩, by decide⟩)
      (.date ⟨⟨2024, 4, 10⟩, by decide⟩) 120 licensedShop = (.ok ⟨1, 0⟩, licensed 4) ∧
    SameFigures (expenseAnalysis shopNames (firstDays 4 (by decide)) licensedShop)
      (expenseAnalysis shopNames (firstDays 4 (by decide)) (licensed 4)) := by
  have hranged : Ranged (firstDays 4 (by decide)) ⟨⟨2024, 4, 1⟩, by decide⟩
      ⟨⟨2024, 4, 10⟩, by decide⟩ := ⟨rfl, rfl, rfl, rfl⟩
  have hrun : ensureRecurringExpensesForRange allowed (.date ⟨⟨2024, 4, 1⟩, by decide⟩)
      (.date ⟨⟨2024, 4, 10⟩, by decide⟩) 120 licensedShop = (.ok ⟨1, 0⟩, licensed 4) := by
    decide
  have hstarted : ¬ StartsLate (firstDays 4 (by decide)) licensedShop ⟨2024, 4, 1⟩
      ⟨2024, 4, 10⟩ := by
    unfold StartsLate
    decide
  have hnames : ∀ t ∈ licensedShop.templates, t.name ≠ "" := by decide
  exact ⟨hrun, (projected_expenses shopNames hranged (b := licensedShop) List.nodup_nil hnames
    hrun).mpr hstarted⟩

/-- In March the generation adds an expense that is dated before its template starts. -/
theorem projected_expenses_march :
    ensureRecurringExpensesForRange allowed (.date ⟨⟨2024, 3, 1⟩, by decide⟩)
      (.date ⟨⟨2024, 3, 10⟩, by decide⟩) 120 licensedShop = (.ok ⟨1, 0⟩, licensed 3) ∧
    ¬ SameFigures (expenseAnalysis shopNames (firstDays 3 (by decide)) licensedShop)
      (expenseAnalysis shopNames (firstDays 3 (by decide)) (licensed 3)) := by
  refine ⟨by decide, ?_⟩
  rintro ⟨r, r', hr, hr', hsame, -⟩
  have hbefore : fixedExpenseOccurrences shopNames (firstDays 3 (by decide)) licensedShop =
      .ok [] := by decide
  have hafter : fixedExpenseOccurrences shopNames (firstDays 3 (by decide)) (licensed 3) =
      .ok [] := by decide
  obtain rfl := Except.ok.inj (hr.symm.trans (expenseAnalysis_ok hbefore))
  obtain rfl := Except.ok.inj (hr'.symm.trans (expenseAnalysis_ok hafter))
  have hlength := congrArg List.length hsame
  rw [transactions_reportOf, transactions_reportOf, List.length_mergeSort,
    List.length_mergeSort] at hlength
  exact absurd hlength (by decide)

end NexaPos.Recurring
