import NexaPos.Expenses.Recurring

/-!
# Recurring expenses are generated once

A book is `Sound` when its expense numbers are distinct and every expense was entered by a user or
generated for a template and a month.  The number of a generated expense names its template and
its month, so a sound book has at most one expense for each of them, and a number that a template
asks for is free until its expense exists.  A month then fails only where the request is denied,
the rows cannot be locked or a template has no branch; a range fails where one of its months does,
or where it ends in the last month that a date can name: the step to the month after it is made
even when no month is left.
-/

namespace NexaPos.Recurring

open Tx
open Wms (Date monthDays)

/-! ## Months -/

/-- The first day of the month of a date. -/
def monthOf (d : Date) : Date := ⟨d.year, d.month, 1⟩

/-- The last day of the month of a date. -/
def lastOf (d : Date) : Date := ⟨d.year, d.month, monthDays d.year d.month⟩

/-- The first day of a month. -/
def IsMonth (d : Date) : Prop := IsDate d ∧ d.day = 1

/-- The day of a month on which a template is due. -/
def dueDate (t : RecurringExpenseTemplate) (month : Date) : Date :=
  ⟨month.year, month.month, min t.dueDay (monthDays month.year month.month)⟩

lemma monthDays_pos (year month : ℕ) : 1 ≤ monthDays year month := by
  unfold monthDays
  split_ifs <;> omega

lemma replaceDate_of_isDate {year month day : ℕ} (h : IsDate ⟨year, month, day⟩) :
    replaceDate year month day = .ok ⟨year, month, day⟩ := by
  unfold replaceDate
  rw [if_pos h]
  simp [pure, Except.pure]

lemma isMonth_monthOf {d : Date} (h : IsDate d) : IsMonth (monthOf d) := by
  obtain ⟨hyear, hyear', hmonth, hmonth', -, -⟩ := h
  have hdays := monthDays_pos d.year d.month
  refine ⟨⟨hyear, hyear', hmonth, hmonth', ?_, hdays⟩, ?_⟩
  · simp [monthOf]
  · simp [monthOf]

lemma monthOf_eq {month : Date} (h : IsMonth month) : monthOf month = month := by
  obtain ⟨year, m, day⟩ := month
  have hday : day = 1 := h.2
  simp [monthOf, hday]

lemma isDate_lastOf {d : Date} (h : IsDate d) : IsDate (lastOf d) := by
  obtain ⟨hyear, hyear', hmonth, hmonth', -, -⟩ := h
  exact ⟨hyear, hyear', hmonth, hmonth', monthDays_pos _ _, Nat.le_refl _⟩

lemma monthBounds_eq {d : Date} (h : IsDate d) : monthBounds d = .ok (monthOf d, lastOf d) := by
  unfold monthBounds
  rw [replaceDate_of_isDate (isMonth_monthOf h).1, replaceDate_of_isDate (isDate_lastOf h)]
  simp [bind, Except.bind, pure, Except.pure, monthOf, lastOf]

lemma isDate_dueDate (t : RecurringExpenseTemplate) {month : Date} (h : IsDate month) :
    IsDate (dueDate t month) := by
  obtain ⟨hyear, hyear', hmonth, hmonth', -, -⟩ := h
  have hdays := monthDays_pos month.year month.month
  have hdue := t.due_pos
  exact ⟨hyear, hyear', hmonth, hmonth', by simp only [dueDate]; omega, Nat.min_le_right _ _⟩

/-- Months are equal when they are counted equal. -/
lemma eq_of_monthIndex {first second : Date} (hfirst : IsMonth first) (hsecond : IsMonth second)
    (h : monthIndex first = monthIndex second) : first = second := by
  obtain ⟨⟨-, -, hone, htwelve, -, -⟩, hday⟩ := hfirst
  obtain ⟨⟨-, -, hone', htwelve', -, -⟩, hday'⟩ := hsecond
  obtain ⟨year, month, day⟩ := first
  obtain ⟨year', month', day'⟩ := second
  simp only [monthIndex] at *
  obtain rfl : year = year' := by omega
  obtain rfl : month = month' := by omega
  rw [hday, hday']

/-- There is a month after every month but the last one of the calendar. -/
lemma nextMonth_eq {current : Date} (h : IsMonth current) :
    (∃ next, nextMonth current = .ok next ∧ IsMonth next ∧
      monthIndex next = monthIndex current + 1 ∧ monthIndex current < 120000) ∨
    nextMonth current = .error .value ∧ monthIndex current = 120000 := by
  obtain ⟨year, month, day⟩ := current
  obtain ⟨⟨hyear, hyear', hmonth, hmonth', -, -⟩, hday⟩ := h
  simp only at hyear hyear' hmonth hmonth' hday
  subst hday
  by_cases htwelve : month = 12
  · subst htwelve
    by_cases hlast : year = 9999
    · right
      subst hlast
      refine ⟨?_, by simp [monthIndex]⟩
      have hno : ¬ IsDate ⟨9999 + 1, 1, 1⟩ := fun h => absurd h.2.1 (by norm_num)
      simp [nextMonth, replaceDate, hno, throw, throwThe, MonadExceptOf.throw]
    · left
      have hdate : IsDate ⟨year + 1, 1, 1⟩ :=
        ⟨by simp, by simp only; omega, by simp, by simp, by simp, monthDays_pos _ _⟩
      refine ⟨⟨year + 1, 1, 1⟩, ?_, ⟨hdate, by simp⟩, ?_, ?_⟩
      · simp only [nextMonth, if_true]
        exact replaceDate_of_isDate hdate
      · simp only [monthIndex]
        omega
      · simp only [monthIndex]
        omega
  · left
    have hdate : IsDate ⟨year, month + 1, 1⟩ :=
      ⟨hyear, hyear', by simp, by simp only; omega, by simp, monthDays_pos _ _⟩
    refine ⟨⟨year, month + 1, 1⟩, ?_, ⟨hdate, by simp⟩, ?_, ?_⟩
    · simp only [nextMonth, htwelve, if_false]
      exact replaceDate_of_isDate hdate
    · simp only [monthIndex]
      omega
    · simp only [monthIndex]
      omega

/-! ## Expense numbers -/

lemma dash_notMem_toDigits (n : ℕ) : '-' ∉ Nat.toDigits 10 n := by
  intro h
  have hdigit := Nat.isDigit_of_mem_toDigits (by norm_num) (by norm_num) h
  exact absurd hdigit (by decide)

lemma dash_notMem_padded (width n : ℕ) : '-' ∉ UtcTime.padded width n := by
  unfold UtcTime.padded
  rw [List.mem_append, List.mem_replicate]
  rintro (⟨-, h⟩ | h)
  · exact absurd h (by decide)
  · exact dash_notMem_toDigits n h

/-- The number of a generated expense names its template and its month. -/
lemma recurringNumber_inj {first second : Date} {pk pk' : ℕ} (hfirst : IsMonth first)
    (hsecond : IsMonth second) (h : recurringNumber first pk = recurringNumber second pk') :
    first = second ∧ pk = pk' := by
  unfold recurringNumber at h
  have hrest := List.append_cancel_left h
  have hdash : ∀ d : Date, '-' ∉ Nat.toDigits 10 d.year ++ UtcTime.padded 2 d.month := by
    intro d hmem
    rcases List.mem_append.mp hmem with hmem | hmem
    · exact dash_notMem_toDigits _ hmem
    · exact dash_notMem_padded _ _ hmem
  obtain ⟨hmonth, -, hpk⟩ := (List.append_cons_inj_of_notMem (hdash first)
    (dash_notMem_toDigits pk)).mp hrest
  have hlength : ∀ d : Date, IsMonth d → (UtcTime.padded 2 d.month).length = 2 := by
    intro d hd
    obtain ⟨⟨-, -, -, htwelve, -, -⟩, -⟩ := hd
    exact UtcTime.length_padded (by norm_num) (by omega)
  obtain ⟨hyears, hmonths⟩ := List.append_inj' hmonth
    ((hlength first hfirst).trans (hlength second hsecond).symm)
  have hyear : first.year = second.year := by
    rw [← Nat.ofDigitChars_ten_toDigits (n := first.year), hyears, Nat.ofDigitChars_ten_toDigits]
  have hmonth' : first.month = second.month := by
    rw [← UtcTime.number_padded 2 first.month, hmonths, UtcTime.number_padded]
  refine ⟨eq_of_monthIndex hfirst hsecond ?_, ?_⟩
  · unfold monthIndex
    rw [hyear, hmonth']
  · rw [← Nat.ofDigitChars_ten_toDigits (n := pk), hpk, Nat.ofDigitChars_ten_toDigits]

lemma manualNumber_injective : Function.Injective manualNumber := by
  intro m n h
  have hpadded := List.append_cancel_left h
  rw [← UtcTime.number_padded 6 m, hpadded, UtcTime.number_padded]

lemma manualNumber_ne (n : ℕ) (month : Date) (pk : ℕ) :
    manualNumber n ≠ recurringNumber month pk := by
  intro h
  have hhead := congrArg List.head? h
  exact absurd hhead (by simp [manualNumber, recurringNumber])

lemma nextExpenseNumber_notMem (b : ExpenseBook) :
    nextExpenseNumber b ∉ b.expenses.map (·.expenseNumber) := by
  let taken : ℕ → Bool := fun n => b.expenses.any (·.expenseNumber = manualNumber n)
  have hfree : ∃ i < b.expenses.length + 1, taken (b.expenses.length + 1 + i) = false := by
    obtain ⟨i, hi, hfree⟩ := Numbering.exists_free manualNumber_injective
      (b.expenses.map (·.expenseNumber)) (b.expenses.length + 1)
    rw [List.length_map] at hi
    refine ⟨i, hi, List.any_eq_false.mpr fun e he heq => ?_⟩
    exact hfree (List.mem_map.mpr ⟨e, he, of_decide_eq_true heq⟩)
  intro hmem
  obtain ⟨e, he, heq⟩ := List.mem_map.mp hmem
  have hfound := List.any_eq_false.mp (Numbering.search_free hfree) e he
  exact hfound (decide_eq_true heq)

/-! ## Sound books -/

/-- An expense that a user entered. -/
def Expense.IsManual (e : Expense) : Prop :=
  e.recurringTemplate = none ∧ e.generatedForMonth = none ∧ ∃ n, e.expenseNumber = manualNumber n

/-- An expense of a template for a month in which the template is active. -/
def Expense.IsGenerated (b : ExpenseBook) (e : Expense) : Prop :=
  ∃ (pk : ℕ) (t : RecurringExpenseTemplate) (month : Date) (branch : ℕ),
    b.templates[pk]? = some t ∧ IsMonth month ∧ t.overlaps month (lastOf month) = true ∧
      generationBranch b t = .ok branch ∧
      e = generatedExpense t pk month (dueDate t month) branch

structure Sound (b : ExpenseBook) : Prop where
  numbers : (b.expenses.map (·.expenseNumber)).Nodup
  rows : ∀ e ∈ b.expenses, e.IsManual ∨ e.IsGenerated b

/-- The second book is the first with more expenses, generated for some months. -/
structure Grown (asked : Date → Prop) (b b' : ExpenseBook) : Prop where
  business : b'.business = b.business
  branches : b'.branches = b.branches
  templates : b'.templates = b.templates
  expenses : ∃ new, b'.expenses = b.expenses ++ new ∧
    ∀ e ∈ new, ∀ month, e.generatedForMonth = some month → asked month

variable {asked asked' : Date → Prop} {b b' b'' : ExpenseBook}

namespace Grown

lemma refl : Grown asked b b where
  business := rfl
  branches := rfl
  templates := rfl
  expenses := ⟨[], by simp⟩

lemma trans (h : Grown asked b b') (h' : Grown asked b' b'') : Grown asked b b'' where
  business := h'.business.trans h.business
  branches := h'.branches.trans h.branches
  templates := h'.templates.trans h.templates
  expenses := by
    obtain ⟨new, hnew, hasked⟩ := h.expenses
    obtain ⟨new', hnew', hasked'⟩ := h'.expenses
    refine ⟨new ++ new', by rw [hnew', hnew, List.append_assoc], fun e he => ?_⟩
    rcases List.mem_append.mp he with he | he
    · exact hasked e he
    · exact hasked' e he

lemma mono (h : Grown asked b b') (himp : ∀ month, asked month → asked' month) :
    Grown asked' b b' where
  business := h.business
  branches := h.branches
  templates := h.templates
  expenses := by
    obtain ⟨new, hnew, hasked⟩ := h.expenses
    exact ⟨new, hnew, fun e he month hmonth => himp month (hasked e he month hmonth)⟩

lemma mem (h : Grown asked b b') {e : Expense} (he : e ∈ b.expenses) : e ∈ b'.expenses := by
  obtain ⟨new, hnew, -⟩ := h.expenses
  rw [hnew]
  exact List.mem_append_left new he

lemma generationBranch_eq (h : Grown asked b b') (t : RecurringExpenseTemplate) :
    generationBranch b' t = generationBranch b t := by
  unfold generationBranch
  rw [h.business, h.branches]

lemma applicable_eq (h : Grown asked b b') (first last : Date) :
    b'.applicable first last = b.applicable first last := by
  unfold ExpenseBook.applicable
  rw [h.templates]

end Grown

lemma Sound.concat (h : Sound b) {e : Expense}
    (hnew : e.expenseNumber ∉ b.expenses.map (·.expenseNumber))
    (he : e.IsManual ∨ e.IsGenerated b) : Sound { b with expenses := b.expenses ++ [e] } where
  numbers := by
    rw [List.map_append, List.map_singleton]
    refine List.nodup_append'.mpr ⟨h.numbers, List.nodup_singleton _, ?_⟩
    rw [List.disjoint_singleton]
    exact hnew
  rows := by
    intro x hx
    rcases List.mem_append.mp hx with hx | hx
    · exact h.rows x hx
    · rw [List.mem_singleton.mp hx]
      exact he

/-- The expense of a template and a month has their number. -/
lemma Sound.number_of_isFor (h : Sound b) {e : Expense} (he : e ∈ b.expenses) {pk : ℕ}
    {month : Date} (hfor : e.isFor pk month = true) :
    e.expenseNumber = recurringNumber month pk := by
  simp only [Expense.isFor, Bool.and_eq_true, decide_eq_true_eq] at hfor
  obtain ⟨hpk, hmonth⟩ := hfor
  rcases h.rows e he with ⟨hnone, -, -⟩ | ⟨pk', t, month', branch, -, -, -, -, rfl⟩
  · rw [hnone] at hpk
    exact nomatch hpk
  · obtain rfl : pk' = pk := Option.some.inj hpk
    obtain rfl : month' = month := Option.some.inj hmonth
    rfl

/-- Only the expense of a template and a month has their number. -/
lemma Sound.isFor_of_number (h : Sound b) {e : Expense} (he : e ∈ b.expenses) {pk : ℕ}
    {month : Date} (hmonth : IsMonth month) (hnumber : e.expenseNumber = recurringNumber month pk) :
    e.isFor pk month = true := by
  rcases h.rows e he with ⟨-, -, n, hn⟩ | ⟨pk', t, month', branch, -, hmonth', -, -, rfl⟩
  · exact absurd (hn.symm.trans hnumber) (manualNumber_ne n month pk)
  · obtain ⟨rfl, rfl⟩ := recurringNumber_inj hmonth' hmonth hnumber
    simp [Expense.isFor, generatedExpense]

/-- A sound book has at most one expense of a template for a month. -/
lemma Sound.length_le_one (h : Sound b) (pk : ℕ) (month : Date) :
    (b.expenses.filter (·.isFor pk month)).length ≤ 1 := by
  cases hfilter : b.expenses.filter (·.isFor pk month) with
  | nil => simp
  | cons e rest =>
    have hmem : e ∈ b.expenses.filter (·.isFor pk month) := by
      rw [hfilter]
      exact List.mem_cons_self
    obtain ⟨he, hfor⟩ := List.mem_filter.mp hmem
    have hone := filter_key_eq_singleton h.numbers he
    have hsub : (b.expenses.filter (·.isFor pk month)).Sublist
        (b.expenses.filter fun x => x.expenseNumber = e.expenseNumber) := by
      have hrows : b.expenses.filter (·.isFor pk month) =
          (b.expenses.filter fun x => x.expenseNumber = e.expenseNumber).filter
            (·.isFor pk month) := by
        rw [List.filter_filter]
        refine List.filter_congr fun x hx => ?_
        by_cases hxfor : x.isFor pk month = true
        · simp [hxfor, h.number_of_isFor hx hxfor, h.number_of_isFor he hfor]
        · simp [hxfor]
      rw [hrows]
      exact List.filter_sublist
    rw [← hfilter]
    have hlength := hsub.length_le
    rwa [hone] at hlength

/-- An expense of a template for a month is the only one. -/
lemma Sound.filter_eq (h : Sound b) {e : Expense} (he : e ∈ b.expenses) {pk : ℕ} {month : Date}
    (hfor : e.isFor pk month = true) : b.expenses.filter (·.isFor pk month) = [e] := by
  have hmem : e ∈ b.expenses.filter (·.isFor pk month) := List.mem_filter.mpr ⟨he, hfor⟩
  obtain ⟨x, hx⟩ := List.length_eq_one_iff.mp
    (Nat.le_antisymm (h.length_le_one pk month) (List.length_pos_of_mem hmem))
  rw [hx] at hmem ⊢
  rw [List.mem_singleton.mp hmem]

/-! ## One month -/

/-- `getOrCreate` leaves the expense of the template and the month in the book. -/
lemma getOrCreate_runs (h : Sound b) {pk : ℕ} {t : RecurringExpenseTemplate} {month : Date}
    {branch : ℕ} (hmonth : IsMonth month)
    (hnew : (generatedExpense t pk month (dueDate t month) branch).IsGenerated b) :
    ∃ created b', Runs (getOrCreate pk month (generatedExpense t pk month (dueDate t month) branch))
      b created b' ∧ Sound b' ∧ Grown (· = month) b b' ∧
        ∃ e ∈ b'.expenses, e.isFor pk month = true := by
  let new := generatedExpense t pk month (dueDate t month) branch
  by_cases hany : ∃ e ∈ b.expenses, e.isFor pk month = true
  · obtain ⟨e, he, hfor⟩ := hany
    refine ⟨false, b, ?_, h, Grown.refl, e, he, hfor⟩
    unfold getOrCreate
    simp only [runs_bind, runs_get]
    refine ⟨b, b, ⟨rfl, rfl⟩, ?_⟩
    rw [h.filter_eq he hfor]
    exact runs_pure.mpr ⟨rfl, rfl⟩
  · push Not at hany
    have hnone : b.expenses.filter (·.isFor pk month) = [] :=
      List.filter_eq_nil_iff.mpr hany
    have hfree : new.expenseNumber ∉ b.expenses.map (·.expenseNumber) := by
      intro hmem
      obtain ⟨e, he, hnumber⟩ := List.mem_map.mp hmem
      exact hany e he (h.isFor_of_number he hmonth hnumber)
    refine ⟨true, { b with expenses := b.expenses ++ [new] }, ?_, h.concat hfree (.inr hnew), ?_,
      new, by simp, ?_⟩
    · unfold getOrCreate
      simp only [runs_bind, runs_get]
      refine ⟨b, b, ⟨rfl, rfl⟩, ?_⟩
      rw [hnone]
      simp only [runs_bind, runs_check, runs_modify, runs_pure]
      refine ⟨⟨⟩, b, ⟨?_, rfl⟩, ⟨⟩, _, rfl, ?_⟩
      · refine List.all_eq_true.mpr fun e he => decide_eq_true fun heq => hfree ?_
        exact List.mem_map.mpr ⟨e, he, heq⟩
      · simp [new]
    · exact ⟨rfl, rfl, rfl, [new], rfl, by simp [new, generatedExpense]⟩
    · simp [new, Expense.isFor, generatedExpense]

/-- What is asked of the templates of a month. -/
def Placed (b : ExpenseBook) (xs : List (RecurringExpenseTemplate × ℕ)) : Prop :=
  ∀ x ∈ xs, ∃ branch, generationBranch b x.1 = .ok branch

lemma Grown.placed (h : Grown asked b b') {xs : List (RecurringExpenseTemplate × ℕ)} :
    Placed b' xs ↔ Placed b xs := by
  unfold Placed
  simp only [h.generationBranch_eq]

lemma mem_applicable {first last : Date} {x : RecurringExpenseTemplate × ℕ} :
    x ∈ b.applicable first last ↔
      b.templates[x.2]? = some x.1 ∧ x.1.overlaps first last = true := by
  unfold ExpenseBook.applicable
  rw [List.mem_filter, List.mk_mem_zipIdx_iff_getElem?]

/-- A round creates the expense of its template when there is none. -/
lemma generateOne_runs (h : Sound b) {month : Date} (hmonth : IsMonth month)
    {x : RecurringExpenseTemplate × ℕ} (hx : x ∈ b.applicable month (lastOf month)) {branch : ℕ}
    (hbranch : generationBranch b x.1 = .ok branch) (result : RecurringGenerationResult) :
    ∃ r b', Runs (generateOne month (lastOf month).day result x) b r b' ∧ Sound b' ∧
      Grown (· = month) b b' ∧ ∃ e ∈ b'.expenses, e.isFor x.2 month = true := by
  obtain ⟨ht, hactive⟩ := mem_applicable.mp hx
  obtain ⟨created, b', hrun, hsound, hgrown, hfor⟩ := getOrCreate_runs h hmonth
    ⟨x.2, x.1, month, branch, ht, hmonth, hactive, hbranch, rfl⟩
  have hdue : replaceDate month.year month.month (min x.1.dueDay (lastOf month).day) =
      .ok (dueDate x.1 month) := replaceDate_of_isDate (isDate_dueDate x.1 hmonth.1)
  let r : RecurringGenerationResult :=
    if created then { result with created := result.created + 1 }
    else { result with existing := result.existing + 1 }
  refine ⟨r, b', ?_, hsound, hgrown, hfor⟩
  unfold generateOne
  simp only [runs_bind, runs_reads]
  refine ⟨branch, b, ⟨hbranch, rfl⟩, _, b, ⟨hdue, rfl⟩, created, b', hrun, ?_⟩
  cases created with
  | true => simp [r]
  | false => simp [r]

/-- A round that ends found the branch of its template. -/
lemma generateOne_placed {month : Date} {last : ℕ} {x : RecurringExpenseTemplate × ℕ}
    {result r : RecurringGenerationResult} (h : Runs (generateOne month last result x) b r b') :
    ∃ branch, generationBranch b x.1 = .ok branch := by
  unfold generateOne at h
  simp only [runs_bind, runs_reads] at h
  obtain ⟨branch, -, ⟨hbranch, -⟩, -⟩ := h
  exact ⟨branch, hbranch⟩

/-- The loop over templates that have their branches leaves an expense of each of them. -/
lemma generate_runs (h : Sound b) {month : Date} (hmonth : IsMonth month)
    {xs : List (RecurringExpenseTemplate × ℕ)}
    (hxs : ∀ x ∈ xs, x ∈ b.applicable month (lastOf month)) (hplaced : Placed b xs)
    (result : RecurringGenerationResult) :
    ∃ r b', Runs (xs.foldlM (generateOne month (lastOf month).day) result) b r b' ∧ Sound b' ∧
      Grown (· = month) b b' ∧ ∀ x ∈ xs, ∃ e ∈ b'.expenses, e.isFor x.2 month = true := by
  induction xs generalizing b result with
  | nil => exact ⟨result, b, runs_foldlM_nil.mpr ⟨rfl, rfl⟩, h, Grown.refl, by simp⟩
  | cons x xs ih =>
    obtain ⟨branch, hbranch⟩ := hplaced x List.mem_cons_self
    obtain ⟨r, b', hrun, hsound, hgrown, e, he, hfor⟩ :=
      generateOne_runs h hmonth (hxs x List.mem_cons_self) hbranch result
    have hxs' : ∀ y ∈ xs, y ∈ b'.applicable month (lastOf month) := by
      intro y hy
      rw [hgrown.applicable_eq]
      exact hxs y (List.mem_cons_of_mem x hy)
    have hplaced' : Placed b' xs :=
      hgrown.placed.mpr fun y hy => hplaced y (List.mem_cons_of_mem x hy)
    obtain ⟨r', b'', hrun', hsound', hgrown', hall⟩ := ih hsound hxs' hplaced' r
    refine ⟨r', b'', runs_foldlM_cons.mpr ⟨r, b', hrun, hrun'⟩, hsound', hgrown.trans hgrown',
      fun y hy => ?_⟩
    rcases List.mem_cons.mp hy with rfl | hy
    · exact ⟨e, hgrown'.mem he, hfor⟩
    · exact hall y hy

/-- A loop over templates that ends found all their branches. -/
lemma generate_placed (h : Sound b) {month : Date} (hmonth : IsMonth month)
    {xs : List (RecurringExpenseTemplate × ℕ)}
    (hxs : ∀ x ∈ xs, x ∈ b.applicable month (lastOf month)) {result r : RecurringGenerationResult}
    (hrun : Runs (xs.foldlM (generateOne month (lastOf month).day) result) b r b') :
    Placed b xs := by
  induction xs generalizing b result with
  | nil => simp [Placed]
  | cons x xs ih =>
    obtain ⟨r₁, b₁, hone, hrest⟩ := runs_foldlM_cons.mp hrun
    obtain ⟨branch, hbranch⟩ := generateOne_placed hone
    obtain ⟨r₂, b₂, hone', hsound, hgrown, -⟩ :=
      generateOne_runs h hmonth (hxs x List.mem_cons_self) hbranch result
    obtain ⟨-, rfl⟩ := Prod.mk.inj (Except.ok.inj (hone.symm.trans hone'))
    have hxs' : ∀ y ∈ xs, y ∈ b₁.applicable month (lastOf month) := by
      intro y hy
      rw [hgrown.applicable_eq]
      exact hxs y (List.mem_cons_of_mem x hy)
    have hrest' := hgrown.placed.mp (ih hsound hxs' hrest)
    intro y hy
    rcases List.mem_cons.mp hy with rfl | hy
    · exact ⟨branch, hbranch⟩
    · exact hrest' y hy

/-- The expenses of a month can be generated: the access engine allows it, the rows can be locked
and every active template has its branch. -/
structure Ready (c : Conditions) (b : ExpenseBook) (month : Date) : Prop where
  allowed : c.denial = none
  locks : c.locksOuterJoin = true
  placed : Placed b (b.applicable month (lastOf month))

lemma Grown.ready (h : Grown asked b b') {c : Conditions} {month : Date} :
    Ready c b' month ↔ Ready c b month := by
  have hplaced : Placed b' (b'.applicable month (lastOf month)) ↔
      Placed b (b.applicable month (lastOf month)) := by
    rw [h.applicable_eq, h.placed]
  exact ⟨fun hready => ⟨hready.allowed, hready.locks, hplaced.mp hready.placed⟩,
    fun hready => ⟨hready.allowed, hready.locks, hplaced.mpr hready.placed⟩⟩

/-- Every template that is active in the month has its expense. -/
def Has (b : ExpenseBook) (month : Date) : Prop :=
  ∀ x ∈ b.applicable month (lastOf month), ∃ e ∈ b.expenses, e.isFor x.2 month = true

lemma Grown.has (h : Grown asked b b') {month : Date} (hhas : Has b month) : Has b' month := by
  intro x hx
  rw [h.applicable_eq] at hx
  obtain ⟨e, he, hfor⟩ := hhas x hx
  exact ⟨e, h.mem he, hfor⟩

lemma checkAccess_eq {c : Conditions} : checkAccess c = .ok () ↔ c.denial = none := by
  unfold checkAccess
  match c.denial with
  | none => simp [pure, Except.pure]
  | some .businessInactive => simp [throw, throwThe, MonadExceptOf.throw]
  | some .moduleDisabled => simp [throw, throwThe, MonadExceptOf.throw]
  | some (.other message) => simp [throw, throwThe, MonadExceptOf.throw]

lemma lastOf_monthOf (d : Date) : lastOf (monthOf d) = lastOf d := by
  simp [lastOf, monthOf]

lemma month_runs_iff {c : Conditions} {target : Date} (htarget : IsDate target)
    {r : RecurringGenerationResult} :
    Runs (ensureRecurringExpensesForMonth c target) b r b' ↔
      c.denial = none ∧ c.locksOuterJoin = true ∧
        Runs ((b.applicable (monthOf target) (lastOf (monthOf target))).foldlM
          (generateOne (monthOf target) (lastOf (monthOf target)).day) ⟨0, 0⟩) b r b' := by
  unfold ensureRecurringExpensesForMonth
  simp only [runs_bind, runs_reads, runs_check, runs_get, monthBounds_eq htarget]
  constructor
  · rintro ⟨_, _, ⟨haccess, rfl⟩, bounds, _, ⟨hbounds, rfl⟩, -, _, ⟨hlocks, rfl⟩, _, _, ⟨rfl, rfl⟩,
      hrun⟩
    obtain rfl := Except.ok.inj hbounds
    rw [lastOf_monthOf]
    exact ⟨checkAccess_eq.mp haccess, hlocks, hrun⟩
  · rintro ⟨hdenial, hlocks, hrun⟩
    rw [lastOf_monthOf] at hrun
    exact ⟨(), b, ⟨checkAccess_eq.mpr hdenial, rfl⟩, _, b, ⟨rfl, rfl⟩, ⟨⟩, b, ⟨hlocks, rfl⟩, b, b,
      ⟨rfl, rfl⟩, hrun⟩

/-- A month whose expenses can be generated gets all of them. -/
lemma month_runs (h : Sound b) {c : Conditions} {target : Date} (htarget : IsDate target)
    (hready : Ready c b (monthOf target)) :
    ∃ r b', Runs (ensureRecurringExpensesForMonth c target) b r b' ∧ Sound b' ∧
      Grown (· = monthOf target) b b' ∧ Has b' (monthOf target) := by
  obtain ⟨r, b', hrun, hsound, hgrown, hall⟩ := generate_runs h (isMonth_monthOf htarget)
    (fun _ hx => hx) hready.placed ⟨0, 0⟩
  refine ⟨r, b', (month_runs_iff htarget).mpr ⟨hready.allowed, hready.locks, hrun⟩, hsound, hgrown,
    fun x hx => ?_⟩
  rw [hgrown.applicable_eq] at hx
  exact hall x hx

/-- A month that ends could be generated. -/
lemma ready_of_runs (h : Sound b) {c : Conditions} {target : Date} (htarget : IsDate target)
    {r : RecurringGenerationResult}
    (hrun : Runs (ensureRecurringExpensesForMonth c target) b r b') :
    Ready c b (monthOf target) := by
  obtain ⟨hdenial, hlocks, hloop⟩ := (month_runs_iff htarget).mp hrun
  exact ⟨hdenial, hlocks, generate_placed h (isMonth_monthOf htarget) (fun _ hx => hx) hloop⟩

/-! ## A range of months -/

/-- The months from one on, as many as are counted. -/
def Counted (first n : ℕ) (month : Date) : Prop :=
  IsMonth month ∧ first ≤ monthIndex month ∧ monthIndex month < first + n

lemma counted_succ {current : Date} (hcurrent : IsMonth current) {n : ℕ} {month : Date} :
    Counted (monthIndex current) (n + 1) month ↔
      month = current ∨ Counted (monthIndex current + 1) n month := by
  constructor
  · rintro ⟨hmonth, hle, hlt⟩
    by_cases heq : monthIndex month = monthIndex current
    · exact .inl (eq_of_monthIndex hmonth hcurrent heq)
    · exact .inr ⟨hmonth, by omega, by omega⟩
  · rintro (rfl | ⟨hmonth, hle, hlt⟩)
    · exact ⟨hcurrent, Nat.le_refl _, by omega⟩
    · exact ⟨hmonth, by omega, by omega⟩

/-- What the loop over some months does. -/
structure Stepped (c : Conditions) (current : Date) (n : ℕ) (b : ExpenseBook)
    (out : Except Fault RecurringGenerationResult × ExpenseBook) : Prop where
  sound : Sound out.2
  grown : Grown (Counted (monthIndex current) n) b out.2
  ends : out.1.isOk = true ↔
    (∀ month, Counted (monthIndex current) n month → Ready c b month) ∧
      (n = 0 ∨ monthIndex current + n ≤ 120000)
  has : out.1.isOk = true → ∀ month, Counted (monthIndex current) n month → Has out.2 month

lemma ensureMonths_stepped (c : Conditions) (n : ℕ) {current : Date} (hcurrent : IsMonth current)
    (result : RecurringGenerationResult) (h : Sound b) :
    Stepped c current n b (ensureMonths c n current result b) := by
  induction n generalizing current result b with
  | zero =>
    have hnone : ∀ month, ¬ Counted (monthIndex current) 0 month := fun _ hc => by
      have := hc.2
      omega
    exact ⟨h, Grown.refl, by simp [ensureMonths, hnone, Except.isOk, Except.toBool],
      fun _ month hc => absurd hc (hnone month)⟩
  | succ n ih =>
    have hmonth := monthOf_eq hcurrent
    have hfirst : Counted (monthIndex current) (n + 1) current :=
      (counted_succ hcurrent).mpr (.inl rfl)
    unfold ensureMonths
    cases hrun : (ensureRecurringExpensesForMonth c current).run b with
    | error e =>
      refine ⟨h, Grown.refl, ?_, fun hok => absurd hok (by simp [Except.isOk, Except.toBool])⟩
      refine ⟨fun hok => absurd hok (by simp [Except.isOk, Except.toBool]), ?_⟩
      rintro ⟨hready, -⟩
      obtain ⟨r, b', hruns, -⟩ := month_runs h hcurrent.1 (by rw [hmonth]; exact hready _ hfirst)
      exact nomatch hrun.symm.trans hruns
    | ok out =>
      obtain ⟨r, b₁⟩ := out
      have hready : Ready c b current := by
        have := ready_of_runs h hcurrent.1 hrun
        rwa [hmonth] at this
      obtain ⟨r', b', hruns, hsound, hgrown, hhas⟩ :=
        month_runs h hcurrent.1 (by rw [hmonth]; exact hready)
      obtain ⟨-, rfl⟩ := Prod.mk.inj (Except.ok.inj (hrun.symm.trans hruns))
      rw [hmonth] at hgrown hhas
      have hgrown' : Grown (Counted (monthIndex current) (n + 1)) b b₁ :=
        hgrown.mono fun month hm => (counted_succ hcurrent).mpr (.inl hm)
      rcases nextMonth_eq hcurrent with ⟨next, hnext, hnextMonth, hindex, hlt⟩ | ⟨hnext, hlast⟩
      · simp only [hnext]
        have hrest := ih hnextMonth
          ⟨result.created + r.created, result.existing + r.existing⟩ hsound
        have hcounted : ∀ month, Counted (monthIndex next) n month →
            Counted (monthIndex current) (n + 1) month := by
          intro month hm
          rw [hindex] at hm
          exact (counted_succ hcurrent).mpr (.inr hm)
        refine ⟨hrest.sound, hgrown'.trans (hrest.grown.mono hcounted), ?_, fun hok month hm => ?_⟩
        · rw [hrest.ends]
          constructor
          · rintro ⟨hall, hbound⟩
            refine ⟨fun month hm => ?_, .inr (by omega)⟩
            rcases (counted_succ hcurrent).mp hm with rfl | hm
            · exact hready
            · exact hgrown.ready.mp (hall month (by rwa [hindex]))
          · rintro ⟨hall, hbound⟩
            exact ⟨fun month hm => hgrown.ready.mpr (hall month (hcounted month hm)), by omega⟩
        · rcases (counted_succ hcurrent).mp hm with rfl | hm
          · exact hrest.grown.has hhas
          · exact hrest.has hok month (by rwa [hindex])
      · simp only [hnext]
        refine ⟨hsound, hgrown', ?_, fun hok => absurd hok (by simp [Except.isOk, Except.toBool])⟩
        refine ⟨fun hok => absurd hok (by simp [Except.isOk, Except.toBool]), ?_⟩
        rintro ⟨-, hbound⟩
        omega

lemma isDate_asDate {d : DateInput} {date : Date} (h : asDate d = .ok (some date)) :
    IsDate date := by
  cases d with
  | blank => exact nomatch Except.ok.inj h
  | date d =>
    obtain rfl := Option.some.inj (Except.ok.inj h)
    exact d.valid
  | malformed => exact nomatch h

lemma requestedRange_isDate {c : Conditions} {dateFrom dateTo : DateInput} {start last : Date}
    (h : requestedRange c dateFrom dateTo = .ok (start, last)) : IsDate start ∧ IsDate last := by
  have hmonth := (isMonth_monthOf c.today.valid).1
  have hreplace : replaceDate c.today.date.year c.today.date.month 1 = .ok (monthOf c.today.date) :=
    replaceDate_of_isDate hmonth
  have hlater : ∀ d, IsDate d → IsDate (if d ≤ c.today.date then c.today.date else d) := by
    intro d hd
    split_ifs
    · exact c.today.valid
    · exact hd
  unfold requestedRange at h
  rw [hreplace] at h
  match hfrom : asDate dateFrom, hto : asDate dateTo with
  | .error _, _ =>
    rw [hfrom] at h
    exact nomatch h
  | .ok (some _), .error _ =>
    rw [hfrom, hto] at h
    exact nomatch h
  | .ok none, .error _ =>
    rw [hfrom, hto] at h
    exact nomatch h
  | .ok (some first), .ok (some second) =>
    rw [hfrom, hto] at h
    obtain ⟨rfl, rfl⟩ := Prod.mk.inj (Except.ok.inj h)
    exact ⟨isDate_asDate hfrom, isDate_asDate hto⟩
  | .ok (some first), .ok none =>
    rw [hfrom, hto] at h
    obtain ⟨rfl, rfl⟩ := Prod.mk.inj (Except.ok.inj h)
    exact ⟨isDate_asDate hfrom, hlater _ (isDate_asDate hfrom)⟩
  | .ok none, .ok (some second) =>
    rw [hfrom, hto] at h
    obtain ⟨rfl, rfl⟩ := Prod.mk.inj (Except.ok.inj h)
    exact ⟨hmonth, isDate_asDate hto⟩
  | .ok none, .ok none =>
    rw [hfrom, hto] at h
    obtain ⟨rfl, rfl⟩ := Prod.mk.inj (Except.ok.inj h)
    exact ⟨hmonth, hlater _ hmonth⟩

lemma le_trans_date {x y z : Date} (h : x ≤ y) (h' : y ≤ z) : x ≤ z := by
  rw [Wms.Date.le_iff] at *
  omega

/-- The months of a range. -/
def InRange (start last : Date) (month : Date) : Prop :=
  IsMonth month ∧ monthIndex start ≤ monthIndex month ∧ monthIndex month ≤ monthIndex last

/-- A template that is active in a month of a range meets the dates of the range. -/
lemma applicable_eq_nil {start last month : Date} (hstart : IsDate start) (hlast : IsDate last)
    (h : b.applicable (monthOf start) (lastOf last) = []) (hmonth : InRange start last month) :
    b.applicable month (lastOf month) = [] := by
  obtain ⟨⟨⟨-, -, hone, htwelve, -, -⟩, hday⟩, hfrom, hto⟩ := hmonth
  obtain ⟨-, -, hone', htwelve', -, -⟩ := hstart
  obtain ⟨-, -, hone'', htwelve'', -, -⟩ := hlast
  unfold monthIndex at hfrom hto
  have hfirst : monthOf start ≤ month := by
    rw [Wms.Date.le_iff]
    simp only [monthOf]
    omega
  have hfinal : lastOf month ≤ lastOf last := by
    rw [Wms.Date.le_iff]
    simp only [lastOf]
    by_cases hyear : month.year = last.year
    · by_cases hm : month.month = last.month
      · rw [hyear, hm]
        omega
      · omega
    · omega
  refine List.eq_nil_iff_forall_not_mem.mpr fun x hx => ?_
  obtain ⟨ht, hactive⟩ := mem_applicable.mp hx
  have hmem : x ∈ b.applicable (monthOf start) (lastOf last) := by
    refine mem_applicable.mpr ⟨ht, ?_⟩
    simp only [RecurringExpenseTemplate.overlaps, Bool.and_eq_true, decide_eq_true_eq,
      Option.all_eq_true] at hactive ⊢
    obtain ⟨⟨hon, hstarts⟩, hends⟩ := hactive
    exact ⟨⟨hon, le_trans_date hstarts hfinal⟩, fun d hd => le_trans_date hfirst (hends d hd)⟩
  rw [h] at hmem
  exact List.not_mem_nil hmem

/-! ## Requests -/

/-- The months for which a request asks for expenses. -/
def Move.Asks : Move → Date → Prop
  | .month _ target, d => d = monthOf target.date
  | .range c dateFrom dateTo _, d =>
    ∃ start last, requestedRange c dateFrom dateTo = .ok (start, last) ∧ start ≤ last ∧
      InRange start last d
  | .record _, _ => False

/-- A range has dates, and no more months than are allowed. -/
def Move.Admitted : Move → Prop
  | .month _ _ => True
  | .range c dateFrom dateTo maxMonths =>
    ∃ start last, requestedRange c dateFrom dateTo = .ok (start, last) ∧
      (start ≤ last → monthIndex last - monthIndex start + 1 ≤ maxMonths)
  | .record _ => True

/-- The condition under which a request ends without an error: the months that it asks for can be
generated, and the last of them is not the last of the calendar.  A range that no template meets
asks for nothing. -/
def Move.Completes (b : ExpenseBook) : Move → Prop
  | .month c target => Ready c b (monthOf target.date)
  | .range c dateFrom dateTo _ =>
    ∀ start last, requestedRange c dateFrom dateTo = .ok (start, last) → start ≤ last →
      b.applicable (monthOf start) (lastOf last) = [] ∨
        (∀ d, InRange start last d → Ready c b d) ∧ monthIndex last < 120000
  | .record _ => True

/-- What a request does to a sound book. -/
structure Performed (m : Move) (b : ExpenseBook) (out : Bool × ExpenseBook) : Prop where
  sound : Sound out.2
  grown : Grown m.Asks b out.2
  ends : m.Admitted → (out.1 = true ↔ m.Completes b)
  has : out.1 = true → ∀ month, m.Asks month → Has out.2 month

lemma perform_month (h : Sound b) (c : Conditions) (target : CalendarDate) :
    Performed (.month c target) b (perform b (.month c target)) := by
  cases hrun : (ensureRecurringExpensesForMonth c target.date).run b with
  | error e =>
    have hperform : perform b (.month c target) = (false, b) := by simp only [perform, hrun]
    rw [hperform]
    refine ⟨h, Grown.refl, fun _ => ⟨fun hok => absurd hok Bool.false_ne_true, fun hready => ?_⟩,
      fun hok => absurd hok Bool.false_ne_true⟩
    obtain ⟨r, b', hruns, -⟩ := month_runs h target.valid hready
    exact nomatch hrun.symm.trans hruns
  | ok out =>
    obtain ⟨r, b₁⟩ := out
    have hperform : perform b (.month c target) = (true, b₁) := by simp only [perform, hrun]
    have hready := ready_of_runs h target.valid hrun
    obtain ⟨r', b', hruns, hsound, hgrown, hhas⟩ := month_runs h target.valid hready
    obtain ⟨-, rfl⟩ := Prod.mk.inj (Except.ok.inj (hrun.symm.trans hruns))
    rw [hperform]
    refine ⟨hsound, hgrown, fun _ => ⟨fun _ => hready, fun _ => rfl⟩, fun _ month hm => ?_⟩
    rw [show month = monthOf target.date from hm]
    exact hhas

lemma perform_record (h : Sound b) (e : ManualExpense) :
    Performed (.record e) b (perform b (.record e)) := by
  refine ⟨h.concat (nextExpenseNumber_notMem b) (.inl ⟨rfl, rfl, _, rfl⟩),
    ⟨rfl, rfl, rfl, _, rfl, ?_⟩, fun _ => ⟨fun _ => trivial, fun _ => rfl⟩, fun _ _ hm => hm.elim⟩
  intro x hx month hmonth
  rw [List.mem_singleton.mp hx] at hmonth
  exact nomatch hmonth

lemma monthIndex_mono {start last : Date} (hstart : IsDate start) (hlast : IsDate last)
    (hle : start ≤ last) : monthIndex start ≤ monthIndex last := by
  obtain ⟨-, -, hone, htwelve, -, -⟩ := hstart
  obtain ⟨-, -, hone', htwelve', -, -⟩ := hlast
  rw [Wms.Date.le_iff] at hle
  unfold monthIndex
  omega

/-- The months of a range are those that its loop counts. -/
lemma inRange_iff {start last month : Date} (hstart : IsDate start) (hlast : IsDate last)
    (hle : start ≤ last) :
    InRange start last month ↔
      Counted (monthIndex (monthOf start)) (monthIndex last - monthIndex start + 1) month := by
  have hindex := monthIndex_mono hstart hlast hle
  have hmonth : monthIndex (monthOf start) = monthIndex start := rfl
  rw [hmonth]
  constructor
  · rintro ⟨hm, hfrom, hto⟩
    exact ⟨hm, hfrom, by omega⟩
  · rintro ⟨hm, hfrom, hto⟩
    exact ⟨hm, hfrom, by omega⟩

/-- A range that is refused leaves the book as it was. -/
lemma performed_refused (h : Sound b) {m : Move} (hperform : perform b m = (false, b))
    (hnot : ¬ m.Admitted) : Performed m b (perform b m) := by
  rw [hperform]
  exact ⟨h, Grown.refl, fun hadmitted => absurd hadmitted hnot,
    fun hok => absurd hok Bool.false_ne_true⟩

/-- A range without anything to do leaves the book as it was. -/
lemma performed_idle (h : Sound b) {m : Move} (hperform : perform b m = (true, b))
    (hcompletes : m.Completes b) (hhas : ∀ month, m.Asks month → Has b month) :
    Performed m b (perform b m) := by
  rw [hperform]
  exact ⟨h, Grown.refl, fun _ => ⟨fun _ => hcompletes, fun _ => rfl⟩, fun _ => hhas⟩

lemma perform_range (h : Sound b) (c : Conditions) (dateFrom dateTo : DateInput)
    (maxMonths : ℕ) :
    Performed (.range c dateFrom dateTo maxMonths) b
      (perform b (.range c dateFrom dateTo maxMonths)) := by
  cases hrange : requestedRange c dateFrom dateTo with
  | error e =>
    refine performed_refused h ?_ ?_
    · simp [perform, ensureRecurringExpensesForRange, hrange, Except.isOk, Except.toBool]
    · rintro ⟨start, last, hok, -⟩
      exact nomatch hrange.symm.trans hok
  | ok out =>
    obtain ⟨start, last⟩ := out
    obtain ⟨hstart, hlast⟩ := requestedRange_isDate hrange
    have hsame : ∀ {start' last' : Date},
        requestedRange c dateFrom dateTo = .ok (start', last') → start' = start ∧ last' = last := by
      intro start' last' hok
      exact Prod.mk.inj (Except.ok.inj (hok.symm.trans hrange))
    by_cases hle : start ≤ last
    · by_cases hcap : maxMonths < monthIndex last - monthIndex start + 1
      · refine performed_refused h ?_ ?_
        · simp [perform, ensureRecurringExpensesForRange, hrange, hle, hcap, Except.isOk,
            Except.toBool]
        · rintro ⟨start', last', hok, hcount⟩
          obtain ⟨rfl, rfl⟩ := hsame hok
          exact absurd (hcount hle) (by omega)
      · have hfirst : replaceDate start.year start.month 1 = .ok (monthOf start) :=
          replaceDate_of_isDate (isMonth_monthOf hstart).1
        by_cases hnone : b.applicable (monthOf start) (lastOf last) = []
        · refine performed_idle h ?_ ?_ ?_
          · simp [perform, ensureRecurringExpensesForRange, hrange, hle, hcap, hfirst,
              monthBounds_eq hlast, hnone, Except.isOk, Except.toBool]
          · intro start' last' hok _
            obtain ⟨rfl, rfl⟩ := hsame hok
            exact .inl hnone
          · rintro month ⟨start', last', hok, -, hmonth⟩
            obtain ⟨rfl, rfl⟩ := hsame hok
            intro x hx
            rw [applicable_eq_nil hstart hlast hnone hmonth] at hx
            exact absurd hx List.not_mem_nil
        · let count := monthIndex last - monthIndex start + 1
          let out := ensureMonths c count (monthOf start) ⟨0, 0⟩ b
          have hperform : perform b (.range c dateFrom dateTo maxMonths) = (out.1.isOk, out.2) := by
            simp [perform, ensureRecurringExpensesForRange, hrange, hle, hcap, hfirst,
              monthBounds_eq hlast, hnone, out, count]
          have hloop : Stepped c (monthOf start) count b out :=
            ensureMonths_stepped c count (isMonth_monthOf hstart) ⟨0, 0⟩ h
          have hcounted : ∀ month, InRange start last month ↔
              Counted (monthIndex (monthOf start)) count month :=
            fun month => inRange_iff hstart hlast hle
          have hbound : monthIndex (monthOf start) + count = monthIndex last + 1 := by
            have hindex := monthIndex_mono hstart hlast hle
            have hmonth : monthIndex (monthOf start) = monthIndex start := rfl
            simp only [count]
            omega
          rw [hperform]
          refine ⟨hloop.sound, hloop.grown.mono fun month hm =>
            ⟨start, last, hrange, hle, (hcounted month).mpr hm⟩, fun _ => ?_, ?_⟩
          · rw [hloop.ends]
            constructor
            · rintro ⟨hready, hfits⟩ start' last' hok _
              obtain ⟨rfl, rfl⟩ := hsame hok
              refine .inr ⟨fun month hm => hready month ((hcounted month).mp hm), ?_⟩
              omega
            · intro hcompletes
              rcases hcompletes start last hrange hle with hnil | ⟨hready, hlt⟩
              · exact absurd hnil hnone
              · exact ⟨fun month hm => hready month ((hcounted month).mpr hm), .inr (by omega)⟩
          · rintro hok month ⟨start', last', hrange', -, hmonth⟩
            obtain ⟨rfl, rfl⟩ := hsame hrange'
            exact hloop.has hok month ((hcounted month).mp hmonth)
    · refine performed_idle h ?_ ?_ ?_
      · simp [perform, ensureRecurringExpensesForRange, hrange, hle, Except.isOk, Except.toBool]
      · intro start' last' hok hle'
        obtain ⟨rfl, rfl⟩ := hsame hok
        exact absurd hle' hle
      · rintro month ⟨start', last', hok, hle', -⟩
        obtain ⟨rfl, rfl⟩ := hsame hok
        exact absurd hle' hle

lemma performed (h : Sound b) (m : Move) : Performed m b (perform b m) := by
  cases m with
  | month c target => exact perform_month h c target
  | range c dateFrom dateTo maxMonths => exact perform_range h c dateFrom dateTo maxMonths
  | record e => exact perform_record h e

/-! ## Runs -/

lemma sound_step (b : ExpenseBook) (m : Move) (h : Sound b) : Sound (step b m) :=
  (performed h m).sound

lemma run_grown (h : Sound b) (moves : List Move) :
    Grown (fun month => ∃ m ∈ moves, m.Asks month) b (Trace.run step b moves) := by
  induction moves generalizing b with
  | nil => exact Grown.refl
  | cons m moves ih =>
    have hone := (performed h m).grown
    have hrest := ih (sound_step b m h)
    refine (hone.mono fun month hm => ⟨m, List.mem_cons_self, hm⟩).trans
      (hrest.mono fun month hm => ?_)
    obtain ⟨m', hm', hasks⟩ := hm
    exact ⟨m', List.mem_cons_of_mem m hm', hasks⟩

/-- A request that ended leaves its expenses for good. -/
lemma run_has (h : Sound b) {moves : List Move}
    (hends : Trace.All step (fun b m => m.Admitted → (perform b m).1 = true) b moves) {m : Move}
    (hm : m ∈ moves) (hadmitted : m.Admitted) {month : Date} (hasks : m.Asks month) :
    Has (Trace.run step b moves) month := by
  induction moves generalizing b with
  | nil => exact absurd hm List.not_mem_nil
  | cons m' moves ih =>
    obtain ⟨hend, hrest⟩ := hends
    have hsound := sound_step b m' h
    rcases List.mem_cons.mp hm with rfl | hm
    · exact (run_grown hsound moves).has ((performed h m).has (hend hadmitted) month hasks)
    · exact ih hsound hrest hm

/-- The recurring expenses after some requests: every admitted request ended without an error; a
template has exactly one expense for each month that was asked for and in which it is active; the
other expenses are those that users entered; and all the numbers are distinct. -/
structure GeneratedOnce (start : ExpenseBook) (moves : List Move) : Prop where
  ends : Trace.All step (fun b m => m.Admitted → (perform b m).1 = true) start moves
  once : ∀ m ∈ moves, m.Admitted → ∀ month, m.Asks month →
    ∀ x ∈ start.applicable month (lastOf month), ∃ e,
      (Trace.run step start moves).expenses.filter (·.isFor x.2 month) = [e]
  single : ∀ pk month,
    ((Trace.run step start moves).expenses.filter (·.isFor pk month)).length ≤ 1
  rows : ∀ e ∈ (Trace.run step start moves).expenses,
    e.recurringTemplate = none ∧ e.generatedForMonth = none ∨
      ∃ m ∈ moves, ∃ month, m.Asks month ∧
        ∃ x ∈ start.applicable month (lastOf month), ∃ branch,
          generationBranch start x.1 = .ok branch ∧
            e = generatedExpense x.1 x.2 month (dueDate x.1 month) branch ∧
              IsDate e.expenseDate ∧ monthOf e.expenseDate = month
  numbers : ((Trace.run step start moves).expenses.map (·.expenseNumber)).Nodup

/-- Recurring expenses are generated exactly once, and no admitted request fails, exactly if every
request meets the condition under which it ends: a range may not end in the last month of the
calendar, and the database has to lock the rows of an outer join. -/
theorem recurring_expenses (business : ℕ) (branches : List Branch)
    (templates : List RecurringExpenseTemplate) (moves : List Move) :
    GeneratedOnce { business, branches, templates } moves ↔
      Trace.All step (fun b m => m.Admitted → m.Completes b)
        { business, branches, templates } moves := by
  let start : ExpenseBook := { business, branches, templates }
  have hstart : Sound start := ⟨List.nodup_nil, fun e he => absurd he List.not_mem_nil⟩
  have hcongr : Trace.All step (fun b m => m.Admitted → (perform b m).1 = true) start moves ↔
      Trace.All step (fun b m => m.Admitted → m.Completes b) start moves :=
    Trace.all_congr sound_step
      (fun b m h => forall_congr' fun hadmitted => (performed h m).ends hadmitted) hstart moves
  have hsound : Sound (Trace.run step start moves) := Trace.invariant sound_step hstart moves
  have hgrown := run_grown hstart moves
  refine ⟨fun h => hcongr.mp h.ends, fun hcompletes => ?_⟩
  have hends := hcongr.mpr hcompletes
  refine ⟨hends, fun m hm hadmitted month hasks x hx => ?_, hsound.length_le_one, fun e he => ?_,
    hsound.numbers⟩
  · have hhas := run_has hstart hends hm hadmitted hasks
    rw [Has, hgrown.applicable_eq] at hhas
    obtain ⟨e, he, hfor⟩ := hhas x hx
    exact ⟨e, hsound.filter_eq he hfor⟩
  · rcases hsound.rows e he with ⟨hnone, hnone', -⟩ | ⟨pk, t, month, branch, ht, hmonth, hactive,
      hbranch, heq⟩
    · exact .inl ⟨hnone, hnone'⟩
    · right
      obtain ⟨new, hnew, hasked⟩ := hgrown.expenses
      rw [hnew, show start.expenses = [] from rfl, List.nil_append] at he
      obtain ⟨m, hm, hasks⟩ := hasked e he month (by rw [heq]; rfl)
      have hx : (t, pk) ∈ start.applicable month (lastOf month) := by
        rw [← hgrown.applicable_eq]
        exact mem_applicable.mpr ⟨ht, hactive⟩
      refine ⟨m, hm, month, hasks, (t, pk), hx, branch, ?_, heq, ?_, ?_⟩
      · rw [← hgrown.generationBranch_eq]
        exact hbranch
      · rw [heq]
        exact isDate_dueDate t hmonth.1
      · rw [heq]
        exact monthOf_eq hmonth

/-- Rent that is due on the last day of every month. -/
def rent : RecurringExpenseTemplate where
  name := "Rent"
  branch := some 0
  category := 0
  defaultAmount := 250000
  dueDay := 31
  startDate := ⟨2024, 1, 15⟩
  endDate := none
  notes := ""
  isActive := true
  due_pos := by decide
  due_le := by decide

def rentedShop : ExpenseBook where
  business := 0
  branches := [⟨0, true⟩]
  templates := [rent]

def allowed : Conditions where
  today := ⟨⟨2024, 3, 1⟩, by decide⟩
  denial := none
  locksOuterJoin := true

/-- The last month of the calendar. -/
def lastMonth : Move :=
  .range allowed (.date ⟨⟨9999, 12, 1⟩, by decide⟩) (.date ⟨⟨9999, 12, 31⟩, by decide⟩) 120

/-- The expense of the last month is created, and then the request fails. -/
theorem recurring_expenses_last_month : ¬ GeneratedOnce rentedShop [lastMonth] := by
  intro h
  have hadmitted : lastMonth.Admitted :=
    ⟨⟨9999, 12, 1⟩, ⟨9999, 12, 31⟩, by decide, fun _ => by decide⟩
  exact absurd (h.ends.1 hadmitted) (by decide)

example : (step rentedShop lastMonth).expenses.map (·.expenseDate) = [⟨9999, 12, 31⟩] := by
  decide

end NexaPos.Recurring
