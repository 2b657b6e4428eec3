import NexaPos.System

/-!
# Invoice numbers over histories

A number is free when it is issued, but it is taken only when a sale that carries it is stored.
`complete_sale` does both in one transaction, so the sales of a business have distinct numbers.
Between calls that are not followed by a sale, the only memory is the counter of the scope: a
counter never repeats itself, but the counters of two branches with one prefix meet.
-/

namespace NexaPos

open Tx

/-! ## Calls among requests -/

/-- A request, or a call of `next_invoice_number` that nothing is stored for yet. -/
inductive InvoiceEvent
  | request (op : Op)
  | number (branch : ℕ)

/-- A number, with the counter it was issued from. -/
structure Issued where
  number : Text
  scope : Option ℕ
  deriving DecidableEq, Repr

/-- The counter a branch numbers from. -/
def scopeOf (s : State) (branch : ℕ) : Option ℕ :=
  (s.tenant.branches[branch]?).elim none fun row =>
    (invoiceScope s.tenant.settings branch row).2

/-- The database, and the numbers issued so far. -/
structure Numbered where
  db : State
  issued : List Issued := []

/-- One request or one call; a call that raises issues nothing. -/
def numberStep (x : Numbered) : InvoiceEvent → Numbered
  | .request op => { x with db := step x.db op }
  | .number branch =>
    match (nextInvoiceNumber branch).run x.db with
    | .ok (number, t) => ⟨t, x.issued ++ [⟨number, scopeOf x.db branch⟩]⟩
    | .error _ => x

/-- The numbers issued from other counters are on sales by now. -/
def OthersStored (x : Numbered) : InvoiceEvent → Prop
  | .request _ => True
  | .number branch =>
    ∀ i ∈ x.issued, i.scope ≠ scopeOf x.db branch → i.number ∈ usedNumbers x.db

instance (x : Numbered) (event : InvoiceEvent) : Decidable (OthersStored x event) := by
  cases event with
  | request op => exact inferInstanceAs (Decidable True)
  | number branch => exact inferInstanceAs (Decidable (∀ i ∈ x.issued, _))

/-! ## Counters only grow -/

/-- No counter is behind where it was. -/
def CountersGrow (s t : State) : Prop := ∀ scope, lastNumber s scope ≤ lastNumber t scope

lemma CountersGrow.of_eq {s t : State} (h : t.sales.sequences = s.sales.sequences) :
    CountersGrow s t := by
  intro scope
  unfold lastNumber
  rw [h]

/-- Advancing one counter puts none behind. -/
lemma lastNumber_insert {s t : State} {scope : Option ℕ} {last : ℕ}
    (h : t.sales.sequences = s.sales.sequences.insert scope last) (other : Option ℕ) :
    lastNumber t other = if other = scope then last else lastNumber s other := by
  unfold lastNumber
  rw [h]
  split
  · rename_i hsame
    rw [hsame, AList.lookup_insert, Option.getD_some]
  · rename_i hne
    rw [AList.lookup_insert_ne hne]

lemma CountersGrow.of_insert {s t : State} {scope : Option ℕ} {last : ℕ}
    (h : t.sales.sequences = s.sales.sequences.insert scope last)
    (hlast : lastNumber s scope < last) : CountersGrow s t := by
  intro other
  rw [lastNumber_insert h]
  split
  · rename_i hsame
    rw [hsame]
    exact hlast.le
  · exact le_rfl

lemma countersGrow_step (s : State) (op : Op) : CountersGrow s (step s op) := by
  cases salesStep s op with
  | same h => exact .of_eq (by rw [h])
  | method h =>
    rw [h]
    exact .of_eq rfl
  | made h =>
    obtain ⟨u, hrun, hsequences⟩ := h.numbered
    obtain ⟨branch, last, -, -, hlast, -, rfl⟩ := runs_nextInvoiceNumber hrun
    exact .of_insert hsequences hlast
  | paid h =>
    obtain ⟨sale, amount, -, ht⟩ := runs_addSalePayment h
    rw [ht]
    exact .of_eq rfl
  | @voided c id h =>
    obtain ⟨sale, amounts, rows, u, -, -, hmoved, ht⟩ := runs_voidSale h
    have hsales := sales_applyVoid c id sale amounts u
    rw [sales_of_rest hmoved.rest, ← ht] at hsales
    exact .of_eq (by rw [hsales])
  | returned h =>
    obtain ⟨sale, p, u, -, -, -, hsales⟩ := processReturn_sales h
    exact .of_eq (by rw [hsales])

/-! ## Sales have distinct numbers -/

lemma nodup_usedNumbers_step (s : State) (op : Op) (hs : (usedNumbers s).Nodup) :
    (usedNumbers (step s op)).Nodup := by
  have hmodify : ∀ {t : State} {f : Sale → Sale} {pk : ℕ},
      (∀ x, (f x).invoiceNumber = x.invoiceNumber) →
      t.sales.sales = s.sales.sales.modify pk f → (usedNumbers t).Nodup := by
    intro t f pk hf ht
    unfold usedNumbers
    rw [ht, map_modify_of_eq hf]
    exact hs
  cases salesStep s op with
  | same h =>
    unfold usedNumbers
    rw [h]
    exact hs
  | method h =>
    rw [h]
    exact hs
  | @made c r id p number items h =>
    obtain ⟨totalCost, sequences, hsales⟩ := h.sales
    obtain ⟨u, hrun, -⟩ := h.numbered
    obtain ⟨branch, last, -, -, -, hfree, -⟩ := runs_nextInvoiceNumber hrun
    have hused : usedNumbers (step s (.completeSale c r)) = usedNumbers s ++ [number] := by
      unfold usedNumbers
      rw [hsales, List.map_append]
      rfl
    rw [hused, ← List.concat_eq_append]
    exact hs.concat hfree
  | @paid c r h =>
    obtain ⟨sale, amount, -, ht⟩ := runs_addSalePayment h
    refine hmodify ?_ (congrArg (fun s => s.sales.sales) ht)
    intro x
    unfold paidSale
    dsimp only
    split <;> rfl
  | @voided c id h =>
    obtain ⟨sale, amounts, rows, u, -, -, hmoved, ht⟩ := runs_voidSale h
    have hsales := sales_applyVoid c id sale amounts u
    rw [sales_of_rest hmoved.rest, ← ht] at hsales
    refine hmodify ?_ (congrArg SalesTables.sales hsales)
    intro x
    rfl
  | returned h =>
    obtain ⟨sale, p, u, -, -, -, hsales⟩ := processReturn_sales h
    refine hmodify ?_ (congrArg SalesTables.sales hsales)
    intro x
    rfl

/-! ## Calls -/

/-- A call for an existing branch returns a number that no sale has. -/
lemma nextInvoiceNumber_total {s : State} {branch : ℕ} (h : branch < s.tenant.branches.length) :
    ∃ number t, Runs (nextInvoiceNumber branch) s number t ∧ number ∉ usedNumbers s := by
  set scope := invoiceScope s.tenant.settings branch s.tenant.branches[branch] with hscope
  set last := nextCounter scope.1 (usedNumbers s) (lastNumber s scope.2) with hlast
  refine ⟨invoiceNumber scope.1 last,
    { s with sales.sequences := s.sales.sequences.insert scope.2 last }, ?_, ?_⟩
  · unfold nextInvoiceNumber
    simp only [runs_bind, runs_reads, runs_get, runs_modify, runs_pure, found_eq_ok]
    exact ⟨_, _, ⟨List.getElem?_eq_getElem h, rfl⟩, _, _, ⟨rfl, rfl⟩, ⟨⟩, _, rfl, rfl, rfl⟩
  · exact (nextCounter_spec scope.1 (usedNumbers s) (lastNumber s scope.2)).2

/-- Every issued number is behind its counter, and no two are equal. -/
structure NumbersKept (x : Numbered) : Prop where
  nodup : (x.issued.map Issued.number).Nodup
  behind : ∀ i ∈ x.issued, ∃ base k, (∃ b, base = b ++ ['-']) ∧
    i.number = invoiceNumber base k ∧ k ≤ lastNumber x.db i.scope

lemma numbersKept_step (x : Numbered) (event : InvoiceEvent) (hstored : OthersStored x event)
    (hx : NumbersKept x) : NumbersKept (numberStep x event) := by
  cases event with
  | request op =>
    refine ⟨hx.nodup, fun i hi => ?_⟩
    obtain ⟨base, k, hbase, hnumber, hk⟩ := hx.behind i hi
    exact ⟨base, k, hbase, hnumber, hk.trans (countersGrow_step x.db op i.scope)⟩
  | number branch =>
    cases hrun : (nextInvoiceNumber branch).run x.db with
    | error e =>
      have hstep : numberStep x (.number branch) = x := by simp only [numberStep, hrun]
      rw [hstep]
      exact hx
    | ok result =>
      obtain ⟨number, t⟩ := result
      have hstep : numberStep x (.number branch) =
          ⟨t, x.issued ++ [⟨number, scopeOf x.db branch⟩]⟩ := by simp only [numberStep, hrun]
      rw [hstep]
      obtain ⟨row, last, hrow, hnumber, hlast, hfree, ht⟩ := runs_nextInvoiceNumber hrun
      have hscope : scopeOf x.db branch = (invoiceScope x.db.tenant.settings branch row).2 := by
        rw [scopeOf, hrow, Option.elim_some]
      have hbase := invoiceScope_base x.db.tenant.settings branch row
      rw [← hscope] at hlast ht
      have hcounters : ∀ scope, lastNumber t scope =
          if scope = scopeOf x.db branch then last else lastNumber x.db scope :=
        lastNumber_insert (by rw [ht])
      have hnew : number ∉ x.issued.map Issued.number := by
        intro hmem
        obtain ⟨i, hi, hsame⟩ := List.mem_map.mp hmem
        by_cases hown : i.scope = scopeOf x.db branch
        · -- the counter has moved past every number it issued
          obtain ⟨base, k, hclosed, hold, hk⟩ := hx.behind i hi
          rw [hsame, hnumber] at hold
          obtain ⟨-, rfl⟩ := invoiceNumber_inj hbase hclosed hold
          rw [hown] at hk
          omega
        · have hused := hstored i hi hown
          rw [hsame] at hused
          exact hfree hused
      refine ⟨?_, fun i hi => ?_⟩
      · rw [List.map_append, List.map_singleton, ← List.concat_eq_append]
        exact hx.nodup.concat hnew
      · rcases List.mem_append.mp hi with hi | hi
        · obtain ⟨base, k, hclosed, hold, hk⟩ := hx.behind i hi
          refine ⟨base, k, hclosed, hold, ?_⟩
          rw [hcounters]
          split
          · rename_i hown
            rw [hown] at hk
            omega
          · exact hk
        · obtain rfl := List.mem_singleton.mp hi
          refine ⟨_, last, hbase, hnumber, ?_⟩
          rw [hcounters, if_pos rfl]

/-- **Invoice numbers.**  In every database a call for an existing branch ends within two rounds
of its loop and returns a number that no sale has; the sales of every history have distinct
numbers; and the numbers returned along any sequence of requests and calls are distinct when, at
each call, those issued from other counters are on sales. -/
theorem invoice_numbers_distinct {events : List InvoiceEvent}
    (hstored : Trace.All numberStep OthersStored ⟨State.empty, []⟩ events) :
    (∀ (s : State) (branch : ℕ), branch < s.tenant.branches.length →
      (∀ base last, (counterLoop base (usedNumbers s) 2 last).isSome = true) ∧
        ∃ number t, Runs (nextInvoiceNumber branch) s number t ∧ number ∉ usedNumbers s) ∧
    (∀ ops : List Op, (usedNumbers (history ops)).Nodup) ∧
    ((Trace.run numberStep ⟨State.empty, []⟩ events).issued.map Issued.number).Nodup := by
  refine ⟨fun s branch hbranch => ⟨fun base last => ?_, nextInvoiceNumber_total hbranch⟩, ?_, ?_⟩
  · obtain ⟨n, hn, -⟩ := counterLoop_two base (usedNumbers s) last
    rw [hn]
    rfl
  · exact Trace.invariant nodup_usedNumbers_step List.nodup_nil
  · refine (Trace.invariant_of_all numbersKept_step ?_ hstored).nodup
    exact ⟨List.nodup_nil, fun i hi => absurd hi List.not_mem_nil⟩

/-! ## Runs -/

/-- Two branches that share a prefix. -/
def sharedPrefix : List InvoiceEvent := [
  .request (.saveMasterData (.branch none {
    name := ['S'], code := ['S'], invoicePrefix := ['A', 'H'] })),
  .request (.saveMasterData (.branch none {
    name := ['T'], code := ['T'], invoicePrefix := ['A', 'H'] }))]

theorem invoice_numbers_distinct_run :
    ((Trace.run numberStep ⟨State.empty, []⟩
      (sharedPrefix ++ [.number 0, .number 0])).issued.map Issued.number).Nodup :=
  (invoice_numbers_distinct (by decide +kernel)).2.2

/-- One call for each branch, and no sale in between: both return `AH-001`. -/
theorem invoice_numbers_repeat :
    (Trace.run numberStep ⟨State.empty, []⟩
      (sharedPrefix ++ [.number 0, .number 1])).issued.map Issued.number =
        ["AH-001".toList, "AH-001".toList] := by
  decide +kernel

end NexaPos
