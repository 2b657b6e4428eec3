import NexaPos.System

/-!
# The stock ledger over whole histories

Levels and movements are two views of one quantity.  Every request only posts to the book they
form (`posted_step`), so in every history the cached level of a key is the sum of its movements
and every movement's running balance is the sum up to it.
-/

namespace NexaPos

open Tx RunningLedger

/-- What the movements of one key add up to. -/
def movementTotal (rows : List StockMovement) (k : StockKey) : ℤ :=
  ((rows.filter fun row => row.key = k).map StockMovement.quantity).sum

lemma total_map_entry (rows : List StockMovement) (k : StockKey) :
    total (rows.map Stock.entry) k = movementTotal rows k := by
  simp only [total, movementTotal, List.filter_map, List.map_map]
  rfl

/-- Opening an empty level row changes no quantity. -/
lemma posted_insert_zero (s : State) (k : StockKey) (h : s.stock.levels.lookup k = none) :
    Posted s { s with stock.levels := s.stock.levels.insert k 0 } := by
  have hbook : ({ s.stock with levels := s.stock.levels.insert k 0 } : Stock).book
      = s.stock.book := by
    unfold Stock.book
    congr 1
    funext k'
    unfold Stock.quantityOf
    by_cases hk : k' = k
    · subst hk
      simp [h]
    · rw [AList.lookup_insert_ne hk]
  unfold Posted
  rw [hbook]
  exact refl _

/-- Every write of the application is a sequence of postings to the stock book. -/
lemma Component.posted {comp : Component} {s t : State} (h : comp.Change s t) : Posted s t := by
  cases comp with
  | levels =>
    obtain ⟨k, hk, rfl⟩ := h
    exact posted_insert_zero s k hk
  | movements type =>
    obtain ⟨m, u, -, hrun⟩ := h
    exact within_recordMovement m hrun
  | _ => exact posted_of_stock_eq (h.kept.stock (by simp) (by simp))

/-- Whatever a request does to stock, it does by postings. -/
lemma posted_step (s : State) (op : Op) : Posted s (step s op) :=
  step_within op (fun _ _ _ _ h => Component.posted h) s

lemma posted_run (s : State) (ops : List Op) : Posted s (run s ops) :=
  Trace.related posted_step s ops

/-- The book of a history is consistent. -/
lemma consistent_history (ops : List Op) : (history ops).stock.book.Consistent :=
  Book.Posts.consistent (posted_run State.empty ops) (by
    have hempty : State.empty.stock.book = Book.empty := rfl
    rw [hempty]
    exact Book.consistent_empty)

/-- The movements written between two states of a run. -/
def movementsSince (s t : State) : List StockMovement :=
  t.stock.movements.drop s.stock.movements.length

lemma movementsSince_of_append {s t : State} {rows : List StockMovement}
    (h : t.stock.movements = s.stock.movements ++ rows) : movementsSince s t = rows := by
  unfold movementsSince
  rw [h, List.drop_left]

lemma entries_eq_append {s t : State} {es : List (Entry StockKey ℤ)}
    (hes : t.stock.book.entries = s.stock.book.entries ++ es) :
    es = (movementsSince s t).map Stock.entry := by
  have hdrop := congrArg (List.drop s.stock.movements.length) hes
  unfold Stock.book at hdrop
  rw [← List.map_drop] at hdrop
  rw [List.drop_left' (by simp)] at hdrop
  exact hdrop.symm

/-- Between two points of a run, the level of a key moves by the movements written in between. -/
lemma quantityOf_run (s : State) (ops : List Op) (k : StockKey) :
    (run s ops).stock.quantityOf k =
      s.stock.quantityOf k + movementTotal (movementsSince s (run s ops)) k := by
  obtain ⟨es, hes, hbal⟩ := Book.Posts.balance (posted_run s ops)
  rw [← total_map_entry, ← entries_eq_append hes]
  exact hbal k

/-- The level of a key at the end of a run is the one it had, or one that a movement of the run
left behind. -/
lemma quantityOf_run_cases (s : State) (ops : List Op) (k : StockKey) :
    (run s ops).stock.quantityOf k = s.stock.quantityOf k ∨
      ∃ row ∈ movementsSince s (run s ops), row.key = k ∧
        row.balanceAfter = (run s ops).stock.quantityOf k := by
  obtain ⟨es, hes, hbal⟩ := Book.Posts.balance_cases (posted_run s ops)
  rcases hbal k with h | ⟨e, he, hkey, hafter⟩
  · exact .inl h
  · rw [entries_eq_append hes] at he
    obtain ⟨row, hrow, rfl⟩ := List.mem_map.mp he
    exact .inr ⟨row, hrow, hkey, hafter⟩

/-- No ledger row moves nothing. -/
def NoEmptyMovement (s : State) : Prop := ∀ row ∈ s.stock.movements, row.quantity ≠ 0

lemma noEmptyMovement_step (s : State) (op : Op) (hs : NoEmptyMovement s) :
    NoEmptyMovement (step s op) := by
  refine step_within (R := Preserves NoEmptyMovement) op ?_ s hs
  intro comp _ s t h hs
  cases comp with
  | levels =>
    obtain ⟨k, -, rfl⟩ := h
    exact hs
  | movements type =>
    obtain ⟨m, u, -, hrun⟩ := h
    obtain ⟨row, hrow, hstock, -⟩ := runs_recordMovement hrun
    intro x hx
    rw [hstock, Stock.movements_post] at hx
    rcases List.mem_append.mp hx with hx | hx
    · exact hs x hx
    · rw [List.mem_singleton.mp hx]
      exact hrow.quantity_ne_zero
  | _ =>
    unfold NoEmptyMovement
    rw [h.kept.stock (by simp) (by simp)]
    exact hs

lemma noEmptyMovement_history (ops : List Op) : NoEmptyMovement (history ops) :=
  Trace.invariant noEmptyMovement_step (fun _ h => absurd h List.not_mem_nil) ops

/-- **The stock ledger invariant.**  In every history of requests, for every warehouse, product
and variant, the cached level is the sum of the movements, every movement's running balance is
the sum of its key's movements up to and including it, and a request that raises changes
neither. -/
theorem stock_ledger_invariant (ops : List Op) :
    (∀ k, (history ops).stock.quantityOf k = movementTotal (history ops).stock.movements k) ∧
    (∀ before row after, (history ops).stock.movements = before ++ row :: after →
      row.balanceAfter = movementTotal (before ++ [row]) row.key) ∧
    ∀ op : Op, op.Raises (history ops) →
      (step (history ops) op).stock.levels = (history ops).stock.levels ∧
      (step (history ops) op).stock.movements = (history ops).stock.movements := by
  have hbook := consistent_history ops
  refine ⟨fun k => ?_, fun before row after h => ?_, fun op hop => ?_⟩
  · rw [← total_map_entry]
    exact hbook.balance_eq k
  · have hentries : (history ops).stock.book.entries =
        before.map Stock.entry ++ Stock.entry row :: after.map Stock.entry := by
      simp [Stock.book, h]
    have hbal := hbook.balanceAfter_eq _ _ _ hentries
    rw [← total_map_entry, List.map_append]
    exact hbal
  · rw [step_of_raises hop]
    exact ⟨rfl, rfl⟩

end NexaPos
