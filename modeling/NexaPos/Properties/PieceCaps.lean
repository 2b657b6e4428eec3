import NexaPos.Workshop
import Mathlib.Algebra.Order.BigOperators.Group.List

/-!
# Production stays within the pieces of the order

For every order with a piece count and every operation, the lines that are not removed record no
more pieces than the order has, over all employees and dates; and an entry has at most one such
line for an order and an operation.  Both are sums over the production lines: of the quantities
of a combination, and of the lines of an entry that have it.  A correction changes such a sum by
exactly what its rows record instead of the lines the entry had (`sum_correctedLines`), whatever
mode it comes in, so each side of the law only has to compare the two.
-/

namespace NexaPos.Wms

/-! ## What a correction does to a sum over the lines -/

section Weight

variable {g : WmsProductionEntryLine → ℕ} {entry : ℕ} {lines : List WmsProductionEntryLine}

/-- Lines that are removed leave the sum. -/
lemma sum_removeLine (hremoved : ∀ l : WmsProductionEntryLine, g { l with isRemoved := true } = 0)
    {es : List (ℕ × WmsProductionEntryLine)} (hkeys : (es.map Prod.fst).Nodup)
    (hes : ∀ e ∈ es, lines[e.1]? = some e.2) :
    ((es.foldl removeLine lines).map g).sum + (es.map fun e => g e.2).sum =
      (lines.map g).sum := by
  induction es generalizing lines with
  | nil => simp
  | cons e es ih =>
    rw [List.map_cons, List.nodup_cons] at hkeys
    have hrest : ∀ e' ∈ es, (removeLine lines e)[e'.1]? = some e'.2 := by
      intro e' he'
      have hne : e.1 ≠ e'.1 := fun heq => hkeys.1 (heq ▸ List.mem_map_of_mem he')
      rw [removeLine, List.getElem?_modify_ne _ _ hne]
      exact hes e' (List.mem_cons_of_mem e he')
    have hhead := sum_map_modify (g := g) (f := ({ · with isRemoved := true }))
      (hes e List.mem_cons_self)
    have htail := ih hkeys.2 hrest
    rw [hremoved, ← removeLine] at hhead
    simp only [List.foldl_cons, List.map_cons, List.sum_cons]
    omega

/-- Saving a row leaves the other lines alone. -/
lemma getElem?_saveCorrectedRow {r : CorrectedRow} {id : ℕ} {l : WmsProductionEntryLine}
    (hne : r.lineKey ≠ some id) (hl : lines[id]? = some l) :
    (saveCorrectedRow entry lines r)[id]? = some l := by
  unfold saveCorrectedRow
  split
  · rename_i key old hline
    have hkey : key ≠ id := by
      rintro rfl
      exact hne (by rw [CorrectedRow.lineKey, hline, Option.map_some])
    rw [List.getElem?_modify_ne _ _ hkey, hl]
  · exact getElem?_of_prefix (List.prefix_append _ _) hl

/-- Saving the rows of a correction trades the lines they rewrite for what they record. -/
lemma sum_saveCorrectedRow {rows : List CorrectedRow}
    (hkeys : (rows.filterMap CorrectedRow.lineKey).Nodup)
    (hlines : ∀ r ∈ rows, ∀ e, r.line = some e → lines[e.1]? = some e.2) :
    ((rows.foldl (saveCorrectedRow entry) lines).map g).sum +
        ((rows.filterMap CorrectedRow.line).map fun e => g e.2).sum =
      (lines.map g).sum + (rows.map fun r => g (r.result entry)).sum := by
  induction rows generalizing lines with
  | nil => simp
  | cons r rows ih =>
    have hothers : ∀ r' ∈ rows, ∀ e, r'.line = some e → r.lineKey ≠ some e.1 := by
      intro r' hr' e he heq
      rw [List.filterMap_cons_some heq, List.nodup_cons] at hkeys
      refine hkeys.1 (List.mem_filterMap.mpr ⟨r', hr', ?_⟩)
      rw [CorrectedRow.lineKey, he, Option.map_some]
    have htail := @ih (saveCorrectedRow entry lines r)
      (hkeys.sublist (List.Sublist.filterMap _ (List.sublist_cons_self r rows)))
      fun r' hr' e he => getElem?_saveCorrectedRow (hothers r' hr' e he)
        (hlines r' (List.mem_cons_of_mem r hr') e he)
    rw [List.foldl_cons, List.map_cons, List.sum_cons]
    cases hline : r.line with
    | none =>
      have hsaved : ((saveCorrectedRow entry lines r).map g).sum =
          (lines.map g).sum + g (r.result entry) := by
        rw [saveCorrectedRow, hline, List.map_append, List.sum_append]
        simp
      rw [List.filterMap_cons_none hline]
      omega
    | some e =>
      have hsaved := sum_map_modify (g := g) (f := r.rewrite)
        (hlines r List.mem_cons_self e hline)
      have hresult : r.result entry = r.rewrite e.2 := by rw [CorrectedRow.result, hline]
      have hstep : saveCorrectedRow entry lines r = lines.modify e.1 r.rewrite := by
        rw [saveCorrectedRow, hline]
      rw [List.filterMap_cons_some hline, List.map_cons, List.sum_cons, hresult]
      rw [hstep] at htail ⊢
      omega

lemma getElem?_foldl_saveCorrectedRow {rows : List CorrectedRow} {id : ℕ}
    {l : WmsProductionEntryLine} (hid : id ∉ rows.filterMap CorrectedRow.lineKey)
    (hl : lines[id]? = some l) : (rows.foldl (saveCorrectedRow entry) lines)[id]? = some l := by
  induction rows generalizing lines with
  | nil => exact hl
  | cons r rows ih =>
    have hne : r.lineKey ≠ some id := by
      intro heq
      rw [List.filterMap_cons_some heq] at hid
      exact hid List.mem_cons_self
    refine ih (fun hmem => hid ?_) (getElem?_saveCorrectedRow hne hl)
    exact (List.Sublist.filterMap _ (List.sublist_cons_self r rows)).subset hmem

/-- A correction trades the lines of the entry for what its rows record. -/
lemma sum_correctedLines
    (hremoved : ∀ l : WmsProductionEntryLine, g { l with isRemoved := true } = 0)
    {originals : List (ℕ × WmsProductionEntryLine)} {rows : List CorrectedRow}
    (hkeys : (originals.map Prod.fst).Nodup)
    (horiginals : ∀ e ∈ originals, lines[e.1]? = some e.2)
    (hrows : (rows.filterMap CorrectedRow.lineKey).Nodup)
    (hfrom : ∀ r ∈ rows, ∀ e, r.line = some e → e ∈ originals) :
    ((correctedLines entry originals rows lines).map g).sum +
        (originals.map fun e => g e.2).sum =
      (lines.map g).sum + (rows.map fun r => g (r.result entry)).sum := by
  let retained := rows.filterMap CorrectedRow.lineKey
  let kept := originals.filter fun e => retained.contains e.1
  let dropped := originals.filter fun e => !retained.contains e.1
  have hsaved := @sum_saveCorrectedRow g entry lines rows hrows
    fun r hr e he => horiginals e (hfrom r hr e he)
  have hdropped : ((correctedLines entry originals rows lines).map g).sum +
      (dropped.map fun e => g e.2).sum =
      ((rows.foldl (saveCorrectedRow entry) lines).map g).sum := by
    refine sum_removeLine hremoved (hkeys.sublist (List.filter_sublist.map _)) fun e he => ?_
    obtain ⟨hmem, hnot⟩ := List.mem_filter.mp he
    refine getElem?_foldl_saveCorrectedRow (fun hin => ?_) (horiginals e hmem)
    simp only [Bool.not_eq_true', List.contains_iff_mem, ← Bool.not_eq_true] at hnot
    exact hnot hin
  -- the lines that are kept are those the rows name
  have hkept : kept.Perm (rows.filterMap CorrectedRow.line) := by
    have hmap : (rows.filterMap CorrectedRow.line).map Prod.fst = retained :=
      List.map_filterMap
    refine (List.perm_ext_iff_of_nodup ((List.Nodup.of_map _ hkeys).filter _)
      (List.Nodup.of_map Prod.fst (by rw [hmap]; exact hrows))).mpr fun e => ?_
    rw [List.mem_filter, List.contains_iff_mem, List.mem_filterMap, List.mem_filterMap]
    constructor
    · rintro ⟨he, r, hr, hkey⟩
      obtain ⟨e', he', heq⟩ := Option.map_eq_some_iff.mp hkey
      have hsame : some e.2 = some e'.2 := by
        rw [← horiginals e he, ← horiginals e' (hfrom r hr e' he'), heq]
      exact ⟨r, hr, by rw [he', Prod.ext heq (Option.some.inj hsame).symm]⟩
    · rintro ⟨r, hr, he⟩
      refine ⟨hfrom r hr e he, r, hr, ?_⟩
      rw [CorrectedRow.lineKey, he, Option.map_some]
  have hsplit : (kept.map fun e => g e.2).sum + (dropped.map fun e => g e.2).sum =
      (originals.map fun e => g e.2).sum := by
    rw [← List.sum_append, ← List.map_append]
    exact ((List.filter_append_perm _ _).map _).sum_eq
  have hsum := (hkept.map fun e => g e.2).sum_eq
  omega

end Weight

/-- What the lines, a rewriting of one and the new lines meet, all lines meet after a
correction. -/
lemma forall_mem_correctedLines {P : WmsProductionEntryLine → Prop} {entry : ℕ}
    {lines : List WmsProductionEntryLine} {originals : List (ℕ × WmsProductionEntryLine)}
    {rows : List CorrectedRow} (hlines : ∀ l ∈ lines, P l)
    (hrewrite : ∀ r ∈ rows, ∀ l, P l → P (r.rewrite l))
    (hnew : ∀ r ∈ rows, r.line = none → P (r.result entry))
    (hremove : ∀ l, P l → P { l with isRemoved := true }) :
    ∀ l ∈ correctedLines entry originals rows lines, P l := by
  have hsaved : ∀ l ∈ rows.foldl (saveCorrectedRow entry) lines, P l := by
    induction rows generalizing lines with
    | nil => exact hlines
    | cons r rows ih =>
      refine ih ?_ (fun r' hr' => hrewrite r' (List.mem_cons_of_mem r hr'))
        fun r' hr' => hnew r' (List.mem_cons_of_mem r hr')
      unfold saveCorrectedRow
      split
      · exact forall_mem_modify hlines (hrewrite r List.mem_cons_self) _
      · rename_i hline
        intro l hl
        rcases List.mem_append.mp hl with hl | hl
        · exact hlines l hl
        · rw [List.mem_singleton.mp hl]
          exact hnew r List.mem_cons_self hline
  have hdropped : ∀ (es : List (ℕ × WmsProductionEntryLine)) (saved : List _),
      (∀ l ∈ saved, P l) → ∀ l ∈ es.foldl removeLine saved, P l := by
    intro es
    induction es with
    | nil => exact fun saved h => h
    | cons e es ih => exact fun saved h => ih _ (forall_mem_modify h hremove e.1)
  exact hdropped _ _ hsaved

/-! ## The two sums -/

/-- The pieces a line records for a combination. -/
def pieces (k : ℕ × ℕ) (l : WmsProductionEntryLine) : ℕ :=
  if !l.isRemoved && l.combination = some k then l.quantity else 0

/-- A line of the entry with the combination. -/
def isLineOf (entry : ℕ) (k : ℕ × ℕ) (l : WmsProductionEntryLine) : Bool :=
  !l.isRemoved && l.entry = entry && l.combination = some k

/-- How many lines an entry has for a combination. -/
def timesIn (lines : List WmsProductionEntryLine) (entry : ℕ) (k : ℕ × ℕ) : ℕ :=
  lines.countP (isLineOf entry k)

lemma combination_eq_some {l : WmsProductionEntryLine} {k : ℕ × ℕ} :
    l.combination = some k ↔ l.order = some k.1 ∧ l.category = k.2 := by
  unfold WmsProductionEntryLine.combination
  rw [Option.map_eq_some_iff]
  constructor
  · rintro ⟨order, horder, rfl⟩
    exact ⟨horder, rfl⟩
  · rintro ⟨horder, hcategory⟩
    exact ⟨k.1, horder, by rw [hcategory]⟩

lemma recorded_eq_sum (lines : List WmsProductionEntryLine) (k : ℕ × ℕ) :
    recorded lines k.1 k.2 = (lines.map (pieces k)).sum := by
  unfold recorded
  rw [sum_map_filter]
  congr 1
  refine List.map_congr_left fun l _ => ?_
  simp [pieces, combination_eq_some, and_assoc]

@[simp] lemma result_combination (entry : ℕ) (r : CorrectedRow) :
    (r.result entry).combination = r.combination := by
  unfold CorrectedRow.result CorrectedRow.combination WmsProductionEntryLine.combination
  split <;> exact Option.map_map _ _ r.order

@[simp] lemma result_quantity (entry : ℕ) (r : CorrectedRow) :
    (r.result entry).quantity = r.quantity := by
  unfold CorrectedRow.result
  split <;> rfl

lemma pieces_result_le (entry : ℕ) (k : ℕ × ℕ) (r : CorrectedRow) :
    pieces k (r.result entry) ≤ if r.combination = some k then r.quantity else 0 := by
  unfold pieces
  rw [result_combination, result_quantity]
  by_cases hk : r.combination = some k
  · simp only [hk, if_true]
    split <;> omega
  · simp [hk]

/-- The rows of a correction record at most what they propose. -/
lemma sum_pieces_result_le (entry : ℕ) (k : ℕ × ℕ) (rows : List CorrectedRow) :
    (rows.map fun r => pieces k (r.result entry)).sum ≤ proposed rows k := by
  unfold proposed
  rw [sum_map_filter]
  refine List.sum_le_sum fun r _ => ?_
  simpa using pieces_result_le entry k r

lemma proposed_eq_zero {rows : List CorrectedRow} {k : ℕ × ℕ}
    (h : ∀ r ∈ rows, r.combination ≠ some k) : proposed rows k = 0 := by
  unfold proposed
  rw [List.filter_eq_nil_iff.mpr fun r hr => by simpa using h r hr]
  rfl

/-! ## The law -/

/-- What a line refers to is there. -/
structure LineKnown (w : Workshop) (l : WmsProductionEntryLine) : Prop where
  assignment : ∃ a, w.assignments[l.assignment]? = some a ∧ a.category = l.category
  order : ∀ order, l.order = some order → order < w.orders.length
  entry : l.entry < w.entries.length

/-- No operation has recorded more pieces than the order has. -/
def WithinPieces (w : Workshop) : Prop :=
  ∀ order row, w.orders[order]? = some row → ∀ pcs : ℕ+, row.eligiblePieceCount = some pcs →
    ∀ category, recorded w.lines order category ≤ pcs

/-- No entry has an order and an operation twice. -/
def EachOnce (w : Workshop) : Prop := ∀ entry k, timesIn w.lines entry k ≤ 1

structure PiecesKept (w : Workshop) : Prop where
  known : ∀ l ∈ w.lines, LineKnown w l
  within : WithinPieces w
  once : EachOnce w

/-! ## What an accepted correction changes -/

section Correction

variable {w : Workshop} {entry : ℕ} {row : WmsProductionEntry} {x : Correction}

lemma Correction.Accepted.nodup_keys (h : x.Accepted w entry row) :
    (x.originals.map Prod.fst).Nodup := by
  rw [h.originals]
  exact nodup_keys_liveLines w entry

lemma Correction.Accepted.getElem? (h : x.Accepted w entry row) :
    ∀ e ∈ x.originals, w.lines[e.1]? = some e.2 := by
  intro e he
  rw [h.originals] at he
  exact (mem_liveLines.mp he).1

/-- What a correction does to a sum over the lines. -/
lemma Correction.Accepted.sum (h : x.Accepted w entry row) {g : WmsProductionEntryLine → ℕ}
    (hremoved : ∀ l : WmsProductionEntryLine, g { l with isRemoved := true } = 0) :
    ((correctedLines entry x.originals x.rows w.lines).map g).sum +
        (x.originals.map fun e => g e.2).sum =
      (w.lines.map g).sum + (x.rows.map fun r => g (r.result entry)).sum :=
  sum_correctedLines hremoved h.nodup_keys h.getElem? h.rows.distinct h.rows.line

/-- What the lines recorded, of the entry and of the others. -/
lemma Correction.Accepted.recorded_except (h : x.Accepted w entry row) (k : ℕ × ℕ) :
    recorded (linesExcept w.lines (x.originals.map Prod.fst)) k.1 k.2 +
      (x.originals.map fun e => pieces k e.2).sum = recorded w.lines k.1 k.2 := by
  rw [recorded_eq_sum, recorded_eq_sum]
  exact sum_except_add h.nodup_keys h.getElem?

/-- After a correction a combination has what the other lines recorded, and at most what the
rows propose. -/
lemma Correction.Accepted.recorded_le (h : x.Accepted w entry row) (k : ℕ × ℕ) :
    recorded (correctedLines entry x.originals x.rows w.lines) k.1 k.2 ≤
      recorded (linesExcept w.lines (x.originals.map Prod.fst)) k.1 k.2 + proposed x.rows k := by
  have hsum := h.sum (g := pieces k) fun l => by simp [pieces]
  have hsplit := h.recorded_except k
  have hle := sum_pieces_result_le entry k x.rows
  rw [recorded_eq_sum w.lines] at hsplit
  rw [recorded_eq_sum (correctedLines _ _ _ _)]
  omega

/-- A row's cap is what the rows may propose for its combination. -/
lemma Correction.Accepted.proposed_le (h : x.Accepted w entry row) {k : ℕ × ℕ}
    {order : WmsWorkshopOrder} {pcs : ℕ+} (horder : w.orders[k.1]? = some order)
    (hpcs : order.eligiblePieceCount = some pcs)
    (hany : ∃ r ∈ x.rows, r.combination = some k) :
    recorded (linesExcept w.lines (x.originals.map Prod.fst)) k.1 k.2 + proposed x.rows k ≤
      pcs := by
  obtain ⟨r, hr, hk⟩ := hany
  unfold CorrectedRow.combination at hk
  obtain ⟨o, ho, rfl⟩ := Option.map_eq_some_iff.mp hk
  have hcap := h.cap r hr
  unfold checkCorrectedCap at hcap
  simp only [ho, except_bind_eq_ok, found_eq_ok, horder] at hcap
  obtain ⟨order', horder', hcap⟩ := hcap
  obtain rfl := Option.some.inj horder'
  simpa [hpcs] using hcap

/-- Corrections stay within the pieces of the orders. -/
lemma WithinPieces.correct (hwithin : WithinPieces w) (h : x.Accepted w entry row) :
    WithinPieces { w with
      entries := w.entries.set entry x.entry
      lines := correctedLines entry x.originals x.rows w.lines } := by
  intro order o ho pcs hpcs category
  have hle := h.recorded_le (order, category)
  by_cases hany : ∃ r ∈ x.rows, r.combination = some (order, category)
  · exact hle.trans (h.proposed_le ho hpcs hany)
  · have hzero : proposed x.rows (order, category) = 0 :=
      proposed_eq_zero fun r hr hk => hany ⟨r, hr, hk⟩
    have hold := hwithin order o ho pcs hpcs category
    have hsplit := h.recorded_except (order, category)
    show recorded (correctedLines _ _ _ _) order category ≤ _
    simp only at hle hsplit
    omega

/-- The lines of the entry with a combination are among the originals. -/
lemma Correction.Accepted.countP_originals (h : x.Accepted w entry row) (k : ℕ × ℕ) :
    (x.originals.countP fun e => e.2.combination = some k) = timesIn w.lines entry k := by
  have hmap : (liveLines w entry).map Prod.snd =
      w.lines.filter fun l => !l.isRemoved && l.entry = entry := by
    rw [liveLines, ← List.filter_filter, ← map_snd_childrenOf, List.filter_map]
    rfl
  rw [h.originals, timesIn]
  have hcount := List.countP_map (p := fun l => decide (l.combination = some k)) (f := Prod.snd)
    (l := liveLines w entry)
  rw [hmap, List.countP_filter] at hcount
  refine Eq.trans hcount.symm (List.countP_congr fun l _ => ?_)
  simp only [isLineOf, Bool.and_eq_true, decide_eq_true_eq]
  tauto

/-- A row that repeats a combination comes from a line of the entry that has it. -/
lemma Correction.Accepted.comes_from (h : x.Accepted w entry row)
    (hknown : ∀ l ∈ w.lines, LineKnown w l) {k : ℕ × ℕ}
    (hcount : 1 < (x.rows.filterMap CorrectedRow.combination).count k) :
    ∀ r ∈ x.rows, r.combination = some k → ∃ e, r.line = some e ∧ e.2.combination = some k := by
  intro r hr hk
  rcases h.rows.combination r hr k hk with hle | ⟨e, he, hsame | ⟨horder, hassignment⟩⟩
  · omega
  · exact ⟨e, he, hsame⟩
  · refine ⟨e, he, combination_eq_some.mpr ⟨horder, ?_⟩⟩
    have hmem := List.mem_of_getElem? (h.getElem? e (h.rows.line r hr e he))
    obtain ⟨a, ha, hcategory⟩ := (hknown e.2 hmem).assignment
    rw [hassignment, h.rows.assignment r hr] at ha
    obtain rfl := Option.some.inj ha
    unfold CorrectedRow.combination at hk
    obtain ⟨o, -, rfl⟩ := Option.map_eq_some_iff.mp hk
    exact hcategory.symm

/-- The rows of a correction have a combination at most once. -/
lemma Correction.Accepted.count_le_one (h : x.Accepted w entry row)
    (hknown : ∀ l ∈ w.lines, LineKnown w l) (honce : EachOnce w) (k : ℕ × ℕ) :
    (x.rows.filterMap CorrectedRow.combination).count k ≤ 1 := by
  by_contra hmany
  have hfrom := h.comes_from hknown (Nat.lt_of_not_le hmany)
  have hrows : (x.rows.filterMap CorrectedRow.combination).count k ≤
      (x.rows.filterMap CorrectedRow.line).countP fun e => e.2.combination = some k := by
    rw [List.count, List.countP_filterMap, List.countP_filterMap]
    refine List.countP_mono_left fun r hr hk => ?_
    cases hcomb : r.combination with
    | none => simp [hcomb] at hk
    | some k' =>
      obtain rfl : k' = k := by simpa [hcomb] using hk
      obtain ⟨e, he, hek⟩ := hfrom r hr hcomb
      simp [he, hek]
  have hnodup : (x.rows.filterMap CorrectedRow.line).Nodup :=
    List.Nodup.of_map Prod.fst (by rw [List.map_filterMap]; exact h.rows.distinct)
  have hsub : (x.rows.filterMap CorrectedRow.line) ⊆ x.originals := by
    intro e he
    obtain ⟨r, hr, hline⟩ := List.mem_filterMap.mp he
    exact h.rows.line r hr e hline
  have hle := (List.subperm_of_subset hnodup hsub).countP_le
    fun e => decide (e.2.combination = some k)
  rw [h.countP_originals] at hle
  have := honce entry k
  omega

/-- A row becomes a line of the entry. -/
lemma Correction.Accepted.result_entry (h : x.Accepted w entry row) {r : CorrectedRow}
    (hr : r ∈ x.rows) : (r.result entry).entry = entry := by
  unfold CorrectedRow.result
  split
  · rename_i id l hline
    have hmem := h.rows.line r hr _ hline
    rw [h.originals] at hmem
    exact (mem_liveLines.mp hmem).2.1
  · rfl

/-- Corrections keep an order and an operation to one line of an entry. -/
lemma EachOnce.correct (honce : EachOnce w) (hknown : ∀ l ∈ w.lines, LineKnown w l)
    (h : x.Accepted w entry row) :
    EachOnce { w with
      entries := w.entries.set entry x.entry
      lines := correctedLines entry x.originals x.rows w.lines } := by
  intro other k
  have hsum := h.sum (g := fun l => if isLineOf other k l then 1 else 0) fun l => by
    simp [isLineOf]
  rw [← countP_eq_sum (isLineOf other k) (correctedLines _ _ _ _),
    ← countP_eq_sum (isLineOf other k) w.lines] at hsum
  have hold := honce other k
  show timesIn (correctedLines _ _ _ _) other k ≤ 1
  unfold timesIn at hold ⊢
  by_cases hother : other = entry
  · subst hother
    have horiginals : (x.originals.map fun e => if isLineOf other k e.2 then 1 else 0).sum =
        timesIn w.lines other k := by
      rw [← h.countP_originals k, countP_eq_sum]
      congr 1
      refine List.map_congr_left fun e he => ?_
      rw [h.originals] at he
      obtain ⟨-, hentry, hlive⟩ := mem_liveLines.mp he
      simp [isLineOf, hentry, hlive]
    have hrows : (x.rows.map fun r => if isLineOf other k (r.result other) then 1 else 0).sum ≤
        (x.rows.filterMap CorrectedRow.combination).count k := by
      rw [List.count, List.countP_filterMap, countP_eq_sum]
      refine List.sum_le_sum fun r _ => ?_
      by_cases hk : r.combination = some k
      · simp only [hk, Option.map_some, Option.getD_some, beq_self_eq_true, if_true]
        split <;> omega
      · simp [isLineOf, hk]
    have hone := h.count_le_one hknown honce k
    unfold timesIn at horiginals
    omega
  · have hrows : (x.rows.map fun r => if isLineOf other k (r.result entry) then 1 else 0).sum =
        0 := by
      refine List.sum_eq_zero fun n hn => ?_
      obtain ⟨r, hr, rfl⟩ := List.mem_map.mp hn
      simp [isLineOf, h.result_entry hr, Ne.symm hother]
    omega

end Correction

/-! ## One request -/

lemma LineKnown.mono {w t : Workshop} {l : WmsProductionEntryLine} (h : LineKnown w l)
    (hassignments : AssignmentsKept w t) (horders : w.orders.length ≤ t.orders.length)
    (hentries : w.entries.length ≤ t.entries.length) : LineKnown t l where
  assignment := by
    obtain ⟨a, ha, hcategory⟩ := h.assignment
    obtain ⟨a', ha', hidentity⟩ := hassignments.getElem? ha
    exact ⟨a', ha', (Prod.mk.inj hidentity).2.trans hcategory⟩
  order order ho := (h.order order ho).trans_le horders
  entry := h.entry.trans_le hentries

/-- An order without lines has recorded nothing. -/
lemma recorded_eq_zero {lines : List WmsProductionEntryLine} {order : ℕ}
    (h : ∀ l ∈ lines, l.order ≠ some order) (category : ℕ) :
    recorded lines order category = 0 := by
  unfold recorded
  rw [List.filter_eq_nil_iff.mpr fun l hl => by simp [h l hl]]
  rfl

/-- New orders have no lines yet. -/
lemma WithinPieces.receive {w : Workshop} (h : PiecesKept w) (new : List WmsWorkshopOrder) :
    WithinPieces { w with orders := w.orders ++ new } := by
  intro order row hrow pcs hpcs category
  rcases getElem?_append_eq_some.mp hrow with hold | ⟨hge, -⟩
  · exact h.within order row hold pcs hpcs category
  · show recorded w.lines order category ≤ _
    rw [recorded_eq_zero fun l hl horder => ?_]
    · exact Nat.zero_le _
    · have := (h.known l hl).order order horder
      omega

/-- A new count is checked against every operation. -/
lemma WithinPieces.count {w : Workshop} (h : WithinPieces w) {c : WmsCall} {order : ℕ}
    {count : RawInt} {pcs : ℕ+} (hcheck : checkPieceCount c order count w = .ok pcs) :
    WithinPieces { w with
      orders := w.orders.modify order ({ · with eligiblePieceCount := some pcs }) } := by
  obtain ⟨old, hold, hcount⟩ := checkPieceCount_ok hcheck
  intro other row hrow pcs' hpcs category
  obtain ⟨before, hbefore, heq⟩ := getElem?_modify_eq_some.mp hrow
  by_cases hother : order = other
  · subst hother
    rw [if_pos rfl] at heq
    subst heq
    obtain rfl : old = before := Option.some.inj (hold.symm.trans hbefore)
    obtain rfl : pcs = pcs' := Option.some.inj hpcs
    rcases hcount with hsame | hle
    · exact h order old hold pcs hsame category
    · exact hle category
  · rw [if_neg hother] at heq
    subst heq
    exact h other before hbefore pcs' hpcs category

/-- The new lines of an entry record what its rows ask for. -/
lemma recorded_new (entry : ℕ) (rows : List ResolvedRow) (order category : ℕ) :
    recorded (rows.map (·.line entry)) order category = requested rows (order, category) := by
  unfold recorded requested
  rw [List.filter_map, List.map_map]
  congr 2
  refine List.filter_congr fun r _ => ?_
  simp [ResolvedRow.line, ResolvedRow.combination, newLine]

section Entry

variable {w : Workshop} {location employee total : ℕ} {date : Date} {notes : Text}
  {rows : List ResolvedRow}

/-- A new entry stays within the pieces of its orders. -/
lemma WithinPieces.produce (h : WithinPieces w) (hrows : ∀ r ∈ rows, r.Accepted w employee rows) :
    WithinPieces (addEntry location employee date total notes rows w) := by
  intro order row hrow pcs hpcs category
  show recorded (w.lines ++ _) order category ≤ _
  rw [recorded_append, recorded_new]
  by_cases hany : ∃ r ∈ rows, r.combination = (order, category)
  · obtain ⟨r, hr, hk⟩ := hany
    obtain ⟨rfl, rfl⟩ := Prod.mk.inj hk
    obtain ⟨pcs', hpcs', hcap⟩ := (hrows r hr).cap
    have horder := (hrows r hr).order
    obtain rfl : row = r.order := Option.some.inj (hrow.symm.trans horder)
    obtain rfl : pcs = pcs' := Option.some.inj (hpcs.symm.trans hpcs')
    exact hcap
  · have hzero : requested rows (order, category) = 0 := by
      unfold requested
      rw [List.filter_eq_nil_iff.mpr fun r hr => by simpa using fun hk => hany ⟨r, hr, hk⟩]
      rfl
    have := h order row hrow pcs hpcs category
    omega

/-- A new entry has each combination once. -/
lemma EachOnce.produce (h : PiecesKept w) (hnodup : (rows.map (·.combination)).Nodup) :
    EachOnce (addEntry location employee date total notes rows w) := by
  intro entry k
  show timesIn (w.lines ++ _) entry k ≤ 1
  unfold timesIn
  rw [List.countP_append]
  have hold := h.once entry k
  unfold timesIn at hold
  by_cases hentry : entry = w.entries.length
  · -- the entry is the new one: no older line is in it
    have hnone : w.lines.countP (isLineOf entry k) = 0 := by
      rw [List.countP_eq_zero]
      intro l hl hin
      have hlt := (h.known l hl).entry
      simp only [isLineOf, Bool.and_eq_true, decide_eq_true_eq] at hin
      omega
    have hcount : (rows.map (·.line w.entries.length)).countP (isLineOf entry k) =
        (rows.map (·.combination)).count k := by
      rw [List.count, List.countP_map, List.countP_map]
      refine List.countP_congr fun r _ => ?_
      simp [isLineOf, ResolvedRow.line, ResolvedRow.combination, newLine, hentry,
        WmsProductionEntryLine.combination]
    have := List.nodup_iff_count_le_one.mp hnodup k
    omega
  · have hnone : (rows.map (·.line w.entries.length)).countP (isLineOf entry k) = 0 := by
      rw [List.countP_eq_zero]
      intro l hl hin
      obtain ⟨r, -, rfl⟩ := List.mem_map.mp hl
      simp only [isLineOf, Bool.and_eq_true, decide_eq_true_eq] at hin
      exact hentry hin.1.2.symm
    omega

end Entry

/-- What the lines refer to is there after a correction. -/
lemma LineKnown.correct {w : Workshop} {entry : ℕ} {row : WmsProductionEntry} {x : Correction}
    (hknown : ∀ l ∈ w.lines, LineKnown w l) (h : x.Accepted w entry row) :
    ∀ l ∈ correctedLines entry x.originals x.rows w.lines, LineKnown w l := by
  have hcolumns : ∀ r ∈ x.rows,
      (∃ a, w.assignments[r.assignmentId]? = some a ∧ a.category = r.assignment.category) ∧
        ∀ order, r.order.map Prod.fst = some order → order < w.orders.length := by
    intro r hr
    refine ⟨⟨r.assignment, h.rows.assignment r hr, rfl⟩, fun order horder => ?_⟩
    obtain ⟨o, ho, rfl⟩ := Option.map_eq_some_iff.mp horder
    exact (List.getElem?_eq_some_iff.mp (h.rows.order r hr o ho)).1
  refine forall_mem_correctedLines hknown ?_ ?_ fun l hl => ⟨hl.assignment, hl.order, hl.entry⟩
  · intro r hr l hl
    exact ⟨(hcolumns r hr).1, (hcolumns r hr).2, hl.entry⟩
  · intro r hr hline
    have hresult : r.result entry = newLine entry (r.order.map Prod.fst) r.assignmentId
        r.assignment r.category r.quantity := by rw [CorrectedRow.result, hline]
    rw [hresult]
    exact ⟨(hcolumns r hr).1, (hcolumns r hr).2, (List.getElem?_eq_some_iff.mp h.found).1⟩

/-- Orders and lines that are the same, and assignments that are kept. -/
lemma PiecesKept.of_same {w t : Workshop} (h : PiecesKept w) (hledger : t.ledger = w.ledger)
    (hassignments : AssignmentsKept w t) : PiecesKept t := by
  obtain ⟨horders, hrest⟩ := Prod.mk.inj hledger
  obtain ⟨hentries, hrest⟩ := Prod.mk.inj hrest
  obtain ⟨hlines, -⟩ := Prod.mk.inj hrest
  refine ⟨?_, ?_, ?_⟩
  · intro l hl
    rw [hlines] at hl
    exact (h.known l hl).mono hassignments (by rw [horders]) (by rw [hentries])
  · intro order row hrow pcs hpcs category
    rw [horders] at hrow
    rw [hlines]
    exact h.within order row hrow pcs hpcs category
  · intro entry k
    rw [hlines]
    exact h.once entry k

/-- Every request keeps the law. -/
lemma PiecesKept.step {w : Workshop} (h : PiecesKept w) (op : WorkshopOp) :
    PiecesKept (Workshop.step w op) := by
  have hstep := workshopStep w op
  generalize Workshop.step w op = t at hstep
  cases hstep with
  | refused => exact h
  | master hmaster _ => exact h.of_same hmaster.ledger hmaster.assignments
  | received new =>
    refine ⟨fun l hl => ?_, WithinPieces.receive h new, h.once⟩
    exact (h.known l hl).mono (.of_eq rfl) (by simp) le_rfl
  | counted hcheck =>
    refine ⟨fun l hl => ?_, h.within.count hcheck, h.once⟩
    exact (h.known l hl).mono (.of_eq rfl) (by simp) le_rfl
  | finished horders hrest =>
    rw [hrest]
    refine ⟨fun l hl => ?_, ?_, h.once⟩
    · exact (h.known l hl).mono (.of_eq rfl) horders.length_eq.le le_rfl
    · intro order row hrow pcs hpcs category
      obtain ⟨hlt, rfl⟩ := List.getElem?_eq_some_iff.mp hrow
      have hlt' : order < w.orders.length := by
        rw [horders.length_eq]
        exact hlt
      have hsame := horders.get hlt' hlt
      refine h.within order _ (List.getElem?_eq_getElem hlt') pcs ?_ category
      rw [← hpcs]
      exact hsame.symm
  | produced hcheck =>
    obtain ⟨hnodup, hrows, -⟩ := checkProductionEntry_ok hcheck
    refine ⟨?_, h.within.produce hrows, EachOnce.produce h hnodup⟩
    intro l hl
    rcases List.mem_append.mp hl with hl | hl
    · exact (h.known l hl).mono (.of_eq rfl) le_rfl (by simp [addEntry])
    · obtain ⟨r, hr, rfl⟩ := List.mem_map.mp hl
      refine ⟨⟨r.assignment, (hrows r hr).assignment, rfl⟩, ?_, ?_⟩
      swap
      · simp [addEntry, ResolvedRow.line, newLine]
      intro order horder
      obtain rfl : r.orderId = order := Option.some.inj horder
      exact (List.getElem?_eq_some_iff.mp (hrows r hr).order).1
  | corrected hcheck =>
    obtain ⟨row, haccepted⟩ := checkCorrection_ok hcheck
    refine ⟨fun l hl => ?_, h.within.correct haccepted, h.once.correct h.known haccepted⟩
    exact (LineKnown.correct h.known haccepted l hl).mono (.of_eq rfl) le_rfl (by simp)
  | _ =>
    -- salaries are no part of it
    exact ⟨fun l hl => (h.known l hl).mono (.of_eq rfl) le_rfl le_rfl, h.within, h.once⟩

/-! ## Every run -/

/-- The tables when production was linked to orders: no order has a piece count yet, and no line
an order. -/
structure Beginning where
  tables : Workshop := {}
  orders : ∀ o ∈ tables.orders, o.eligiblePieceCount = none
  lines : ∀ l ∈ tables.lines, l.order = none
  assignments : ∀ l ∈ tables.lines,
    ∃ a, tables.assignments[l.assignment]? = some a ∧ a.category = l.category
  entries : ∀ l ∈ tables.lines, l.entry < tables.entries.length

/-- A business without records. -/
instance : Inhabited Beginning where
  default := {
    orders := by simp
    lines := by simp
    assignments := by simp
    entries := by simp }

lemma Beginning.piecesKept (b : Beginning) : PiecesKept b.tables where
  known l hl := ⟨b.assignments l hl, fun order ho => by simp [b.lines l hl] at ho, b.entries l hl⟩
  within order row hrow pcs hpcs := by
    rw [b.orders row (List.mem_of_getElem? hrow)] at hpcs
    exact nomatch hpcs
  once entry k := by
    have hnone : timesIn b.tables.lines entry k = 0 := by
      unfold timesIn
      rw [List.countP_eq_zero]
      intro l hl hin
      simp [isLineOf, combination_eq_some, b.lines l hl] at hin
    omega

/-- Production never exceeds the pieces of the order: whatever requests a workshop has served,
the lines that are not removed record for an order with a piece count, in no operation, more
pieces than it has, and an entry has no more than one line for an order and an operation. -/
theorem production_within_pieces (start : Beginning) (ops : List WorkshopOp) :
    (∀ order row, (Workshop.run start.tables ops).orders[order]? = some row →
      ∀ pcs : ℕ+, row.eligiblePieceCount = some pcs → ∀ category,
        recorded (Workshop.run start.tables ops).lines order category ≤ pcs) ∧
    ∀ entry order category,
      timesIn (Workshop.run start.tables ops).lines entry (order, category) ≤ 1 := by
  have hkept : PiecesKept (Workshop.run start.tables ops) :=
    Trace.invariant (I := PiecesKept) (fun w op h => h.step op) start.piecesKept ops
  exact ⟨hkept.within, fun entry order category => hkept.once entry (order, category)⟩

end NexaPos.Wms
