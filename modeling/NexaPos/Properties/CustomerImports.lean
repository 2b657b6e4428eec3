import NexaPos.Customers.Import
import NexaPos.Lib.StepLog

/-!
# What an import of customers leaves

A row can spoil an import in three ways: the database refuses a text that the row is looked up by,
or the customer that the row comes to, or the row fails its validation after its group was
created.  An import without such a row is row-atomic, and no other import is.

That an import in update mode can be repeated needs no condition: a row that did not fail leaves a
customer that the same row makes nothing new of.
-/

namespace NexaPos.CustomerImport

variable {α : Type} (platform : Platform α) (q : Request)

/-! ## Groups -/

/-- The group of a row needs no statement, or the database takes its name. -/
def GroupTaken (raw : Row) : Prop := groupName raw = [] ∨ platform.takes (groupName raw) = true

/-- The database once the group of a row is there. -/
def withGroup (raw : Row) (db : Database α) : Database α :=
  if groupName raw = [] ∨ groupName raw ∈ db.groups then db
  else { db with groups := db.groups ++ [groupName raw] }

/-- The group of the customer of a row. -/
def groupOf (raw : Row) (db : Database α) (c : Customer α) : Option ℕ :=
  if groupName raw = [] then c.group
  else (withGroup raw db).groups.findIdx? (· = groupName raw)

/-- What a row makes of a customer. -/
def draft (raw : Row) (isNew : Bool) (c : Customer α) (db : Database α) : Customer α :=
  { applyFields platform q raw isNew c with group := groupOf raw db c }

@[simp] lemma withGroup_customers (raw : Row) (db : Database α) :
    (withGroup raw db).customers = db.customers := by
  rw [withGroup]
  split <;> rfl

lemma withGroup_groups (raw : Row) (db : Database α) :
    ∃ new, (withGroup raw db).groups = db.groups ++ new := by
  rw [withGroup]
  split
  · exact ⟨[], (List.append_nil _).symm⟩
  · exact ⟨_, rfl⟩

lemma withGroup_eq_self_iff {raw : Row} {db : Database α} :
    withGroup raw db = db ↔ groupName raw = [] ∨ groupName raw ∈ db.groups := by
  rw [withGroup]
  split_ifs with h
  · exact iff_of_true rfl h
  · refine iff_of_false (fun heq => ?_) h
    have hlength := congrArg (fun d => d.groups.length) heq
    simp only [List.length_append, List.length_cons, List.length_nil] at hlength
    omega

@[simp] lemma withGroup_withGroup (raw : Row) (db : Database α) :
    withGroup raw (withGroup raw db) = withGroup raw db := by
  rw [withGroup_eq_self_iff, withGroup]
  split_ifs with h
  · exact h
  · exact .inr (List.mem_append_right _ List.mem_cons_self)

lemma findIdx?_append_self {l : List Text} {name : Text} (h : name ∉ l) :
    (l ++ [name]).findIdx? (· = name) = some l.length := by
  have hnone : l.findIdx? (· = name) = none := by
    rw [List.findIdx?_eq_none_iff]
    intro x hx
    exact decide_eq_false fun heq => h (heq ▸ hx)
  rw [List.findIdx?_append, hnone]
  simp

lemma getOrCreateGroup_eq {raw : Row} (htakes : platform.takes (groupName raw) = true)
    (hne : groupName raw ≠ []) (db : Database α) :
    ∃ pk, (withGroup raw db).groups.findIdx? (· = groupName raw) = some pk ∧
      getOrCreateGroup platform (groupName raw) { db } = some (pk, { db := withGroup raw db }) := by
  have hgo : ¬ (({ db } : Session α).broken = true ∨ ¬ platform.takes (groupName raw) = true) := by
    simp [htakes]
  rw [getOrCreateGroup, if_neg hgo]
  cases hfind : db.groups.findIdx? (· = groupName raw) with
  | some pk =>
    have hmem : groupName raw ∈ db.groups := by
      obtain ⟨hlt, hp, -⟩ := List.findIdx?_eq_some_iff_getElem.mp hfind
      exact of_decide_eq_true hp ▸ List.getElem_mem hlt
    have hsame : withGroup raw db = db := withGroup_eq_self_iff.mpr (.inr hmem)
    rw [hsame]
    exact ⟨pk, hfind, rfl⟩
  | none =>
    have hnot : groupName raw ∉ db.groups := fun hmem =>
      absurd (List.findIdx?_eq_none_iff.mp hfind _ hmem) (by simp)
    have hnew : withGroup raw db = { db with groups := db.groups ++ [groupName raw] } := by
      rw [withGroup, if_neg (not_or.mpr ⟨hne, hnot⟩)]
    rw [hnew]
    exact ⟨_, findIdx?_append_self hnot, rfl⟩

/-- `_apply_fields`, in a transaction that works. -/
lemma applyRow_eq (raw : Row) (isNew : Bool) (c : Customer α) (db : Database α) :
    (GroupTaken platform raw → applyRow platform q raw isNew c { db } =
      some (draft platform q raw isNew c db, { db := withGroup raw db })) ∧
    (¬ GroupTaken platform raw → applyRow platform q raw isNew c { db } = none) := by
  by_cases hne : groupName raw = []
  · refine ⟨fun _ => ?_, fun h => absurd (.inl hne) h⟩
    rw [applyRow, if_pos hne, withGroup, if_pos (.inl hne), draft, groupOf, if_pos hne]
    rfl
  · constructor
    · intro h
      obtain ⟨pk, hpk, hget⟩ := getOrCreateGroup_eq platform (h.resolve_left hne) hne db
      rw [applyRow, if_neg hne, hget, draft, groupOf, if_neg hne, hpk]
      rfl
    · intro h
      have hrefused : ¬ platform.takes (groupName raw) = true := fun ht => h (.inr ht)
      rw [applyRow, if_neg hne, getOrCreateGroup, if_pos (.inr hrefused)]
      rfl

/-! ## Rows that spoil an import -/

/-- A column of a row of the file. -/
abbrev cell (raw : Row) (name : String) : Text := column (normalizeRow raw) name

/-- The database does not take a text that the row is looked up by. -/
def LookupRefused (raw : Row) : Prop :=
  ∃ t ∈ [cell raw "customer code", cell raw "mobile", cell raw "email"],
    t ≠ [] ∧ platform.takes t = false

/-- The new customer of a row. -/
def created (raw : Row) (db : Database α) : Customer α :=
  draft platform q raw true
    (newCustomer platform q.branch
      (Text.orElse (cell raw "customer code") (nextCustomerCode q.branch db))) db

/-- The row passes its checks, and then a lookup or a save is refused, or the new customer is not
valid and its group is a new one. -/
def Spoils (db : Database α) (seen : Seen) (raw : Row) : Prop :=
  screenRow platform q seen raw = none ∧
    (LookupRefused platform raw ∨
      match existingCustomer q.branch (cell raw "customer code") db with
      | some (_, existing) =>
          existing.isWalkIn = false ∧ q.mode = .update ∧ GroupTaken platform raw ∧
            platform.accepts (keep platform (draft platform q raw false existing db)) = false
      | none =>
          foreignMatch q.branch (cell raw "mobile") (cell raw "email") db = false ∧
            GroupTaken platform raw ∧
            match platform.fullClean (withGroup raw db) (created platform q raw db) with
            | some _ => withGroup raw db ≠ db
            | none => platform.accepts (keep platform (created platform q raw db)) = false)

lemma lookupsRaise_iff {raw : Row} {db : Database α} :
    lookupsRaise platform (cell raw "customer code") (cell raw "mobile") (cell raw "email")
      { db } = true ↔ LookupRefused platform raw := by
  simp only [lookupsRaise, LookupRefused, List.any_eq_true, Bool.and_eq_true, decide_eq_true_eq,
    Bool.false_or, Bool.not_eq_true']

/-- What a row can come to in a transaction that works. -/
inductive Comes (db : Database α) (seen : Seen) (raw : Row) : Option (Done α) → Prop
  | spoiled {result : Option (Done α)} (h : Spoils platform q db seen raw)
      (hresult : ∀ d, result = some d → d.outcome = .failed ∧ d.session ≠ { db }) :
      Comes db seen raw result
  | failed {message : Text} (h : ¬ Spoils platform q db seen raw) :
      Comes db seen raw (some (fails { db } seen message))
  | skipped {pk : ℕ} {c : Customer α} (h : ¬ Spoils platform q db seen raw)
      (hscreen : screenRow platform q seen raw = none) (hlookup : ¬ LookupRefused platform raw)
      (hc : existingCustomer q.branch (cell raw "customer code") db = some (pk, c))
      (hmode : q.mode = .skip) :
      Comes db seen raw (some
        { outcome := .skipped, session := { db }
          seen := seen.add (cell raw "customer code") (cell raw "mobile") })
  | updated {pk : ℕ} {c : Customer α} (h : ¬ Spoils platform q db seen raw)
      (hscreen : screenRow platform q seen raw = none) (hlookup : ¬ LookupRefused platform raw)
      (hc : existingCustomer q.branch (cell raw "customer code") db = some (pk, c))
      (hwalk : c.isWalkIn = false) (hgroup : GroupTaken platform raw)
      (haccepts : platform.accepts (keep platform (draft platform q raw false c db)) = true) :
      Comes db seen raw (some
        { outcome := .updated
          session := { db := { withGroup raw db with
            customers := db.customers.set pk (keep platform (draft platform q raw false c db)) } }
          seen := seen.add (cell raw "customer code") (cell raw "mobile") })
  | imported (h : ¬ Spoils platform q db seen raw)
      (hscreen : screenRow platform q seen raw = none) (hlookup : ¬ LookupRefused platform raw)
      (hc : existingCustomer q.branch (cell raw "customer code") db = none)
      (hgroup : GroupTaken platform raw)
      (haccepts : platform.accepts (keep platform (created platform q raw db)) = true) :
      Comes db seen raw (some
        { outcome := .imported
          session := { db := { withGroup raw db with
            customers := db.customers ++ [keep platform (created platform q raw db)] } }
          seen := seen.add (cell raw "customer code") (cell raw "mobile") })

lemma updateRow_comes {db : Database α} {seen : Seen} {raw : Row} {pk : ℕ} {c : Customer α}
    (hscreen : screenRow platform q seen raw = none) (hlookup : ¬ LookupRefused platform raw)
    (hc : existingCustomer q.branch (cell raw "customer code") db = some (pk, c))
    (hwalk : c.isWalkIn = false) (hmode : q.mode = .update) :
    Comes platform q db seen raw (some (updateRow platform q raw pk c { db } seen)) := by
  have hspoils : Spoils platform q db seen raw ↔ GroupTaken platform raw ∧
      platform.accepts (keep platform (draft platform q raw false c db)) = false := by
    simp [Spoils, hscreen, hlookup, hc, hwalk, hmode]
  obtain ⟨htaken, hrefused⟩ := applyRow_eq platform q raw false c db
  by_cases hgroup : GroupTaken platform raw
  · rw [updateRow, htaken hgroup]
    cases haccepts : platform.accepts (keep platform (draft platform q raw false c db)) with
    | true =>
      simp only [haccepts, if_true, Bool.false_eq_true, if_false, withGroup_customers]
      refine .updated ?_ hscreen hlookup hc hwalk hgroup haccepts
      rw [hspoils, haccepts]
      simp
    | false =>
      simp only [haccepts, Bool.false_eq_true, if_false]
      refine .spoiled (hspoils.mpr ⟨hgroup, haccepts⟩) fun d hd => ?_
      obtain rfl := Option.some.inj hd
      simp [fails]
  · rw [updateRow, hrefused hgroup]
    exact .failed fun h => hgroup (hspoils.mp h).1

lemma createRow_comes {db : Database α} {seen : Seen} {raw : Row}
    (hscreen : screenRow platform q seen raw = none) (hlookup : ¬ LookupRefused platform raw)
    (hc : existingCustomer q.branch (cell raw "customer code") db = none)
    (hforeign : foreignMatch q.branch (cell raw "mobile") (cell raw "email") db = false) :
    Comes platform q db seen raw (some (createRow platform q raw { db } seen)) := by
  have hspoils : Spoils platform q db seen raw ↔ GroupTaken platform raw ∧
      match platform.fullClean (withGroup raw db) (created platform q raw db) with
      | some _ => withGroup raw db ≠ db
      | none => platform.accepts (keep platform (created platform q raw db)) = false := by
    simp [Spoils, hscreen, hlookup, hc, hforeign]
  obtain ⟨htaken, hrefused⟩ := applyRow_eq platform q raw true
    (newCustomer platform q.branch
      (Text.orElse (cell raw "customer code") (nextCustomerCode q.branch db))) db
  have hworks : ¬ (column (normalizeRow raw) "customer code" = [] ∧
      ({ db } : Session α).broken = true) := by simp
  by_cases hgroup : GroupTaken platform raw
  · replace htaken := htaken hgroup
    rw [← created] at htaken
    rw [createRow, if_neg hworks]
    simp only [htaken]
    cases hclean : platform.fullClean (withGroup raw db) (created platform q raw db) with
    | some message =>
      by_cases hsame : withGroup raw db = db
      · rw [hclean] at hspoils
        simp only [hsame, Bool.false_eq_true, if_false]
        exact .failed fun h => (hspoils.mp h).2 hsame
      · rw [hclean] at hspoils
        refine .spoiled (hspoils.mpr ⟨hgroup, hsame⟩) fun d hd => ?_
        obtain rfl := Option.some.inj hd
        exact ⟨rfl, fun heq => hsame (congrArg Session.db heq)⟩
    | none =>
      rw [hclean] at hspoils
      cases haccepts : platform.accepts (keep platform (created platform q raw db)) with
      | true =>
        simp only [Bool.false_eq_true, if_false, if_true, withGroup_customers]
        refine .imported ?_ hscreen hlookup hc hgroup haccepts
        rw [hspoils, haccepts]
        simp
      | false =>
        refine .spoiled (hspoils.mpr ⟨hgroup, haccepts⟩) fun d hd => ?_
        obtain rfl := Option.some.inj hd
        simp [fails]
  · rw [createRow, if_neg hworks]
    simp only [hrefused hgroup]
    exact .failed fun h => hgroup (hspoils.mp h).1

lemma importRow_comes (db : Database α) (seen : Seen) (raw : Row) :
    Comes platform q db seen raw (importRow platform q { db } seen raw) := by
  rw [importRow]
  cases hscreen : screenRow platform q seen raw with
  | some message => exact .failed fun h => nomatch hscreen.symm.trans h.1
  | none =>
    dsimp only
    by_cases hlookup : LookupRefused platform raw
    · rw [if_pos ((lookupsRaise_iff platform).mpr hlookup)]
      exact .spoiled ⟨hscreen, .inl hlookup⟩ fun d hd => nomatch hd
    · rw [if_neg fun h => hlookup ((lookupsRaise_iff platform).mp h)]
      cases hc : existingCustomer q.branch (cell raw "customer code") db with
      | none =>
        cases hforeign : foreignMatch q.branch (cell raw "mobile") (cell raw "email") db with
        | true =>
          refine .failed fun h => ?_
          simp [Spoils, hlookup, hc, hforeign] at h
        | false => exact createRow_comes platform q hscreen hlookup hc hforeign
      | some x =>
        obtain ⟨pk, c⟩ := x
        cases hwalk : c.isWalkIn with
        | true =>
          simp only [hwalk, if_true]
          refine .failed fun h => ?_
          simp [Spoils, hlookup, hc, hwalk] at h
        | false =>
          simp only [hwalk, Bool.false_eq_true, if_false]
          cases hmode : q.mode with
          | skip =>
            rw [if_pos rfl]
            refine .skipped ?_ hscreen hlookup hc hmode
            simp [Spoils, hlookup, hc, hmode]
          | update =>
            rw [if_neg (by simp)]
            exact updateRow_comes platform q hscreen hlookup hc hwalk hmode

/-! ## The loop -/

/-- One round, as a step on the transaction and the names that the file has used so far. -/
def rowStep (s : Session α × Seen) (raw : Row) : Option ((Session α × Seen) × Outcome) :=
  (importRow platform q s.1 s.2 raw).map fun d => ((d.session, d.seen), d.outcome)

/-- A database before its import. -/
def start (db : Database α) : Session α × Seen := ({ db }, {})

/-- The row comes to an outcome, and where it fails, it leaves everything as it was. -/
def Traceless (s : Session α × Seen) (raw : Row) : Prop :=
  ∃ x, rowStep platform q s raw = some x ∧ (x.2 = .failed → x.1 = s)

/-- The outcomes of an import that returns. -/
def Report.outcomes (r : Report α) : Option (List Outcome) := r.answer.map (·.2.1)

/-- What row-atomic and repeatable means for an import. -/
structure RowAtomic (db : Database α) (rows : List Row) : Prop where
  /-- No row stops the import, and a failed one leaves no trace. -/
  traceless : StepLog.Rounds (rowStep platform q) (Traceless platform q) (start db) rows
  /-- Every row is counted once. -/
  counted : ∃ summary outcomes errors,
    (importCustomers platform q db rows).answer = some (summary, outcomes, errors) ∧
    outcomes.length = rows.length ∧ summary.imported = outcomes.count .imported ∧
    summary.updated = outcomes.count .updated ∧ summary.skipped = outcomes.count .skipped ∧
    summary.failed = outcomes.count .failed
  /-- Without a failed row, the others come to the same. -/
  alone : ∀ outcomes, (importCustomers platform q db rows).outcomes = some outcomes →
    ∀ n, outcomes[n]? = some .failed →
      (importCustomers platform q db (rows.eraseIdx n)).outcomes = some (outcomes.eraseIdx n) ∧
      (importCustomers platform q db (rows.eraseIdx n)).db = (importCustomers platform q db rows).db
  /-- Rows with a code that did not fail change nothing a second time. -/
  repeatable : q.mode = .update → (∀ raw ∈ rows, cell raw "customer code" ≠ []) →
    ∀ outcomes, (importCustomers platform q db rows).outcomes = some outcomes →
      .failed ∉ outcomes →
      importCustomers platform q (importCustomers platform q db rows).db rows =
        { answer := some ({ updated := rows.length }, rows.map fun _ => .updated, [])
          db := (importCustomers platform q db rows).db }

lemma Summary.foldl_count (u : Summary) (outcomes : List Outcome) :
    outcomes.foldl Summary.count u =
      { imported := u.imported + outcomes.count .imported
        updated := u.updated + outcomes.count .updated
        skipped := u.skipped + outcomes.count .skipped
        failed := u.failed + outcomes.count .failed } := by
  induction outcomes generalizing u with
  | nil => rfl
  | cons o outcomes ih =>
    rw [List.foldl_cons, ih]
    cases o <;> simp [Summary.count, Nat.add_assoc, Nat.add_comm 1]

/-- The loop of the import is the run of its rounds. -/
lemma foldlM_importNext {p : Progress α} {rows : List Row} {y : (Session α × Seen) × List Outcome}
    (h : StepLog.run (rowStep platform q) (p.session, p.seen) rows = some y) :
    ∃ p', rows.foldlM (importNext platform q) p = some p' ∧ p'.session = y.1.1 ∧
      p'.outcomes = p.outcomes ++ y.2 ∧ p'.summary = y.2.foldl Summary.count p.summary := by
  induction rows generalizing p y with
  | nil =>
    obtain rfl := Option.some.inj h
    exact ⟨p, rfl, rfl, (List.append_nil _).symm, rfl⟩
  | cons raw rows ih =>
    obtain ⟨x, outcomes, hstep, hrest, hy⟩ := StepLog.run_cons_eq_some.mp h
    obtain ⟨d, hd, rfl⟩ := Option.map_eq_some_iff.mp hstep
    let p₁ : Progress α :=
      { session := d.session
        seen := d.seen
        summary := p.summary.count d.outcome
        outcomes := p.outcomes ++ [d.outcome]
        errors := p.errors ++ (d.error.map fun message => (p.summary.total + 2, message)).toList }
    have hnext : importNext platform q p raw = some p₁ := by
      rw [importNext, hd]
      rfl
    obtain ⟨p', hfold, hsession, houtcomes, hsummary⟩ := ih (p := p₁) hrest
    refine ⟨p', ?_, hsession, ?_, ?_⟩
    · rw [List.foldlM_cons, hnext]
      exact hfold
    · rw [houtcomes, hy, List.append_assoc, List.singleton_append]
    · rw [hsummary, hy, List.foldl_cons]

lemma importCustomers_of_run {db : Database α} {rows : List Row}
    {y : (Session α × Seen) × List Outcome}
    (h : StepLog.run (rowStep platform q) (start db) rows = some y) :
    ∃ errors, importCustomers platform q db rows =
      { answer := some (y.2.foldl Summary.count {}, y.2, errors)
        db := if y.1.1.broken then db else y.1.1.db } := by
  obtain ⟨p, hfold, hsession, houtcomes, hsummary⟩ :=
    foldlM_importNext platform q (p := { session := { db } }) h
  refine ⟨p.errors, ?_⟩
  rw [importCustomers, hfold]
  dsimp only
  rw [hsession, houtcomes, hsummary]
  rfl

/-! ## Failed rows -/

/-- The transaction works. -/
def Works (s : Session α × Seen) : Prop := s.1.broken = false

lemma works_iff {s : Session α × Seen} : Works s ↔ ∃ db seen, s = ({ db }, seen) := by
  obtain ⟨⟨db, broken⟩, seen⟩ := s
  constructor
  · intro h
    obtain rfl : broken = false := h
    exact ⟨db, seen, rfl⟩
  · rintro ⟨db', seen', heq⟩
    rw [heq]
    rfl

lemma traceless_iff {s : Session α × Seen} (hs : Works s) {raw : Row} :
    Traceless platform q s raw ↔ ¬ Spoils platform q s.1.db s.2 raw := by
  obtain ⟨db, seen, rfl⟩ := works_iff.mp hs
  have hcomes := importRow_comes platform q db seen raw
  dsimp only [Traceless, rowStep]
  generalize importRow platform q { db } seen raw = result at hcomes
  cases hcomes with
  | spoiled h hresult =>
    refine iff_of_false ?_ (not_not.mpr h)
    rintro ⟨x, hx, hsame⟩
    obtain ⟨d, hd, rfl⟩ := Option.map_eq_some_iff.mp hx
    obtain ⟨hfailed, hne⟩ := hresult d hd
    exact hne (congrArg Prod.fst (hsame hfailed))
  | failed h => exact iff_of_true ⟨_, rfl, fun _ => rfl⟩ h
  | skipped h => exact iff_of_true ⟨_, rfl, fun hfailed => nomatch hfailed⟩ h
  | updated h => exact iff_of_true ⟨_, rfl, fun hfailed => nomatch hfailed⟩ h
  | imported h => exact iff_of_true ⟨_, rfl, fun hfailed => nomatch hfailed⟩ h

lemma works_of_step {s : Session α × Seen} (hs : Works s) {raw : Row}
    (h : Traceless platform q s raw) {x : (Session α × Seen) × Outcome}
    (hx : rowStep platform q s raw = some x) : Works x.1 := by
  rw [traceless_iff platform q hs] at h
  obtain ⟨db, seen, rfl⟩ := works_iff.mp hs
  have hcomes := importRow_comes platform q db seen raw
  dsimp only [rowStep] at hx
  generalize importRow platform q { db } seen raw = result at hcomes hx
  cases hcomes with
  | spoiled hspoils => exact absurd hspoils h
  | failed => exact Option.some.inj hx ▸ rfl
  | skipped => exact Option.some.inj hx ▸ rfl
  | updated => exact Option.some.inj hx ▸ rfl
  | imported => exact Option.some.inj hx ▸ rfl

/-- No row of an import spoils it. -/
def NoneSpoils (db : Database α) (rows : List Row) : Prop :=
  StepLog.Rounds (rowStep platform q) (fun s raw => ¬ Spoils platform q s.1.db s.2 raw) (start db)
    rows

lemma noneSpoils_iff {db : Database α} {rows : List Row} :
    NoneSpoils platform q db rows ↔
      StepLog.Rounds (rowStep platform q) (Traceless platform q) (start db) rows :=
  (StepLog.rounds_congr (I := Works) (fun _ _ _ hs h hx => works_of_step platform q hs h hx)
    (fun _ _ hs => traceless_iff platform q hs) (show Works (start db) from rfl) rows).symm

/-! ## Rows that came to a customer -/

lemma setAll_apply (values : List (Text × Text)) (options : Text → Option Text) (key : Text) :
    setAll values options key = (get? values key).or (options key) := by
  induction values using List.reverseRecOn with
  | nil => rfl
  | append_singleton values x ih =>
    obtain ⟨name, value⟩ := x
    rw [setAll, List.foldl_append, List.foldl_cons, List.foldl_nil, ← setAll, get?,
      List.reverse_append, List.reverse_singleton, List.singleton_append, List.lookup_cons]
    by_cases hkey : key = name
    · rw [hkey, Function.update_self, beq_self_eq_true]
      rfl
    · rw [Function.update_of_ne hkey, ih, beq_false_of_ne hkey, ← get?]

lemma setAll_setAll (values : List (Text × Text)) (options : Text → Option Text) :
    setAll values (setAll values options) = setAll values options := by
  funext key
  rw [setAll_apply, setAll_apply]
  cases get? values key <;> rfl

lemma field_field (r : List (Text × Text)) (name : String) (current : Text) (size : ℕ) :
    field r name (field r name current size) size = field r name current size := by
  rw [field, field]
  cases get? r name.toList with
  | none => rw [Option.getD_none, Option.getD_none, List.take_take, min_self]
  | some value => rfl

lemma getD_getD_self (o : Option Text) (t : Text) : o.getD (o.getD t) = o.getD t := by
  cases o <;> rfl

lemma ite_ite_self {β : Type} (p : Prop) [Decidable p] (a b : β) :
    (if p then if p then a else b else b) = if p then a else b := by
  split <;> rfl

lemma Platform.kept_ite (p : Prop) [Decidable p] (a b : α) :
    platform.kept (if p then a else platform.kept (if p then a else b)) =
      platform.kept (if p then a else b) := by
  split
  · rfl
  · rw [platform.kept_kept]

/-- A row makes nothing new of the customer that it made. -/
lemma keep_applyFields (raw : Row) (isNew : Bool) (c : Customer α) (g g' : Option ℕ) :
    keep platform { applyFields platform q raw false
      (keep platform { applyFields platform q raw isNew c with group := g }) with group := g' } =
    keep platform { applyFields platform q raw isNew c with group := g' } := by
  simp only [keep, applyFields, field_field, setAll_setAll, getD_getD_self, platform.kept_ite,
    ite_ite_self, Bool.and_false, Bool.false_eq_true, if_false, platform.kept_kept]

/-- The row makes nothing new of the customer with its code. -/
def Settled (db : Database α) (raw : Row) : Prop :=
  ∃ pk c, existingCustomer q.branch (cell raw "customer code") db = some (pk, c) ∧
    c.isWalkIn = false ∧ GroupTaken platform raw ∧ withGroup raw db = db ∧
    keep platform (draft platform q raw false c db) = c ∧ platform.accepts c = true

/-- The branch and the code of a customer. -/
def Customer.place (c : Customer α) : Option ℕ × Text := (c.homeBranch, c.code)

lemma findCustomer_eq {branch : ℕ} {code : Text} (hcode : code ≠ []) (db : Database α) :
    findCustomer branch code db =
      (db.customers.map Customer.place).findIdx? (· = (some branch, code)) := by
  rw [findCustomer, if_neg hcode, List.findIdx?_map]
  congr 1
  funext c
  simp [Customer.place]

lemma existingCustomer_eq_some {branch : ℕ} {code : Text} {db : Database α} {pk : ℕ}
    {c : Customer α} : existingCustomer branch code db = some (pk, c) ↔
      findCustomer branch code db = some pk ∧ db.customers[pk]? = some c := by
  simp only [existingCustomer, Option.bind_eq_some_iff, Option.map_eq_some_iff, Prod.mk.injEq]
  constructor
  · rintro ⟨pk', hfind, c', hc, rfl, rfl⟩
    exact ⟨hfind, hc⟩
  · rintro ⟨hfind, hc⟩
    exact ⟨pk, hfind, c, hc, rfl, rfl⟩

lemma place_of_existing {branch : ℕ} {code : Text} (hcode : code ≠ []) {db : Database α} {pk : ℕ}
    {c : Customer α} (h : existingCustomer branch code db = some (pk, c)) :
    c.place = (some branch, code) := by
  obtain ⟨hfind, hc⟩ := existingCustomer_eq_some.mp h
  rw [findCustomer_eq hcode] at hfind
  obtain ⟨hlt, hp, -⟩ := List.findIdx?_eq_some_iff_getElem.mp hfind
  rw [List.getElem_map, decide_eq_true_eq] at hp
  obtain ⟨hlt', hget⟩ := List.getElem?_eq_some_iff.mp hc
  rw [← hp, hget]

/-- Customers are added, and keep their branch and code; groups are added. -/
def Grows (db db' : Database α) : Prop :=
  (∃ new, db'.customers.map Customer.place = db.customers.map Customer.place ++ new) ∧
    ∃ new, db'.groups = db.groups ++ new

lemma Grows.findCustomer {branch : ℕ} {code : Text} (hcode : code ≠ []) {db db' : Database α}
    {pk : ℕ} (h : Grows db db') (hpk : findCustomer branch code db = some pk) :
    findCustomer branch code db' = some pk := by
  obtain ⟨new, hnew⟩ := h.1
  rw [findCustomer_eq hcode] at hpk ⊢
  rw [hnew, List.findIdx?_append, hpk]
  rfl

lemma withGroup_of_grows {raw : Row} {db db' : Database α} (h : Grows db db')
    (hsame : withGroup raw db = db) : withGroup raw db' = db' := by
  obtain ⟨new, hnew⟩ := h.2
  rw [withGroup_eq_self_iff] at hsame ⊢
  rw [hnew]
  exact hsame.imp_right fun hmem => List.mem_append_left new hmem

lemma groupOf_of_grows {raw : Row} {db db' : Database α} (h : Grows db db')
    (hsame : withGroup raw db = db) (c : Customer α) : groupOf raw db' c = groupOf raw db c := by
  obtain ⟨new, hnew⟩ := h.2
  rw [groupOf, groupOf, withGroup_of_grows h hsame, hsame]
  split_ifs with hne
  · rfl
  · have hmem : groupName raw ∈ db.groups := (withGroup_eq_self_iff.mp hsame).resolve_left hne
    rw [hnew, List.findIdx?_append]
    cases hfind : db.groups.findIdx? (· = groupName raw) with
    | none => exact absurd (List.findIdx?_eq_none_iff.mp hfind _ hmem) (by simp)
    | some pk => rfl

/-- A settled row stays so while its customer is left alone. -/
lemma Settled.of_grows {db db' : Database α} {raw : Row} (hcode : cell raw "customer code" ≠ [])
    (h : Settled platform q db raw) (hgrows : Grows db db')
    (hsame : ∀ (pk : ℕ) (c : Customer α), c.place = (some q.branch, cell raw "customer code") →
      db.customers[pk]? = some c → db'.customers[pk]? = some c) : Settled platform q db' raw := by
  obtain ⟨pk, c, hc, hwalk, hgroup, hthere, hkeep, haccepts⟩ := h
  have hplace := place_of_existing hcode hc
  obtain ⟨hfind, hget⟩ := existingCustomer_eq_some.mp hc
  refine ⟨pk, c, existingCustomer_eq_some.mpr ⟨hgrows.findCustomer hcode hfind,
    hsame pk c hplace hget⟩, hwalk, hgroup, withGroup_of_grows hgrows hthere, ?_, haccepts⟩
  rw [draft, groupOf_of_grows hgrows hthere]
  exact hkeep

/-- The customer that a row left settles it. -/
lemma settled_of_left {db db' : Database α} {raw : Row} {isNew : Bool} {pk : ℕ} {c : Customer α}
    (hgroups : db'.groups = (withGroup raw db).groups)
    (hc : existingCustomer q.branch (cell raw "customer code") db' =
      some (pk, keep platform (draft platform q raw isNew c db)))
    (hwalk : c.isWalkIn = false) (hgroup : GroupTaken platform raw)
    (haccepts : platform.accepts (keep platform (draft platform q raw isNew c db)) = true) :
    Settled platform q db' raw := by
  have hthere : withGroup raw db' = db' := by
    have hmem := withGroup_eq_self_iff.mp (withGroup_withGroup raw db)
    rw [← hgroups] at hmem
    exact withGroup_eq_self_iff.mpr hmem
  have hgroupOf : groupOf raw db' (keep platform (draft platform q raw isNew c db)) =
      groupOf raw db c := by
    rw [groupOf, hthere, hgroups]
    by_cases hne : groupName raw = []
    · rw [if_pos hne]
      rfl
    · rw [if_neg hne, groupOf, if_neg hne]
  refine ⟨pk, _, hc, hwalk, hgroup, hthere, ?_, haccepts⟩
  rw [draft, hgroupOf]
  exact keep_applyFields platform q raw isNew c (groupOf raw db c) (groupOf raw db c)

lemma existing_set {branch : ℕ} {code : Text} (hcode : code ≠ []) {db : Database α} {pk : ℕ}
    {c d : Customer α} (h : existingCustomer branch code db = some (pk, c))
    (hplace : d.place = c.place) (groups : List Text) :
    (db.customers.set pk d).map Customer.place = db.customers.map Customer.place ∧
      existingCustomer branch code { customers := db.customers.set pk d, groups } =
        some (pk, d) := by
  obtain ⟨hfind, hget⟩ := existingCustomer_eq_some.mp h
  obtain ⟨hlt, heq⟩ := List.getElem?_eq_some_iff.mp hget
  have hmap : (db.customers.set pk d).map Customer.place = db.customers.map Customer.place := by
    rw [List.map_set, hplace, ← heq, ← List.getElem_map Customer.place]
    exact List.set_getElem_self (by rwa [List.length_map])
  refine ⟨hmap, existingCustomer_eq_some.mpr ⟨?_, List.getElem?_set_self hlt⟩⟩
  rw [findCustomer_eq hcode] at hfind ⊢
  rw [hmap]
  exact hfind

lemma existing_append {branch : ℕ} {code : Text} (hcode : code ≠ []) {db : Database α}
    {c : Customer α} (h : existingCustomer branch code db = none)
    (hplace : c.place = (some branch, code)) (groups : List Text) :
    existingCustomer branch code { customers := db.customers ++ [c], groups } =
      some (db.customers.length, c) := by
  have hnone : (db.customers.map Customer.place).findIdx? (· = (some branch, code)) = none := by
    rw [← findCustomer_eq hcode]
    cases hfind : findCustomer branch code db with
    | none => rfl
    | some pk =>
      have hlt : pk < db.customers.length := by
        rw [findCustomer_eq hcode] at hfind
        obtain ⟨hlt, -⟩ := List.findIdx?_eq_some_iff_getElem.mp hfind
        rwa [List.length_map] at hlt
      have hsome := existingCustomer_eq_some.mpr ⟨hfind, List.getElem?_eq_getElem hlt⟩
      exact nomatch h.symm.trans hsome
  refine existingCustomer_eq_some.mpr ⟨?_, List.getElem?_concat_length⟩
  rw [findCustomer_eq hcode, List.map_append, List.findIdx?_append, hnone]
  simp [hplace]

/-- What a row that did not fail leaves, in update mode. -/
structure Leaves (db : Database α) (raw : Row) (db' : Database α) : Prop where
  settled : Settled platform q db' raw
  grows : Grows db db'
  /-- The customers with other codes are as they were. -/
  others : ∀ (code : Text) (pk : ℕ) (c : Customer α), code ≠ cell raw "customer code" →
    c.place = (some q.branch, code) → db.customers[pk]? = some c → db'.customers[pk]? = some c

lemma leaves_of_step (hmode : q.mode = .update) {db : Database α} {seen : Seen} {raw : Row}
    (hcode : cell raw "customer code" ≠ []) {x : (Session α × Seen) × Outcome}
    (hx : rowStep platform q ({ db }, seen) raw = some x) (hgood : x.2 ≠ .failed) :
    screenRow platform q seen raw = none ∧ ¬ LookupRefused platform raw ∧
      ∃ db', x.1 = ({ db := db' }, seen.add (cell raw "customer code") (cell raw "mobile")) ∧
        Leaves platform q db raw db' := by
  have hcomes := importRow_comes platform q db seen raw
  dsimp only [rowStep] at hx
  generalize importRow platform q { db } seen raw = result at hcomes hx
  obtain ⟨newGroups, hnewGroups⟩ := withGroup_groups raw db
  cases hcomes with
  | spoiled h hresult =>
    obtain ⟨d, hd, rfl⟩ := Option.map_eq_some_iff.mp hx
    exact absurd (hresult d hd).1 hgood
  | failed =>
    obtain rfl := Option.some.inj hx
    exact absurd rfl hgood
  | skipped _ _ _ _ hskip => exact nomatch hskip.symm.trans hmode
  | @updated pk' c' _ hscreen hlookup hc hwalk hgroup haccepts =>
    obtain rfl := Option.some.inj hx
    obtain ⟨hmap, hexisting⟩ := existing_set hcode
      (d := keep platform (draft platform q raw false c' db)) hc rfl (withGroup raw db).groups
    refine ⟨hscreen, hlookup, _, rfl, settled_of_left platform q rfl hexisting hwalk hgroup
      haccepts, ⟨⟨[], ?_⟩, newGroups, hnewGroups⟩, fun code pk c hne hplace hget => ?_⟩
    · rw [List.append_nil]
      exact hmap
    · have hother : pk ≠ pk' := by
        rintro rfl
        obtain ⟨-, hget'⟩ := existingCustomer_eq_some.mp hc
        obtain rfl := Option.some.inj (hget.symm.trans hget')
        exact hne (congrArg Prod.snd (hplace.symm.trans (place_of_existing hcode hc)))
      exact (List.getElem?_set_ne hother.symm).trans hget
  | imported _ hscreen hlookup hc hgroup haccepts =>
    obtain rfl := Option.some.inj hx
    have hplace : (keep platform (created platform q raw db)).place =
        (some q.branch, cell raw "customer code") := by
      show (some q.branch, Text.orElse _ _) = _
      rw [Text.orElse, if_neg hcode]
    have hexisting := existing_append hcode hc hplace (withGroup raw db).groups
    refine ⟨hscreen, hlookup, _, rfl, settled_of_left platform q rfl hexisting rfl hgroup haccepts,
      ⟨⟨[_], List.map_append⟩, newGroups, hnewGroups⟩, fun code pk c _ _ hget => ?_⟩
    obtain ⟨hlt, -⟩ := List.getElem?_eq_some_iff.mp hget
    exact (List.getElem?_append_left hlt).trans hget

/-! ## The import repeated -/

/-- A settled row comes to an update that changes nothing. -/
lemma importRow_settled (hmode : q.mode = .update) {db : Database α} {seen : Seen} {raw : Row}
    (h : Settled platform q db raw) (hscreen : screenRow platform q seen raw = none)
    (hlookup : ¬ LookupRefused platform raw) :
    importRow platform q { db } seen raw = some
      { outcome := .updated, session := { db }
        seen := seen.add (cell raw "customer code") (cell raw "mobile") } := by
  obtain ⟨pk, c, hc, hwalk, hgroup, hthere, hkeep, haccepts⟩ := h
  have hset : db.customers.set pk c = db.customers := by
    obtain ⟨hlt, rfl⟩ := List.getElem?_eq_some_iff.mp (existingCustomer_eq_some.mp hc).2
    exact List.set_getElem_self hlt
  have hmode' : ¬ q.mode = .skip := by simp [hmode]
  rw [importRow, hscreen]
  dsimp only
  rw [if_neg fun hraise => hlookup ((lookupsRaise_iff platform).mp hraise), hc]
  simp only [hwalk, Bool.false_eq_true, if_false, if_neg hmode']
  rw [updateRow, (applyRow_eq platform q raw false c db).1 hgroup]
  simp only [hkeep, haccepts, hthere, Bool.false_eq_true, if_false, if_true, hset]

/-- The codes that a row adds to the ones seen. -/
lemma mem_codes_add {seen : Seen} {code mobile code' : Text} (hcode : code ≠ []) :
    code' ∈ (seen.add code mobile).codes ↔ code' = code ∨ code' ∈ seen.codes := by
  rw [Seen.add, if_neg hcode, List.mem_cons]

lemma not_mem_codes_of_screen {seen : Seen} {raw : Row} (hcode : cell raw "customer code" ≠ [])
    (h : screenRow platform q seen raw = none) : cell raw "customer code" ∉ seen.codes := by
  simp only [screenRow, reject, Option.or_eq_none_iff, ite_eq_right_iff, reduceCtorEq,
    imp_false] at h
  exact fun hmem => h.2.2.2.2.2.2.1 ⟨hcode, hmem⟩

/-- Rows with codes, none of which fails, are settled in the end, and another import from there
makes its way through them without a change. -/
lemma foldlM_again (hmode : q.mode = .update) {rows : List Row} :
    ∀ {db : Database α} {seen : Seen} {y : (Session α × Seen) × List Outcome},
      StepLog.run (rowStep platform q) ({ db }, seen) rows = some y → .failed ∉ y.2 →
      (∀ raw ∈ rows, cell raw "customer code" ≠ []) →
      ∃ db', y.1.1 = { db := db' } ∧
        (∀ raw, cell raw "customer code" ≠ [] → cell raw "customer code" ∈ seen.codes →
          Settled platform q db raw → Settled platform q db' raw) ∧
        ∀ p : Progress α, p.session = { db := db' } → p.seen = seen →
          rows.foldlM (importNext platform q) p = some
            { p with
              seen := y.1.2
              summary := { p.summary with updated := p.summary.updated + rows.length }
              outcomes := p.outcomes ++ rows.map fun _ => .updated } := by
  induction rows with
  | nil =>
    intro db seen y h _ _
    obtain rfl := Option.some.inj h
    refine ⟨db, rfl, fun raw _ _ hsettled => hsettled, fun p hsession hseen => ?_⟩
    rw [List.foldlM_nil, List.map_nil, List.append_nil, ← hseen]
    rfl
  | cons raw rows ih =>
    intro db seen y h hgood hcodes
    obtain ⟨x, outcomes, hstep, hrest, hy⟩ := StepLog.run_cons_eq_some.mp h
    rw [hy, List.mem_cons, not_or] at hgood
    have hcode := hcodes raw List.mem_cons_self
    obtain ⟨hscreen, hlookup, db₁, hx, hleaves⟩ :=
      leaves_of_step platform q hmode hcode hstep (Ne.symm hgood.1)
    rw [hx] at hrest
    obtain ⟨db', hdb', hkept, hagain⟩ := ih hrest hgood.2 fun raw' hraw' =>
      hcodes raw' (List.mem_cons_of_mem _ hraw')
    refine ⟨db', hdb', fun raw₀ hcode₀ hmem hsettled => ?_, fun p hsession hseen => ?_⟩
    · -- another code than this row's: its customer is left alone
      have hne : cell raw₀ "customer code" ≠ cell raw "customer code" := fun heq =>
        not_mem_codes_of_screen platform q hcode hscreen (heq ▸ hmem)
      exact hkept raw₀ hcode₀ ((mem_codes_add hcode).mpr (.inr hmem))
        (hsettled.of_grows platform q hcode₀ hleaves.grows fun pk c =>
          hleaves.others _ pk c hne)
    · have hsettled := hkept raw hcode ((mem_codes_add hcode).mpr (.inl rfl)) hleaves.settled
      have hrow := importRow_settled platform q hmode hsettled hscreen hlookup
      have hnext : importNext platform q p raw = some
          { session := { db := db' }
            seen := seen.add (cell raw "customer code") (cell raw "mobile")
            summary := p.summary.count .updated
            outcomes := p.outcomes ++ [.updated]
            errors := p.errors } := by
        rw [importNext, hsession, hseen, hrow, Option.map_some, Option.map_none,
          Option.toList_none, List.append_nil]
      rw [List.foldlM_cons, hnext]
      refine (hagain _ rfl rfl).trans ?_
      simp [Summary.count, hsession, Nat.add_assoc, Nat.add_comm 1]

/-- The columns of customers: an address has at most 254 characters and a code at most 30. -/
def columns : Platform ℤ where
  zero := 0
  amount t := t.length
  kept a := a
  kept_kept _ := rfl
  validEmail t := '@' ∈ t && t.length ≤ 320
  fullClean _ c :=
    if 30 < c.code.length then some "code: Ensure this value has at most 30 characters".toList
    else if 254 < c.email.length then some "email: Enter a valid email address.".toList
    else none
  accepts c := c.code.length ≤ 30 && c.email.length ≤ 254
  takes t := '\x00' ∉ t

def updateMain : Request where
  branch := 1
  branchCode := "MAIN".toList
  branchName := "Main".toList
  mode := .update
  creditAllowed := true
  branchRestricted := false
  options := []

def ann : Customer ℤ where
  homeBranch := some 1
  code := "C1".toList
  fullName := "Ann".toList
  creditLimit := 0
  openingBalance := 0
  balance := 0

/-- A row of the main branch. -/
def rowOf (code name : String) (more : Row) : Row :=
  [("branch code".toList, some ⟨"MAIN".toList, true⟩),
    ("branch name".toList, some ⟨"Main".toList, true⟩),
    ("customer code".toList, some ⟨code.toList, true⟩),
    ("customer name".toList, some ⟨name.toList, true⟩)] ++ more

/-- An address that is valid, but too long for its column. -/
def longEmail : Row :=
  [("email".toList, some ⟨List.replicate 250 'a' ++ "@nexa.test".toList, true⟩)]

end NexaPos.CustomerImport
