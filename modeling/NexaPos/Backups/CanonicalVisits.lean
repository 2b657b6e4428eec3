import NexaPos.Backups.CanonicalTrees

/-!
# Visits of documents

What `canonicalJsonValue` asks of a document is asked at each place in it, at its depth, and what
it takes from the budget is a sum over the places.  A visit therefore succeeds exactly when every
place is as it should be and the sums are within the limits (`visited`), whatever the order of keys
and the spelling of numbers.
-/

namespace NexaPos.Backups.CanonicalJson

open JsonText (render encodeUtf8 decodeUtf8 loads)

variable {ν μ : Type}

/-! ## Sums over a document -/

mutual

/-- The sum over the document and every document in it. -/
def Document.total (f : Document ν → ℕ) : Document ν → ℕ
  | .list items => f (.list items) + totalItems f items
  | .dict fields => f (.dict fields) + totalFields f fields
  | v => f v

def totalItems (f : Document ν → ℕ) : List (Document ν) → ℕ
  | [] => 0
  | v :: vs => v.total f + totalItems f vs

def totalFields (f : Document ν → ℕ) : List (Text × Document ν) → ℕ
  | [] => 0
  | (_, v) :: fs => v.total f + totalFields f fs

end

mutual

/-- A property of the document at its depth, and of every document in it at its own. -/
def Document.every (p : ℕ → Document ν → Bool) (depth : ℕ) : Document ν → Bool
  | .list items => p depth (.list items) && everyItem p (depth + 1) items
  | .dict fields => p depth (.dict fields) && everyField p (depth + 1) fields
  | v => p depth v

def everyItem (p : ℕ → Document ν → Bool) (depth : ℕ) : List (Document ν) → Bool
  | [] => true
  | v :: vs => v.every p depth && everyItem p depth vs

def everyField (p : ℕ → Document ν → Bool) (depth : ℕ) : List (Text × Document ν) → Bool
  | [] => true
  | (_, v) :: fs => v.every p depth && everyField p depth fs

end

lemma totalItems_eq_sum (f : Document ν → ℕ) (items : List (Document ν)) :
    totalItems f items = (items.map (Document.total f)).sum := by
  induction items with
  | nil => rfl
  | cons v vs ih => rw [totalItems, ih, List.map_cons, List.sum_cons]

lemma totalFields_eq_sum (f : Document ν → ℕ) (fields : List (Text × Document ν)) :
    totalFields f fields = (fields.map fun e => e.2.total f).sum := by
  induction fields with
  | nil => rfl
  | cons e es ih => rw [totalFields, ih, List.map_cons, List.sum_cons]

lemma everyItem_eq_all (p : ℕ → Document ν → Bool) (depth : ℕ) (items : List (Document ν)) :
    everyItem p depth items = items.all (Document.every p depth) := by
  induction items with
  | nil => rfl
  | cons v vs ih => rw [everyItem, ih, List.all_cons]

lemma everyField_eq_all (p : ℕ → Document ν → Bool) (depth : ℕ)
    (fields : List (Text × Document ν)) :
    everyField p depth fields = fields.all fun e => e.2.every p depth := by
  induction fields with
  | nil => rfl
  | cons e es ih => rw [everyField, ih, List.all_cons]

lemma all_congr_mem {α : Type} {p q : α → Bool} {xs : List α} (h : ∀ x ∈ xs, p x = q x) :
    xs.all p = xs.all q := by
  rw [Bool.eq_iff_iff, List.all_eq_true, List.all_eq_true]
  exact forall₂_congr fun x hx => by rw [h x hx]

/-- A sum does not depend on the order of keys and on the numbers. -/
lemma total_normal {f : Document ν → ℕ} {f' : Document μ → ℕ} {g : ν → μ}
    (h : ∀ v, f' (v.normal g) = f v) (v : Document ν) : (v.normal g).total f' = v.total f := by
  induction v using Document.induction with
  | list items ih =>
    have hhere := h (.list items)
    rw [Document.normal] at hhere ⊢
    rw [Document.total, Document.total, hhere, totalItems_eq_sum, totalItems_eq_sum,
      normalItems_eq_map, List.map_map]
    exact congrArg (f (.list items) + List.sum ·) (List.map_congr_left ih)
  | dict fields ih =>
    have hhere := h (.dict fields)
    rw [Document.normal] at hhere ⊢
    rw [Document.total, Document.total, hhere, totalFields_eq_sum, totalFields_eq_sum,
      ((perm_sortKeys _).map _).sum_eq, normalFields_eq_map, List.map_map]
    exact congrArg (f (.dict fields) + List.sum ·) (List.map_congr_left fun e he => ih e he)
  | null => exact h .null
  | bool b => exact h (.bool b)
  | number x => exact h (.number x)
  | str s => exact h (.str s)
  | other => exact h .other

lemma every_normal {p : ℕ → Document ν → Bool} {p' : ℕ → Document μ → Bool} {g : ν → μ}
    (h : ∀ depth v, p' depth (v.normal g) = p depth v) (v : Document ν) (depth : ℕ) :
    (v.normal g).every p' depth = v.every p depth := by
  induction v using Document.induction generalizing depth with
  | list items ih =>
    have hhere := h depth (.list items)
    rw [Document.normal] at hhere ⊢
    rw [Document.every, Document.every, hhere, everyItem_eq_all, everyItem_eq_all,
      normalItems_eq_map, List.all_map]
    refine congrArg (p depth (.list items) && ·) ?_
    exact all_congr_mem fun v hv => ih v hv (depth + 1)
  | dict fields ih =>
    have hhere := h depth (.dict fields)
    rw [Document.normal] at hhere ⊢
    rw [Document.every, Document.every, hhere, everyField_eq_all, everyField_eq_all,
      (perm_sortKeys _).all_eq, normalFields_eq_map, List.all_map]
    refine congrArg (p depth (.dict fields) && ·) ?_
    exact all_congr_mem fun e he => ih e he (depth + 1)
  | null => exact h depth .null
  | bool b => exact h depth (.bool b)
  | number x => exact h depth (.number x)
  | str s => exact h depth (.str s)
  | other => exact h depth .other

/-! ## What a visit asks -/

/-- The nodes that a document takes from the budget. -/
def nodesAt : Document ν → ℕ
  | .dict fields => 1 + fields.length
  | _ => 1

/-- The bytes of strings that a document takes from the budget. -/
def bytesAt : Document ν → ℕ
  | .str s => (encodeUtf8 s).length
  | .dict fields => (fields.map fun e => (encodeUtf8 e.1).length).sum
  | _ => 0

/-- The key is not too long and names no identifier of the database. -/
def isKey (isDatabaseId : Text → Bool) (key : Text) : Bool :=
  (encodeUtf8 key).length ≤ 16384 && !isDatabaseId key

/-- What is asked of a document at its depth. -/
def allowedAt (isDatabaseId : Text → Bool) (maximumDepth depth : ℕ) (v : Document ν) : Bool :=
  depth ≤ maximumDepth &&
    match v with
    | .str s => (encodeUtf8 s).length ≤ 16384
    | .list items => items.length ≤ 1024
    | .dict fields => fields.length ≤ 1024 && fields.all fun e => isKey isDatabaseId e.1
    | .other => false
    | _ => true

lemma nodesAt_normal (g : ν → μ) (v : Document ν) : nodesAt (v.normal g) = nodesAt v := by
  cases v with
  | dict fields =>
    rw [Document.normal, nodesAt, nodesAt, (perm_sortKeys _).length_eq, normalFields_eq_map,
      List.length_map]
  | _ => rfl

lemma bytesAt_normal (g : ν → μ) (v : Document ν) : bytesAt (v.normal g) = bytesAt v := by
  cases v with
  | dict fields =>
    rw [Document.normal, bytesAt, bytesAt, ((perm_sortKeys _).map _).sum_eq, normalFields_eq_map,
      List.map_map]
    rfl
  | _ => rfl

lemma allowedAt_normal (isDatabaseId : Text → Bool) (maximumDepth : ℕ) (g : ν → μ) (depth : ℕ)
    (v : Document ν) :
    allowedAt isDatabaseId maximumDepth depth (v.normal g) =
      allowedAt isDatabaseId maximumDepth depth v := by
  cases v with
  | list items =>
    simp only [Document.normal, allowedAt, normalItems_eq_map, List.length_map]
  | dict fields =>
    simp only [Document.normal, allowedAt, (perm_sortKeys _).length_eq, (perm_sortKeys _).all_eq,
      normalFields_eq_map, List.length_map, List.all_map]
    rfl
  | _ => rfl

/-! ## A visit -/

lemma consume_none {budget budget' : Budget} :
    consumeJsonBudget budget none = some budget' ↔
      budget.nodes + 1 ≤ 4096 ∧ budget' = ⟨budget.nodes + 1, budget.stringBytes⟩ := by
  unfold consumeJsonBudget
  by_cases hnodes : 4096 < budget.nodes + 1
  · rw [if_pos hnodes]
    simp only [reduceCtorEq, false_iff, not_and]
    omega
  · rw [if_neg hnodes]
    simp only [Option.some.injEq]
    exact ⟨fun h => ⟨by omega, h.symm⟩, fun h => h.2.symm⟩

lemma consume_some {budget budget' : Budget} {s : Text} :
    consumeJsonBudget budget (some s) = some budget' ↔
      budget.nodes + 1 ≤ 4096 ∧ (encodeUtf8 s).length ≤ 16384 ∧
        budget.stringBytes + (encodeUtf8 s).length ≤ 65536 ∧
          budget' = ⟨budget.nodes + 1, budget.stringBytes + (encodeUtf8 s).length⟩ := by
  unfold consumeJsonBudget
  dsimp only
  generalize (encodeUtf8 s).length = n
  by_cases hnodes : 4096 < budget.nodes + 1
  · rw [if_pos hnodes]
    simp only [reduceCtorEq, false_iff, not_and]
    omega
  · by_cases hlong : 16384 < n
    · simp only [hnodes, if_false, hlong, if_true, reduceCtorEq, false_iff, not_and]
      omega
    · by_cases htotal : 65536 < budget.stringBytes + n
      · simp only [hnodes, if_false, hlong, htotal, if_true, reduceCtorEq, false_iff, not_and]
        omega
      · simp only [hnodes, if_false, hlong, htotal, Option.some.injEq]
        exact ⟨fun h => ⟨by omega, by omega, by omega, h.symm⟩, fun h => h.2.2.2.symm⟩

lemma enter_eq {maximumDepth depth : ℕ} {budget budget' : Budget} {s : Option Text} :
    enter maximumDepth depth budget s = some budget' ↔
      depth ≤ maximumDepth ∧ consumeJsonBudget budget s = some budget' := by
  unfold enter
  by_cases hdepth : maximumDepth < depth
  · rw [if_pos hdepth]
    simp only [reduceCtorEq, false_iff, not_and]
    omega
  · rw [if_neg hdepth]
    exact ⟨fun h => ⟨by omega, h⟩, fun h => h.2⟩

/-- A budget with more taken from it. -/
def Budget.plus (budget : Budget) (nodes bytes : ℕ) : Budget :=
  ⟨budget.nodes + nodes, budget.stringBytes + bytes⟩

/-- Nothing is taken beyond the limits. -/
def Budget.Within (budget : Budget) : Prop := budget.nodes ≤ 4096 ∧ budget.stringBytes ≤ 65536

lemma Budget.plus_plus (budget : Budget) (m n k l : ℕ) :
    (budget.plus m n).plus k l = budget.plus (m + k) (n + l) := by
  simp only [Budget.plus, Nat.add_assoc]

lemma Budget.Within.of_plus {budget : Budget} {m n : ℕ} (h : (budget.plus m n).Within) :
    budget.Within :=
  ⟨(Nat.le_add_right _ _).trans h.1, (Nat.le_add_right _ _).trans h.2⟩

variable {isDatabaseId : Text → Bool} {maximumDepth : ℕ}

/-- The keys of a dictionary are taken from the budget. -/
lemma consumeKeys_eq {keys : List Text} {budget : Budget} (hbudget : budget.Within)
    (budget' : Budget) :
    keys.foldlM (consumeKey isDatabaseId) budget = some budget' ↔
      keys.all (isKey isDatabaseId) = true ∧ budget'.Within ∧
        budget' = budget.plus keys.length (keys.map fun k => (encodeUtf8 k).length).sum := by
  induction keys generalizing budget budget' with
  | nil =>
    constructor
    · intro h
      obtain rfl := Option.some.inj h
      exact ⟨rfl, hbudget, rfl⟩
    · rintro ⟨-, -, rfl⟩
      rfl
  | cons key keys ih =>
    rw [List.foldlM_cons, Option.bind_eq_bind, Option.bind_eq_some_iff, List.all_cons,
      Bool.and_eq_true, List.length_cons, List.map_cons, List.sum_cons]
    have hkey : ∀ taken, consumeKey isDatabaseId budget key = some taken ↔
        isKey isDatabaseId key = true ∧ taken.Within ∧
          taken = budget.plus 1 (encodeUtf8 key).length := by
      intro taken
      unfold consumeKey isKey
      simp only [Option.bind_eq_bind, Option.bind_eq_some_iff, consume_some, Bool.and_eq_true,
        decide_eq_true_eq, Bool.not_eq_true']
      constructor
      · rintro ⟨b, ⟨hnodes, hlong, htotal, rfl⟩, hid⟩
        split at hid
        · exact nomatch hid
        · rename_i hno
          obtain rfl := Option.some.inj hid
          exact ⟨⟨hlong, Bool.eq_false_iff.mpr hno⟩, ⟨hnodes, htotal⟩, rfl⟩
      · rintro ⟨⟨hlong, hid⟩, ⟨hnodes, htotal⟩, rfl⟩
        refine ⟨_, ⟨hnodes, hlong, htotal, rfl⟩, ?_⟩
        rw [if_neg (by rw [hid]; exact Bool.false_ne_true)]
        rfl
    constructor
    · rintro ⟨taken, htaken, hrest⟩
      obtain ⟨hone, hwithin, rfl⟩ := (hkey taken).mp htaken
      obtain ⟨hall, hwithin', rfl⟩ := (ih hwithin budget').mp hrest
      refine ⟨⟨hone, hall⟩, hwithin', ?_⟩
      rw [Budget.plus_plus, Nat.add_comm 1]
    · rintro ⟨⟨hone, hall⟩, hwithin, rfl⟩
      have hstep : budget.plus (keys.length + 1)
          ((encodeUtf8 key).length + (keys.map fun k => (encodeUtf8 k).length).sum) =
          (budget.plus 1 (encodeUtf8 key).length).plus keys.length
            (keys.map fun k => (encodeUtf8 k).length).sum := by
        rw [Budget.plus_plus, Nat.add_comm 1]
      rw [hstep] at hwithin
      refine ⟨_, (hkey _).mpr ⟨hone, hwithin.of_plus, rfl⟩, ?_⟩
      exact (ih hwithin.of_plus _).mpr ⟨hall, hstep ▸ hwithin, hstep⟩

/-- What a visit of a document asks, and what it leaves. -/
def Visited (isDatabaseId : Text → Bool) (maximumDepth depth : ℕ) (v : Document Number) : Prop :=
  ∀ budget : Budget, budget.Within → ∀ r budget',
    canonicalJsonValue isDatabaseId maximumDepth depth v budget = some (r, budget') ↔
      v.every (allowedAt isDatabaseId maximumDepth) depth = true ∧ budget'.Within ∧
        budget' = budget.plus (v.total nodesAt) (v.total bytesAt) ∧ r = v.normal id

/-- Two visits, one after the other. -/
lemma visit_both {α β γ : Type} {first : Option (α × Budget)} {rest : Budget → Option (β × Budget)}
    {budget : Budget} {P Q : Prop} {n m n' m' : ℕ} {a : α} {b : β} (g : α → β → γ)
    (hfirst : ∀ x c, first = some (x, c) ↔ P ∧ c.Within ∧ c = budget.plus n m ∧ x = a)
    (hrest : ∀ c : Budget, c.Within → ∀ y d, rest c = some (y, d) ↔
      Q ∧ d.Within ∧ d = c.plus n' m' ∧ y = b) (r : γ) (d : Budget) :
    (first.bind fun x => (rest x.2).bind fun y => some (g x.1 y.1, y.2)) = some (r, d) ↔
      (P ∧ Q) ∧ d.Within ∧ d = budget.plus (n + n') (m + m') ∧ r = g a b := by
  rw [Option.bind_eq_some_iff]
  constructor
  · rintro ⟨⟨x, c⟩, hone, htwo⟩
    obtain ⟨hP, hwithin, rfl, rfl⟩ := (hfirst x c).mp hone
    obtain ⟨⟨y, d'⟩, htail, heq⟩ := Option.bind_eq_some_iff.mp htwo
    obtain ⟨hQ, hwithin', rfl, rfl⟩ := (hrest _ hwithin y d').mp htail
    obtain ⟨rfl, rfl⟩ := Prod.mk.inj (Option.some.inj heq)
    exact ⟨⟨hP, hQ⟩, hwithin', Budget.plus_plus _ _ _ _ _, rfl⟩
  · rintro ⟨⟨hP, hQ⟩, hwithin, rfl, rfl⟩
    rw [← Budget.plus_plus] at hwithin ⊢
    refine ⟨_, (hfirst _ _).mpr ⟨hP, hwithin.of_plus, rfl, rfl⟩, Option.bind_eq_some_iff.mpr ?_⟩
    exact ⟨_, (hrest _ hwithin.of_plus _ _).mpr ⟨hQ, hwithin, rfl, rfl⟩, rfl⟩

/-- Nothing is visited. -/
lemma visit_none {α : Type} {a r : α} {budget budget' : Budget} (hbudget : budget.Within) :
    some (a, budget) = some (r, budget') ↔
      true = true ∧ budget'.Within ∧ budget' = budget.plus 0 0 ∧ r = a := by
  constructor
  · intro hrun
    obtain ⟨rfl, rfl⟩ := Prod.mk.inj (Option.some.inj hrun)
    exact ⟨rfl, hbudget, rfl, rfl⟩
  · rintro ⟨-, -, rfl, rfl⟩
    rfl

lemma visit_items {depth : ℕ} {items : List (Document Number)}
    (h : ∀ v ∈ items, Visited isDatabaseId maximumDepth depth v) {budget : Budget}
    (hbudget : budget.Within) (rs : List (Document Number)) (budget' : Budget) :
    canonicalJsonItems isDatabaseId maximumDepth depth items budget = some (rs, budget') ↔
      everyItem (allowedAt isDatabaseId maximumDepth) depth items = true ∧ budget'.Within ∧
        budget' = budget.plus (totalItems nodesAt items) (totalItems bytesAt items) ∧
          rs = normalItems id items := by
  induction items generalizing budget rs budget' with
  | nil => exact visit_none hbudget
  | cons v vs ih =>
    rw [everyItem, Bool.and_eq_true, totalItems, totalItems, normalItems]
    exact visit_both List.cons (h v List.mem_cons_self budget hbudget)
      (fun b hb rs b' => ih (fun w hw => h w (List.mem_cons_of_mem v hw)) hb rs b') rs budget'

lemma visit_fields {depth : ℕ} {fields : List (Text × Document Number)}
    (h : ∀ e ∈ fields, Visited isDatabaseId maximumDepth depth e.2) {budget : Budget}
    (hbudget : budget.Within) (rs : List (Text × Document Number)) (budget' : Budget) :
    canonicalJsonFields isDatabaseId maximumDepth depth fields budget = some (rs, budget') ↔
      everyField (allowedAt isDatabaseId maximumDepth) depth fields = true ∧ budget'.Within ∧
        budget' = budget.plus (totalFields nodesAt fields) (totalFields bytesAt fields) ∧
          rs = normalFields id fields := by
  induction fields generalizing budget rs budget' with
  | nil => exact visit_none hbudget
  | cons e es ih =>
    obtain ⟨k, v⟩ := e
    rw [everyField, Bool.and_eq_true, totalFields, totalFields, normalFields]
    exact visit_both (fun v es => (k, v) :: es) (h (k, v) List.mem_cons_self budget hbudget)
      (fun b hb rs b' => ih (fun w hw => h w (List.mem_cons_of_mem (k, v) hw)) hb rs b') rs budget'

/-- What has nothing in it but itself. -/
lemma visited_leaf {depth : ℕ} {v : Document Number} (s : Option Text)
    (hrun : ∀ budget, canonicalJsonValue isDatabaseId maximumDepth depth v budget =
      (enter maximumDepth depth budget s).map fun b => (v, b))
    (hevery : v.every (allowedAt isDatabaseId maximumDepth) depth =
      (decide (depth ≤ maximumDepth) && s.all fun s => (encodeUtf8 s).length ≤ 16384))
    (hnodes : v.total nodesAt = 1)
    (hbytes : v.total bytesAt = s.elim 0 fun s => (encodeUtf8 s).length)
    (hnormal : v.normal id = v) : Visited isDatabaseId maximumDepth depth v := by
  intro budget hbudget r budget'
  rw [hrun, hevery, hnodes, hbytes, hnormal, Option.map_eq_some_iff]
  simp only [enter_eq, Bool.and_eq_true, decide_eq_true_eq]
  cases s with
  | none =>
    constructor
    · rintro ⟨b, ⟨hdepth, hconsume⟩, heq⟩
      obtain ⟨rfl, rfl⟩ := Prod.mk.inj heq
      obtain ⟨hlimit, rfl⟩ := consume_none.mp hconsume
      exact ⟨⟨hdepth, rfl⟩, ⟨hlimit, hbudget.2⟩, rfl, rfl⟩
    · rintro ⟨⟨hdepth, -⟩, hwithin, rfl, rfl⟩
      exact ⟨_, ⟨hdepth, consume_none.mpr ⟨hwithin.1, rfl⟩⟩, rfl⟩
  | some s =>
    constructor
    · rintro ⟨b, ⟨hdepth, hconsume⟩, heq⟩
      obtain ⟨rfl, rfl⟩ := Prod.mk.inj heq
      obtain ⟨hlimit, hlong, htotal, rfl⟩ := consume_some.mp hconsume
      exact ⟨⟨hdepth, decide_eq_true hlong⟩, ⟨hlimit, htotal⟩, rfl, rfl⟩
    · rintro ⟨⟨hdepth, hlong⟩, hwithin, rfl, rfl⟩
      exact ⟨_, ⟨hdepth, consume_some.mpr
        ⟨hwithin.1, of_decide_eq_true hlong, hwithin.2, rfl⟩⟩, rfl⟩

/-- A visit succeeds exactly when every place is as it should be and the budget suffices. -/
theorem visited (v : Document Number) (depth : ℕ) :
    Visited isDatabaseId maximumDepth depth v := by
  induction v using Document.induction generalizing depth with
  | null => exact visited_leaf none (fun _ => rfl) (by simp [Document.every, allowedAt]) rfl rfl rfl
  | bool b =>
    exact visited_leaf none (fun _ => rfl) (by simp [Document.every, allowedAt]) rfl rfl rfl
  | number x =>
    exact visited_leaf none (fun _ => rfl) (by simp [Document.every, allowedAt]) rfl rfl rfl
  | str s => exact visited_leaf (some s) (fun _ => rfl) rfl rfl rfl rfl
  | list items ih =>
    intro budget hbudget r budget'
    have hitems := fun (b : Budget) (hb : b.Within) rs b' =>
      visit_items (fun v hv => ih v hv (depth + 1)) hb rs b'
    have hnodes : budget.plus (nodesAt (.list items) + totalItems nodesAt items)
        (bytesAt (.list items) + totalItems bytesAt items) =
        (budget.plus 1 0).plus (totalItems nodesAt items) (totalItems bytesAt items) :=
      (Budget.plus_plus _ _ _ _ _).symm
    rw [canonicalJsonValue, Document.every, Document.total, Document.total, Document.normal, hnodes]
    simp only [Option.bind_eq_bind, Option.bind_eq_some_iff, enter_eq, consume_none, allowedAt,
      Bool.and_eq_true, decide_eq_true_eq]
    constructor
    · rintro ⟨b, ⟨hdepth, hlimit, rfl⟩, hrest⟩
      split at hrest
      · cases hrest
      · rename_i hlength
        obtain ⟨⟨ws, b'⟩, hrun, heq⟩ := Option.bind_eq_some_iff.mp hrest
        have hentered : (budget.plus 1 0).Within := ⟨hlimit, hbudget.2⟩
        obtain ⟨hevery, hwithin, rfl, rfl⟩ := (hitems _ hentered ws b').mp hrun
        obtain ⟨rfl, rfl⟩ := Prod.mk.inj (Option.some.inj heq)
        exact ⟨⟨⟨hdepth, by omega⟩, hevery⟩, hwithin, rfl, rfl⟩
    · rintro ⟨⟨⟨hdepth, hlength⟩, hevery⟩, hwithin, rfl, rfl⟩
      refine ⟨budget.plus 1 0, ⟨hdepth, hwithin.of_plus.1, rfl⟩, ?_⟩
      rw [if_neg (by omega)]
      exact Option.bind_eq_some_iff.mpr
        ⟨_, (hitems _ hwithin.of_plus _ _).mpr ⟨hevery, hwithin, rfl, rfl⟩, rfl⟩
  | dict fields ih =>
    intro budget hbudget r budget'
    have hfields := fun (b : Budget) (hb : b.Within) rs b' =>
      visit_fields (fun e he => ih e he (depth + 1)) hb rs b'
    have hnodes : budget.plus (nodesAt (.dict fields) + totalFields nodesAt fields)
        (bytesAt (.dict fields) + totalFields bytesAt fields) =
        ((budget.plus 1 0).plus (fields.map Prod.fst).length
          ((fields.map Prod.fst).map fun k => (encodeUtf8 k).length).sum).plus
            (totalFields nodesAt fields) (totalFields bytesAt fields) := by
      rw [Budget.plus_plus, Budget.plus_plus, List.length_map, List.map_map, Nat.zero_add, nodesAt,
        bytesAt, Nat.add_assoc]
      rfl
    have hkeys : (fields.all fun e => isKey isDatabaseId e.1) =
        (fields.map Prod.fst).all (isKey isDatabaseId) := by
      rw [List.all_map]
      rfl
    rw [canonicalJsonValue, Document.every, Document.total, Document.total, Document.normal, hnodes]
    simp only [Option.bind_eq_bind, Option.bind_eq_some_iff, enter_eq, consume_none, allowedAt,
      Bool.and_eq_true, decide_eq_true_eq, hkeys]
    constructor
    · rintro ⟨b, ⟨hdepth, hlimit, rfl⟩, hrest⟩
      split at hrest
      · cases hrest
      · rename_i hlength
        obtain ⟨b', hconsume, hrest⟩ := Option.bind_eq_some_iff.mp hrest
        have hentered : (budget.plus 1 0).Within := ⟨hlimit, hbudget.2⟩
        obtain ⟨hall, hwithin, rfl⟩ := (consumeKeys_eq hentered b').mp hconsume
        obtain ⟨⟨ws, b''⟩, hrun, heq⟩ := Option.bind_eq_some_iff.mp hrest
        obtain ⟨hevery, hwithin', rfl, rfl⟩ := (hfields _ hwithin ws b'').mp hrun
        obtain ⟨rfl, rfl⟩ := Prod.mk.inj (Option.some.inj heq)
        exact ⟨⟨⟨hdepth, by omega, hall⟩, hevery⟩, hwithin', rfl, rfl⟩
    · rintro ⟨⟨⟨hdepth, hlength, hall⟩, hevery⟩, hwithin, rfl, rfl⟩
      have hkeysWithin := hwithin.of_plus
      refine ⟨budget.plus 1 0, ⟨hdepth, hkeysWithin.of_plus.1, rfl⟩, ?_⟩
      rw [if_neg (by omega)]
      refine Option.bind_eq_some_iff.mpr
        ⟨_, (consumeKeys_eq hkeysWithin.of_plus _).mpr ⟨hall, hkeysWithin, rfl⟩, ?_⟩
      exact Option.bind_eq_some_iff.mpr
        ⟨_, (hfields _ hkeysWithin _ _).mpr ⟨hevery, hwithin, rfl, rfl⟩, rfl⟩
  | other =>
    intro budget hbudget r budget'
    simp [canonicalJsonValue, Document.every, allowedAt]

end NexaPos.Backups.CanonicalJson
