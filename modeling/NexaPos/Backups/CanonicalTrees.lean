import NexaPos.Backups.CanonicalNumbers

/-!
# Documents in normal form

A document with its numbers replaced and its dictionaries in the order of their keys
(`Document.normal`): two documents are equal up to the order of keys and the spelling of numbers
when they have one normal form with the values of the numbers.  The canonical bytes of a document
are the text of its normal form with the tokens of the numbers (`iterCanonicalJsonBytes_eq`), and
the reader of such a text makes of it the normal form with the numbers read again (`ofValue_tree`).
-/

namespace NexaPos.Backups.CanonicalJson

open JsonText (renderInt renderString escape render renderItems renderFields encodeUtf8)

variable {ν μ κ : Type}

/-! ## Normal forms -/

mutual

/-- The document with its numbers replaced and the keys of its dictionaries in order. -/
def Document.normal (g : ν → μ) : Document ν → Document μ
  | .null => .null
  | .bool b => .bool b
  | .number x => .number (g x)
  | .str s => .str s
  | .list items => .list (normalItems g items)
  | .dict fields => .dict (sortKeys (normalFields g fields))
  | .other => .other

def normalItems (g : ν → μ) : List (Document ν) → List (Document μ)
  | [] => []
  | v :: vs => v.normal g :: normalItems g vs

def normalFields (g : ν → μ) : List (Text × Document ν) → List (Text × Document μ)
  | [] => []
  | (k, v) :: fs => (k, v.normal g) :: normalFields g fs

end

mutual

/-- A property of the document and of every document in it. -/
def Document.all (p : Document ν → Bool) : Document ν → Bool
  | .list items => p (.list items) && allItems p items
  | .dict fields => p (.dict fields) && allFields p fields
  | v => p v

def allItems (p : Document ν → Bool) : List (Document ν) → Bool
  | [] => true
  | v :: vs => v.all p && allItems p vs

def allFields (p : Document ν → Bool) : List (Text × Document ν) → Bool
  | [] => true
  | (_, v) :: fs => v.all p && allFields p fs

end

mutual

/-- The numbers of a document. -/
def Document.numbers : Document ν → List ν
  | .number x => [x]
  | .list items => numbersOfItems items
  | .dict fields => numbersOfFields fields
  | _ => []

def numbersOfItems : List (Document ν) → List ν
  | [] => []
  | v :: vs => v.numbers ++ numbersOfItems vs

def numbersOfFields : List (Text × Document ν) → List ν
  | [] => []
  | (_, v) :: fs => v.numbers ++ numbersOfFields fs

end

lemma normalItems_eq_map (g : ν → μ) (items : List (Document ν)) :
    normalItems g items = items.map (Document.normal g) := by
  induction items with
  | nil => rfl
  | cons v vs ih => rw [normalItems, ih, List.map_cons]

lemma normalFields_eq_map (g : ν → μ) (fields : List (Text × Document ν)) :
    normalFields g fields = fields.map fun f => (f.1, f.2.normal g) := by
  induction fields with
  | nil => rfl
  | cons f fs ih => rw [normalFields, ih, List.map_cons]

lemma allItems_eq_true {p : Document ν → Bool} {items : List (Document ν)} :
    allItems p items = true ↔ ∀ v ∈ items, v.all p = true := by
  induction items with
  | nil => simp [allItems]
  | cons v vs ih => simp [allItems, ih]

lemma allFields_eq_true {p : Document ν → Bool} {fields : List (Text × Document ν)} :
    allFields p fields = true ↔ ∀ f ∈ fields, f.2.all p = true := by
  induction fields with
  | nil => simp [allFields]
  | cons f fs ih => simp [allFields, ih]

lemma all_list {p : Document ν → Bool} {items : List (Document ν)} :
    (Document.list items).all p = true ↔
      p (.list items) = true ∧ ∀ v ∈ items, v.all p = true := by
  rw [Document.all, Bool.and_eq_true, allItems_eq_true]

lemma all_dict {p : Document ν → Bool} {fields : List (Text × Document ν)} :
    (Document.dict fields).all p = true ↔
      p (.dict fields) = true ∧ ∀ f ∈ fields, f.2.all p = true := by
  rw [Document.all, Bool.and_eq_true, allFields_eq_true]

lemma mem_numbers_list {items : List (Document ν)} {x : ν} :
    x ∈ (Document.list items).numbers ↔ ∃ v ∈ items, x ∈ v.numbers := by
  rw [Document.numbers]
  induction items with
  | nil => simp [numbersOfItems]
  | cons v vs ih => simp [numbersOfItems, ih]

lemma mem_numbers_dict {fields : List (Text × Document ν)} {x : ν} :
    x ∈ (Document.dict fields).numbers ↔ ∃ f ∈ fields, x ∈ f.2.numbers := by
  rw [Document.numbers]
  induction fields with
  | nil => simp [numbersOfFields]
  | cons f fs ih => simp [numbersOfFields, ih]

/-! ## Keys in order -/

instance isTotalKeyOrder {α : Type} : Std.Total fun f g : Text × α => f.1 ≤ g.1 :=
  ⟨fun f g => le_total f.1 g.1⟩

instance isTransKeyOrder {α : Type} : IsTrans (Text × α) fun f g => f.1 ≤ g.1 :=
  ⟨fun _ _ _ h h' => le_trans h h'⟩

lemma perm_sortKeys {α : Type} (fields : List (Text × α)) : (sortKeys fields).Perm fields :=
  List.perm_insertionSort _ fields

lemma sortKeys_sortKeys {α : Type} (fields : List (Text × α)) :
    sortKeys (sortKeys fields) = sortKeys fields :=
  (List.pairwise_insertionSort _ fields).insertionSort_eq

/-- Keys do not care what is done to the values. -/
lemma sortKeys_map {α β : Type} (f : α → β) (fields : List (Text × α)) :
    sortKeys (fields.map fun e => (e.1, f e.2)) = (sortKeys fields).map fun e => (e.1, f e.2) := by
  refine (List.map_insertionSort (fun e g : Text × α => e.1 ≤ g.1) (fun e g : Text × β => e.1 ≤ g.1)
    (fun e => (e.1, f e.2)) fields fun _ _ _ _ => Iff.rfl).symm

/-- The normal form of a normal form. -/
theorem normal_normal (g : ν → μ) (h : μ → κ) (v : Document ν) :
    (v.normal g).normal h = v.normal (h ∘ g) := by
  induction v using Document.induction with
  | list items ih =>
    rw [Document.normal, Document.normal, Document.normal, normalItems_eq_map, normalItems_eq_map,
      normalItems_eq_map, List.map_map]
    exact congrArg Document.list (List.map_congr_left ih)
  | dict fields ih =>
    rw [Document.normal, Document.normal, Document.normal, normalFields_eq_map,
      normalFields_eq_map, normalFields_eq_map]
    have hgoal : fields.map (fun f => (f.1, (f.2.normal g).normal h)) =
        fields.map fun f => (f.1, f.2.normal (h ∘ g)) :=
      List.map_congr_left fun f hf => Prod.ext rfl (ih f hf)
    rw [← sortKeys_map, sortKeys_sortKeys, List.map_map]
    exact congrArg (Document.dict ∘ sortKeys) hgoal
  | _ => rfl

/-- What is said of the numbers of a document by one function can be said by another that tells
no more of them apart. -/
lemma normal_eq_of_factor [Nonempty κ] {f : ν → μ} {g : ν → κ} (h : ∀ x y, f x = f y → g x = g y)
    {v w : Document ν} (hvw : v.normal f = w.normal f) : v.normal g = w.normal g := by
  obtain ⟨k⟩ := ‹Nonempty κ›
  have hfactor : Function.FactorsThrough g f := fun x y hxy => h x y hxy
  rw [← hfactor.extend_comp (fun _ => k), ← normal_normal, hvw, normal_normal]

lemma normal_eq_iff [Nonempty μ] [Nonempty κ] {f : ν → μ} {g : ν → κ}
    (h : ∀ x y, f x = f y ↔ g x = g y) {v w : Document ν} :
    v.normal f = w.normal f ↔ v.normal g = w.normal g :=
  ⟨normal_eq_of_factor fun x y hxy => (h x y).mp hxy,
    normal_eq_of_factor fun x y hxy => (h x y).mpr hxy⟩

lemma normal_congr {f g : ν → μ} {v : Document ν} (h : ∀ x ∈ v.numbers, f x = g x) :
    v.normal f = v.normal g := by
  induction v using Document.induction with
  | number x => exact congrArg Document.number (h x List.mem_cons_self)
  | list items ih =>
    rw [Document.normal, Document.normal, normalItems_eq_map, normalItems_eq_map]
    refine congrArg Document.list (List.map_congr_left fun v hv => ih v hv fun x hx => ?_)
    exact h x (mem_numbers_list.mpr ⟨v, hv, hx⟩)
  | dict fields ih =>
    rw [Document.normal, Document.normal, normalFields_eq_map, normalFields_eq_map]
    refine congrArg (Document.dict ∘ sortKeys) (List.map_congr_left fun f hf => ?_)
    exact Prod.ext rfl (ih f hf fun x hx => h x (mem_numbers_dict.mpr ⟨f, hf, hx⟩))
  | _ => rfl

/-- A property that numbers and the order of keys do not change. -/
lemma all_normal {p : Document ν → Bool} {q : Document μ → Bool} {g : ν → μ}
    (h : ∀ v, q (v.normal g) = p v) (v : Document ν) : (v.normal g).all q = v.all p := by
  induction v using Document.induction with
  | list items ih =>
    rw [Bool.eq_iff_iff, all_list, ← h (.list items), Document.normal, all_list,
      normalItems_eq_map]
    refine and_congr_right fun _ => ⟨fun hall v hv => ?_, fun hall w hw => ?_⟩
    · rw [← ih v hv]
      exact hall _ (List.mem_map_of_mem hv)
    · obtain ⟨v, hv, rfl⟩ := List.mem_map.mp hw
      rw [ih v hv]
      exact hall v hv
  | dict fields ih =>
    rw [Bool.eq_iff_iff, all_dict, ← h (.dict fields), Document.normal, all_dict,
      normalFields_eq_map]
    refine and_congr_right fun _ => ⟨fun hall f hf => ?_, fun hall e he => ?_⟩
    · rw [← ih f hf]
      exact hall (f.1, f.2.normal g) ((perm_sortKeys _).mem_iff.mpr (List.mem_map_of_mem hf))
    · obtain ⟨f, hf, rfl⟩ := List.mem_map.mp ((perm_sortKeys _).mem_iff.mp he)
      show (f.2.normal g).all q = true
      rw [ih f hf]
      exact hall f hf
  | null => exact h .null
  | bool b => exact h (.bool b)
  | number x => exact h (.number x)
  | str s => exact h (.str s)
  | other => exact h .other

/-! ## Texts of normal forms -/

mutual

/-- The JSON value of a document with the tokens of its numbers. -/
def writeTree : Document Text → JsonText.Value
  | .null => .null
  | .bool b => .bool b
  | .number t => readToken t
  | .str s => .str s
  | .list items => .arr (writeItems items)
  | .dict fields => .obj (writeFields fields)
  | .other => .null

def writeItems : List (Document Text) → List JsonText.Value
  | [] => []
  | v :: vs => writeTree v :: writeItems vs

def writeFields : List (Text × Document Text) → List (Text × JsonText.Value)
  | [] => []
  | (k, v) :: fs => (k, writeTree v) :: writeFields fs

end

mutual

/-- The document of a JSON value with the tokens of its numbers. -/
def readTree : JsonText.Value → Document Text
  | .null => .null
  | .bool b => .bool b
  | .int n => .number (renderInt n)
  | .real t => .number t
  | .str s => .str s
  | .arr items => .list (readItems items)
  | .obj fields => .dict (readFields fields)

def readItems : List JsonText.Value → List (Document Text)
  | [] => []
  | v :: vs => readTree v :: readItems vs

def readFields : List (Text × JsonText.Value) → List (Text × Document Text)
  | [] => []
  | (k, v) :: fs => (k, readTree v) :: readFields fs

end

lemma writeItems_eq_map (items : List (Document Text)) :
    writeItems items = items.map writeTree := by
  induction items with
  | nil => rfl
  | cons v vs ih => rw [writeItems, ih, List.map_cons]

lemma writeFields_eq_map (fields : List (Text × Document Text)) :
    writeFields fields = fields.map fun f => (f.1, writeTree f.2) := by
  induction fields with
  | nil => rfl
  | cons f fs ih => rw [writeFields, ih, List.map_cons]

lemma readItems_eq_map (items : List JsonText.Value) : readItems items = items.map readTree := by
  induction items with
  | nil => rfl
  | cons v vs ih => rw [readItems, ih, List.map_cons]

lemma readFields_eq_map (fields : List (Text × JsonText.Value)) :
    readFields fields = fields.map fun f => (f.1, readTree f.2) := by
  induction fields with
  | nil => rfl
  | cons f fs ih => rw [readFields, ih, List.map_cons]

/-- The document has bytes: its integers are converted, and there is nothing else in it. -/
def Document.isWritable : Document Number → Bool
  | .number x => x.fits
  | .other => false
  | _ => true

/-- No dictionary has a key twice. -/
def Document.isPlain : Document ν → Bool
  | .dict fields => (fields.map Prod.fst).Nodup
  | _ => true

/-- The JSON value whose text the canonical bytes are. -/
def written (v : Document Number) : JsonText.Value := writeTree (v.normal Number.token)

lemma written_list (items : List (Document Number)) :
    written (.list items) = .arr (items.map written) := by
  unfold written
  rw [Document.normal, writeTree, writeItems_eq_map, normalItems_eq_map, List.map_map]
  rfl

lemma written_dict (fields : List (Text × Document Number)) :
    written (.dict fields) = .obj ((sortKeys fields).map fun f => (f.1, written f.2)) := by
  unfold written
  rw [Document.normal, writeTree, writeFields_eq_map, normalFields_eq_map, sortKeys_map,
    List.map_map]
  rfl

/-- The value of a token, and its text. -/
lemma readToken_token (x : Number) : (readToken x.token).isReadable = true ∧
    render (readToken x.token) = x.token ∧ readTree (readToken x.token) = .number x.token := by
  cases token_cases x with
  | whole n htoken hvalue hsmall =>
    rw [htoken, readToken_int]
    exact ⟨rfl, rfl, rfl⟩
  | real d hdecimal hreal hof hvalue htoken hlarge =>
    rw [readToken_real hreal]
    exact ⟨hreal, rfl, rfl⟩

lemma isReadable_written (v : Document Number) :
    (written v).all JsonText.Value.isReadable = true := by
  induction v using Document.induction with
  | number x =>
    have h := (readToken_token x).1
    show (readToken x.token).all JsonText.Value.isReadable = true
    cases token_cases x with
    | whole n htoken hvalue hsmall =>
      rw [htoken, readToken_int]
      rfl
    | real d hdecimal hreal hof hvalue htoken hlarge =>
      rw [readToken_real hreal]
      exact hreal
  | list items ih =>
    rw [written_list]
    refine JsonText.all_arr.mpr ⟨rfl, fun w hw => ?_⟩
    obtain ⟨v, hv, rfl⟩ := List.mem_map.mp hw
    exact ih v hv
  | dict fields ih =>
    rw [written_dict]
    refine JsonText.all_obj.mpr ⟨rfl, fun e he => ?_⟩
    obtain ⟨f, hf, rfl⟩ := List.mem_map.mp he
    exact ih f ((perm_sortKeys fields).mem_iff.mp hf)
  | _ => rfl

/-- The value tells the tokens of the document. -/
lemma readTree_written {v : Document Number} (h : v.all Document.isWritable = true) :
    readTree (written v) = v.normal Number.token := by
  induction v using Document.induction with
  | number x => exact (readToken_token x).2.2
  | list items ih =>
    obtain ⟨-, hitems⟩ := all_list.mp h
    rw [written_list, readTree, readItems_eq_map, Document.normal, normalItems_eq_map,
      List.map_map]
    exact congrArg Document.list (List.map_congr_left fun v hv => ih v hv (hitems v hv))
  | dict fields ih =>
    obtain ⟨-, hfields⟩ := all_dict.mp h
    rw [written_dict, readTree, readFields_eq_map, Document.normal, normalFields_eq_map,
      sortKeys_map, List.map_map]
    refine congrArg Document.dict (List.map_congr_left fun f hf => ?_)
    have hmem := (perm_sortKeys fields).mem_iff.mp hf
    exact Prod.ext rfl (ih f hmem (hfields f hmem))
  | other => exact nomatch h
  | _ => rfl

/-- Values are the same exactly for documents with the same marks. -/
theorem written_eq_iff {v w : Document Number} (hv : v.all Document.isWritable = true)
    (hw : w.all Document.isWritable = true) :
    written v = written w ↔ v.normal Number.mark = w.normal Number.mark := by
  rw [← normal_eq_iff token_eq_iff]
  constructor
  · intro h
    rw [← readTree_written hv, h, readTree_written hw]
  · intro h
    unfold written
    rw [h]

/-! ## The bytes -/

/-- Texts with a comma between two of them. -/
def commaJoin : List Text → Text
  | [] => []
  | [t] => t
  | t :: ts => t ++ ',' :: commaJoin ts

lemma commaJoin_cons_cons (t u : Text) (ts : List Text) :
    commaJoin (t :: u :: ts) = t ++ ',' :: commaJoin (u :: ts) := rfl

lemma separated_cons_cons (x y : List (List UInt8)) (xs : List (List (List UInt8))) :
    separated (x :: y :: xs) = x ++ encodeUtf8 [','] :: separated (y :: xs) := rfl

lemma encodeUtf8_cons (c : Char) (t : Text) :
    encodeUtf8 (c :: t) = encodeUtf8 [c] ++ encodeUtf8 t :=
  JsonText.encodeUtf8_append [c] t

lemma renderItems_eq (v : JsonText.Value) (vs : List JsonText.Value) :
    render v ++ renderItems vs = commaJoin ((v :: vs).map render) ++ [']'] := by
  induction vs generalizing v with
  | nil => rfl
  | cons w ws ih =>
    rw [renderItems, ih w, List.map_cons, List.map_cons, List.map_cons, commaJoin_cons_cons]
    simp

lemma renderFields_eq (f : Text × JsonText.Value) (fs : List (Text × JsonText.Value)) :
    renderString f.1 ++ ':' :: (render f.2 ++ renderFields fs) =
      commaJoin ((f :: fs).map fun f => renderString f.1 ++ ':' :: render f.2) ++ ['}'] := by
  induction fs generalizing f with
  | nil => simp [renderFields, commaJoin]
  | cons g gs ih =>
    rw [renderFields, ih g, List.map_cons, List.map_cons, List.map_cons, commaJoin_cons_cons]
    simp

lemma render_arr (vs : List JsonText.Value) :
    render (.arr vs) = '[' :: (commaJoin (vs.map render) ++ [']']) := by
  cases vs with
  | nil => rfl
  | cons v vs => rw [render, renderItems_eq]

lemma render_obj (fs : List (Text × JsonText.Value)) :
    render (.obj fs) =
      '{' :: (commaJoin (fs.map fun f => renderString f.1 ++ ':' :: render f.2) ++ ['}']) := by
  rcases fs with _ | ⟨⟨k, v⟩, fs⟩
  · rfl
  · rw [render]
    exact congrArg ('{' :: ·) (renderFields_eq (k, v) fs)

lemma flatten_separated {α : Type} (chunks : α → List (List UInt8)) (text : α → Text) (xs : List α)
    (h : ∀ x ∈ xs, (chunks x).flatten = encodeUtf8 (text x)) :
    (separated (xs.map chunks)).flatten = encodeUtf8 (commaJoin (xs.map text)) := by
  induction xs with
  | nil => rfl
  | cons x xs ih =>
    have hx := h x List.mem_cons_self
    have hxs := ih fun y hy => h y (List.mem_cons_of_mem x hy)
    cases xs with
    | nil => exact hx
    | cons y ys =>
      rw [List.map_cons, List.map_cons, List.map_cons, List.map_cons, separated_cons_cons,
        commaJoin_cons_cons, ← List.map_cons, ← List.map_cons, List.flatten_append,
        List.flatten_cons, hx, hxs, JsonText.encodeUtf8_append, encodeUtf8_cons ',' (commaJoin _)]

/-- The chunks between two marks. -/
lemma flatten_between {chunks : List (List UInt8)} {text : Text} (first last : Char)
    (h : chunks.flatten = encodeUtf8 text) :
    (encodeUtf8 [first] :: chunks ++ [encodeUtf8 [last]]).flatten =
      encodeUtf8 (first :: (text ++ [last])) := by
  rw [List.flatten_append, List.flatten_cons, h, encodeUtf8_cons first (text ++ [last]),
    JsonText.encodeUtf8_append]
  simp

variable {split : Text → List Text}

/-- The bytes of a string do not depend on how it is split. -/
lemma flatten_iterJsonStringBytes (hsplit : ∀ s, (split s).flatten = s) (s : Text) :
    (iterJsonStringBytes split s).flatten = encodeUtf8 (renderString s) := by
  refine flatten_between '"' '"' ?_
  have hfragments : ∀ ts : List Text, (ts.map fun t => encodeUtf8 (t.flatMap escape)).flatten =
      encodeUtf8 (ts.flatten.flatMap escape) := by
    intro ts
    induction ts with
    | nil => rfl
    | cons t ts ih =>
      rw [List.map_cons, List.flatten_cons, List.flatten_cons, List.flatMap_append,
        JsonText.encodeUtf8_append, ih]
  rw [hfragments, hsplit]

/-- The chunks of a document. -/
def chunksOf (split : Text → List Text) (v : Document Number) : List (List UInt8) :=
  (iterCanonicalJsonBytes split v).getD []

lemma iterItems_eq {items : List (Document Number)}
    (h : ∀ v ∈ items, iterCanonicalJsonBytes split v = some (chunksOf split v)) :
    iterItems split items = some (items.map (chunksOf split)) := by
  induction items with
  | nil => rfl
  | cons v vs ih =>
    rw [iterItems, h v List.mem_cons_self, ih fun w hw => h w (List.mem_cons_of_mem v hw)]
    rfl

lemma iterItems_eq_none {items : List (Document Number)} {v : Document Number} (hv : v ∈ items)
    (h : iterCanonicalJsonBytes split v = none) : iterItems split items = none := by
  induction items with
  | nil => exact absurd hv List.not_mem_nil
  | cons w ws ih =>
    rw [iterItems]
    rcases List.mem_cons.mp hv with rfl | hv
    · rw [h]
      rfl
    · rw [ih hv]
      cases iterCanonicalJsonBytes split w <;> rfl

lemma iterFields_eq {fields : List (Text × Document Number)}
    (h : ∀ f ∈ fields, iterCanonicalJsonBytes split f.2 = some (chunksOf split f.2)) :
    iterFields split fields = some (fields.map fun f => (f.1, chunksOf split f.2)) := by
  induction fields with
  | nil => rfl
  | cons f fs ih =>
    rw [iterFields, h f List.mem_cons_self, ih fun g hg => h g (List.mem_cons_of_mem f hg)]
    rfl

lemma iterFields_eq_none {fields : List (Text × Document Number)} {f : Text × Document Number}
    (hf : f ∈ fields) (h : iterCanonicalJsonBytes split f.2 = none) :
    iterFields split fields = none := by
  induction fields with
  | nil => exact absurd hf List.not_mem_nil
  | cons g gs ih =>
    rw [iterFields]
    rcases List.mem_cons.mp hf with rfl | hf
    · rw [h]
      rfl
    · rw [ih hf]
      cases iterCanonicalJsonBytes split g.2 <;> rfl

/-- The canonical bytes of a document are the text of its value. -/
theorem iterCanonicalJsonBytes_eq (hsplit : ∀ s, (split s).flatten = s) {v : Document Number}
    (h : v.all Document.isWritable = true) :
    iterCanonicalJsonBytes split v = some (chunksOf split v) ∧
      (chunksOf split v).flatten = encodeUtf8 (render (written v)) := by
  suffices hsome : ∃ chunks, iterCanonicalJsonBytes split v = some chunks ∧
      chunks.flatten = encodeUtf8 (render (written v)) by
    obtain ⟨chunks, hiter, hflatten⟩ := hsome
    have hchunks : chunksOf split v = chunks := by
      unfold chunksOf
      rw [hiter, Option.getD_some]
    rw [hchunks]
    exact ⟨hiter, hflatten⟩
  induction v using Document.induction with
  | null => exact ⟨_, rfl, by simp [written, Document.normal, writeTree, render]⟩
  | bool b =>
    cases b <;> exact ⟨_, rfl, by simp [written, Document.normal, writeTree, render]⟩
  | number x =>
    have hrender : render (written (.number x)) = x.token := (readToken_token x).2.1
    rw [hrender]
    cases x with
    | int n =>
      have hfits : fitsDigits n = true := h
      exact ⟨_, by rw [iterCanonicalJsonBytes, if_pos hfits], by simp [Number.token]⟩
    | decimal d => exact ⟨_, rfl, by simp [Number.token]⟩
  | str s => exact ⟨_, rfl, flatten_iterJsonStringBytes hsplit s⟩
  | list items ih =>
    obtain ⟨-, hitems⟩ := all_list.mp h
    have hall : ∀ v ∈ items, iterCanonicalJsonBytes split v = some (chunksOf split v) ∧
        (chunksOf split v).flatten = encodeUtf8 (render (written v)) := by
      intro v hv
      obtain ⟨chunks, hiter, hflatten⟩ := ih v hv (hitems v hv)
      have hchunks : chunksOf split v = chunks := by
        unfold chunksOf
        rw [hiter, Option.getD_some]
      rw [hchunks]
      exact ⟨hiter, hflatten⟩
    refine ⟨_, by rw [iterCanonicalJsonBytes, iterItems_eq fun v hv => (hall v hv).1]; rfl, ?_⟩
    rw [written_list, render_arr, List.map_map]
    exact flatten_between '[' ']'
      (flatten_separated (chunksOf split) (render ∘ written) items fun v hv => (hall v hv).2)
  | dict fields ih =>
    obtain ⟨-, hfields⟩ := all_dict.mp h
    have hall : ∀ f ∈ fields, iterCanonicalJsonBytes split f.2 = some (chunksOf split f.2) ∧
        (chunksOf split f.2).flatten = encodeUtf8 (render (written f.2)) := by
      intro f hf
      obtain ⟨chunks, hiter, hflatten⟩ := ih f hf (hfields f hf)
      have hchunks : chunksOf split f.2 = chunks := by
        unfold chunksOf
        rw [hiter, Option.getD_some]
      rw [hchunks]
      exact ⟨hiter, hflatten⟩
    refine ⟨_, by rw [iterCanonicalJsonBytes, iterFields_eq fun f hf => (hall f hf).1]; rfl, ?_⟩
    rw [written_dict, render_obj, sortKeys_map, List.map_map, List.map_map]
    refine flatten_between '{' '}' (flatten_separated _ _ (sortKeys fields) fun f hf => ?_)
    have hvalue := (hall f ((perm_sortKeys fields).mem_iff.mp hf)).2
    show (iterJsonStringBytes split f.1 ++ encodeUtf8 [':'] :: chunksOf split f.2).flatten =
      encodeUtf8 (renderString f.1 ++ ':' :: render (written f.2))
    rw [List.flatten_append, List.flatten_cons, flatten_iterJsonStringBytes hsplit, hvalue,
      JsonText.encodeUtf8_append, encodeUtf8_cons ':' (render _)]
  | other => cases h

/-- Nothing else has bytes. -/
theorem iterCanonicalJsonBytes_eq_none {v : Document Number}
    (h : v.all Document.isWritable = false) : iterCanonicalJsonBytes split v = none := by
  induction v using Document.induction with
  | number x =>
    cases x with
    | int n =>
      have hfits : fitsDigits n = false := h
      rw [iterCanonicalJsonBytes, hfits]
      rfl
    | decimal d => exact nomatch h
  | list items ih =>
    have hsome : ∃ v ∈ items, v.all Document.isWritable = false := by
      by_contra hnone
      push Not at hnone
      have hall := all_list.mpr ⟨rfl, fun v hv => Bool.eq_true_of_not_eq_false (hnone v hv)⟩
      rw [h] at hall
      exact Bool.false_ne_true hall
    obtain ⟨v, hv, hvall⟩ := hsome
    rw [iterCanonicalJsonBytes, iterItems_eq_none hv (ih v hv hvall)]
    rfl
  | dict fields ih =>
    have hsome : ∃ f ∈ fields, f.2.all Document.isWritable = false := by
      by_contra hnone
      push Not at hnone
      have hall := all_dict.mpr ⟨rfl, fun f hf => Bool.eq_true_of_not_eq_false (hnone f hf)⟩
      rw [h] at hall
      exact Bool.false_ne_true hall
    obtain ⟨f, hf, hfall⟩ := hsome
    rw [iterCanonicalJsonBytes, iterFields_eq_none hf (ih f hf hfall)]
    rfl
  | other => rfl
  | null => exact nomatch h
  | bool b => exact nomatch h
  | str s => exact nomatch h

lemma flatten_slices {size fuel : ℕ} (hsize : 0 < size) {s : Text} (hfuel : s.length ≤ fuel) :
    (slices size fuel s).flatten = s := by
  induction fuel generalizing s with
  | zero => exact (List.length_eq_zero_iff.mp (Nat.le_zero.mp hfuel)).symm
  | succ fuel ih =>
    rw [slices]
    split
    · rename_i hnil
      rw [hnil]
      rfl
    · rename_i hne
      have hpos := List.length_pos_of_ne_nil hne
      have hrest : (s.drop size).length ≤ fuel := by
        rw [List.length_drop]
        omega
      rw [List.flatten_cons, ih hrest, List.take_append_drop]

lemma flatten_fragments (s : Text) : (fragments s).flatten = s :=
  flatten_slices (by norm_num) (Nat.le_refl _)

/-- The bytes of a document, with the line feed that may follow. -/
theorem encodeWith_eq (hsplit : ∀ s, (split s).flatten = s) {v : Document Number}
    (h : v.all Document.isWritable = true) (trailingLf : Bool) :
    encodeWith split v trailingLf =
      some (encodeUtf8 (render (written v) ++ if trailingLf then ['\n'] else [])) := by
  obtain ⟨hiter, hflatten⟩ := iterCanonicalJsonBytes_eq hsplit h
  unfold encodeWith
  rw [hiter]
  simp only [Option.bind_eq_bind, Option.bind_some, hflatten, JsonText.encodeUtf8_append]
  cases trailingLf <;> rfl

theorem isSome_encodeWith (hsplit : ∀ s, (split s).flatten = s) (v : Document Number)
    (trailingLf : Bool) :
    (encodeWith split v trailingLf).isSome = v.all Document.isWritable := by
  cases h : v.all Document.isWritable with
  | true =>
    rw [encodeWith_eq hsplit h]
    rfl
  | false =>
    unfold encodeWith
    rw [iterCanonicalJsonBytes_eq_none h]
    rfl

/-! ## Reading the bytes -/

section Read

variable {parseFloat : Text → Option PyDecimal}

lemma ofItems_map {α : Type} {f : α → JsonText.Value} {g : α → Document Number} {xs : List α}
    (h : ∀ x ∈ xs, ofValue parseFloat (f x) = some (g x)) :
    ofItems parseFloat (xs.map f) = some (xs.map g) := by
  induction xs with
  | nil => rfl
  | cons x xs ih =>
    rw [List.map_cons, ofItems, h x List.mem_cons_self,
      ih fun y hy => h y (List.mem_cons_of_mem x hy)]
    rfl

lemma ofItems_map_none {α : Type} {f : α → JsonText.Value} {xs : List α} {x : α} (hx : x ∈ xs)
    (h : ofValue parseFloat (f x) = none) : ofItems parseFloat (xs.map f) = none := by
  induction xs with
  | nil => exact absurd hx List.not_mem_nil
  | cons y ys ih =>
    rw [List.map_cons, ofItems]
    rcases List.mem_cons.mp hx with rfl | hx
    · rw [h]
      rfl
    · rw [ih hx]
      cases ofValue parseFloat (f y) <;> rfl

lemma ofFields_map {α : Type} {f : α → JsonText.Value} {g : α → Document Number}
    {xs : List (Text × α)} (h : ∀ x ∈ xs, ofValue parseFloat (f x.2) = some (g x.2)) :
    ofFields parseFloat (xs.map fun x => (x.1, f x.2)) =
      some (xs.map fun x => (x.1, g x.2)) := by
  induction xs with
  | nil => rfl
  | cons x xs ih =>
    rw [List.map_cons, ofFields, h x List.mem_cons_self,
      ih fun y hy => h y (List.mem_cons_of_mem x hy)]
    rfl

lemma ofFields_map_none {α : Type} {f : α → JsonText.Value} {xs : List (Text × α)} {x : Text × α}
    (hx : x ∈ xs) (h : ofValue parseFloat (f x.2) = none) :
    ofFields parseFloat (xs.map fun x => (x.1, f x.2)) = none := by
  induction xs with
  | nil => exact absurd hx List.not_mem_nil
  | cons y ys ih =>
    rw [List.map_cons, ofFields]
    rcases List.mem_cons.mp hx with rfl | hx
    · rw [h]
      rfl
    · rw [ih hx]
      cases ofValue parseFloat (f y.2) <;> rfl

lemma nodup_keys {α β : Type} {fields : List (Text × α)} (f : α → β)
    (h : (fields.map Prod.fst).Nodup) :
    (((sortKeys fields).map fun e => (e.1, f e.2)).map Prod.fst).Nodup := by
  rw [List.map_map]
  exact ((perm_sortKeys fields).map Prod.fst).nodup_iff.mpr h

/-- The reader makes of the value of a document its normal form, with what it makes of the
numbers. -/
theorem ofValue_tree {v : Document Number} (hwritable : v.all Document.isWritable = true)
    (hplain : v.all Document.isPlain = true)
    (h : ∀ x ∈ v.numbers, ofValue parseFloat (readToken x.token) = some (.number (reread x))) :
    ofValue parseFloat (written v) = some (v.normal reread) := by
  induction v using Document.induction with
  | number x => exact h x List.mem_cons_self
  | list items ih =>
    obtain ⟨-, hitems⟩ := all_list.mp hwritable
    obtain ⟨-, hitems'⟩ := all_list.mp hplain
    rw [written_list, ofValue, ofItems_map fun v hv => ih v hv (hitems v hv) (hitems' v hv)
      fun x hx => h x (mem_numbers_list.mpr ⟨v, hv, hx⟩), Document.normal, normalItems_eq_map]
    rfl
  | dict fields ih =>
    obtain ⟨-, hfields⟩ := all_dict.mp hwritable
    obtain ⟨hkeys, hfields'⟩ := all_dict.mp hplain
    have hread : ∀ f ∈ sortKeys fields, ofValue parseFloat (written f.2) =
        some (f.2.normal reread) := by
      intro f hf
      have hmem := (perm_sortKeys fields).mem_iff.mp hf
      exact ih f hmem (hfields f hmem) (hfields' f hmem)
        fun x hx => h x (mem_numbers_dict.mpr ⟨f, hmem, hx⟩)
    rw [written_dict, ofValue, if_pos (nodup_keys written (of_decide_eq_true hkeys)),
      ofFields_map hread, Document.normal, normalFields_eq_map, sortKeys_map]
    rfl
  | other => cases hwritable
  | _ => rfl

/-- The reader takes no document with a number that it does not take. -/
theorem ofValue_tree_none {v : Document Number} {x : Number} (hx : x ∈ v.numbers)
    (h : ofValue parseFloat (readToken x.token) = none) :
    ofValue parseFloat (written v) = none := by
  induction v using Document.induction with
  | number y =>
    obtain rfl := List.mem_singleton.mp hx
    exact h
  | list items ih =>
    obtain ⟨v, hv, hx⟩ := mem_numbers_list.mp hx
    rw [written_list, ofValue, ofItems_map_none hv (ih v hv hx)]
    rfl
  | dict fields ih =>
    obtain ⟨f, hf, hx⟩ := mem_numbers_dict.mp hx
    rw [written_dict, ofValue,
      ofFields_map_none ((perm_sortKeys fields).mem_iff.mpr hf) (ih f hf hx)]
    split <;> rfl
  | _ => exact absurd hx List.not_mem_nil

end Read

/-! ## Documents that were read -/

lemma fits_of_mem {v : Document Number} (h : v.all Document.isWritable = true) {x : Number}
    (hx : x ∈ v.numbers) : x.fits = true := by
  induction v using Document.induction with
  | number y =>
    obtain rfl := List.mem_singleton.mp hx
    exact h
  | list items ih =>
    obtain ⟨v, hv, hx⟩ := mem_numbers_list.mp hx
    exact ih v hv ((all_list.mp h).2 v hv) hx
  | dict fields ih =>
    obtain ⟨f, hf, hx⟩ := mem_numbers_dict.mp hx
    exact ih f hf ((all_dict.mp h).2 f hf) hx
  | _ => exact absurd hx List.not_mem_nil

lemma isPlain_normal {g : ν → μ} (v : Document ν) : (v.normal g).isPlain = v.isPlain := by
  cases v with
  | dict fields =>
    have hkeys : ((sortKeys (normalFields g fields)).map Prod.fst).Perm (fields.map Prod.fst) := by
      refine ((perm_sortKeys _).map _).trans ?_
      rw [normalFields_eq_map, List.map_map]
      exact List.Perm.refl _
    rw [Document.normal, Document.isPlain, Document.isPlain, decide_eq_decide]
    exact hkeys.nodup_iff
  | _ => rfl

/-- A document that was read can be written again, to the same bytes. -/
lemma written_normal {v : Document Number} (h : v.all Document.isWritable = true) :
    (v.normal reread).all Document.isWritable = true ∧ written (v.normal reread) = written v := by
  have hspec := fun x hx => reread_spec (fits_of_mem h (x := x) hx)
  constructor
  · induction v using Document.induction with
    | number x => exact (hspec x List.mem_cons_self).2.2.2
    | list items ih =>
      rw [Document.normal, normalItems_eq_map]
      refine all_list.mpr ⟨rfl, fun w hw => ?_⟩
      obtain ⟨v, hv, rfl⟩ := List.mem_map.mp hw
      exact ih v hv ((all_list.mp h).2 v hv) fun x hx =>
        hspec x (mem_numbers_list.mpr ⟨v, hv, hx⟩)
    | dict fields ih =>
      rw [Document.normal, normalFields_eq_map]
      refine all_dict.mpr ⟨rfl, fun e he => ?_⟩
      obtain ⟨f, hf, rfl⟩ := List.mem_map.mp ((perm_sortKeys _).mem_iff.mp he)
      exact ih f hf ((all_dict.mp h).2 f hf) fun x hx =>
        hspec x (mem_numbers_dict.mpr ⟨f, hf, hx⟩)
    | other => exact nomatch h
    | _ => rfl
  · unfold written
    rw [normal_normal]
    exact congrArg writeTree (normal_congr fun x hx => (hspec x hx).2.2.1)

lemma value_normal {v : Document Number} (h : v.all Document.isWritable = true) :
    (v.normal reread).normal Number.value = v.normal Number.value := by
  rw [normal_normal]
  exact normal_congr fun x hx => (reread_spec (fits_of_mem h hx)).2.1

end NexaPos.Backups.CanonicalJson
