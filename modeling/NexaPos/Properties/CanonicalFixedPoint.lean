import NexaPos.Backups.CanonicalVisits

/-!
# Canonical JSON is a fixed point

The text of an accepted value is read as the same value with its numbers spelled again, which is
visited as the value was, and a policy takes what it has made of a value.  The text is therefore
accepted again and has the same bytes, unless it is longer than the texts that are taken: a
structure is not measured, and a decimal may be written with more characters than it was read from.
-/

namespace NexaPos.Backups.CanonicalJson

open JsonText (render encodeUtf8 decodeUtf8 loads)

variable {ν μ : Type}

/-! ## Admitted documents -/

/-- Every place of the document is as it should be, and the sums are within the limits. -/
structure Document.Admitted (isDatabaseId : Text → Bool) (maximumDepth : ℕ) (v : Document ν) :
    Prop where
  every : v.every (allowedAt isDatabaseId maximumDepth) 0 = true
  nodes : v.total nodesAt ≤ 4096
  bytes : v.total bytesAt ≤ 65536

section Admitted

variable {isDatabaseId : Text → Bool} {maximumDepth : ℕ}

lemma admitted_of_visit {v c : Document Number} {budget : Budget}
    (h : canonicalJsonValue isDatabaseId maximumDepth 0 v {} = some (c, budget)) :
    v.Admitted isDatabaseId maximumDepth ∧ c = v.normal id := by
  have hstart : Budget.Within {} := ⟨by norm_num, by norm_num⟩
  obtain ⟨hevery, ⟨hnodes, hbytes⟩, rfl, rfl⟩ := (visited v 0 {} hstart c budget).mp h
  simp only [Budget.plus, Nat.zero_add] at hnodes hbytes
  exact ⟨⟨hevery, hnodes, hbytes⟩, rfl⟩

lemma visit_of_admitted {v : Document Number} (h : v.Admitted isDatabaseId maximumDepth) :
    ∃ budget, canonicalJsonValue isDatabaseId maximumDepth 0 v {} = some (v.normal id, budget) := by
  have hstart : Budget.Within {} := ⟨by norm_num, by norm_num⟩
  refine ⟨_, (visited v 0 {} hstart _ _).mpr ⟨h.every, ?_, rfl, rfl⟩⟩
  simp only [Budget.Within, Budget.plus, Nat.zero_add]
  exact ⟨h.nodes, h.bytes⟩

lemma admitted_normal {v : Document ν} (h : v.Admitted isDatabaseId maximumDepth) (g : ν → μ) :
    (v.normal g).Admitted isDatabaseId maximumDepth := by
  refine ⟨?_, ?_, ?_⟩
  · rw [every_normal (allowedAt_normal isDatabaseId maximumDepth g)]
    exact h.every
  · rw [total_normal (nodesAt_normal g)]
    exact h.nodes
  · rw [total_normal (bytesAt_normal g)]
    exact h.bytes

/-- The order of the items of a list does not matter. -/
lemma admitted_perm {items items' : List (Document ν)} (hperm : items'.Perm items)
    (h : (Document.list items).Admitted isDatabaseId maximumDepth) :
    (Document.list items').Admitted isDatabaseId maximumDepth := by
  obtain ⟨hevery, hnodes, hbytes⟩ := h
  rw [Document.total, totalItems_eq_sum] at hnodes hbytes
  rw [Document.every, everyItem_eq_all] at hevery
  refine ⟨?_, ?_, ?_⟩
  · rw [Document.every, everyItem_eq_all, hperm.all_eq]
    have hhere : allowedAt isDatabaseId maximumDepth 0 (.list items') =
        allowedAt isDatabaseId maximumDepth 0 (.list items) := by
      simp only [allowedAt, hperm.length_eq]
    rw [hhere]
    exact hevery
  · rw [Document.total, totalItems_eq_sum, (hperm.map _).sum_eq]
    exact hnodes
  · rw [Document.total, totalItems_eq_sum, (hperm.map _).sum_eq]
    exact hbytes

/-- Nothing but a long integer keeps an admitted document from being written. -/
lemma isWritable_of_every {v : Document Number} {depth : ℕ}
    (h : v.every (allowedAt isDatabaseId maximumDepth) depth = true)
    (hfits : ∀ x ∈ v.numbers, x.fits = true) : v.all Document.isWritable = true := by
  induction v using Document.induction generalizing depth with
  | number x => exact hfits x List.mem_cons_self
  | list items ih =>
    rw [Document.every, Bool.and_eq_true, everyItem_eq_all, List.all_eq_true] at h
    refine all_list.mpr ⟨rfl, fun v hv => ih v hv (h.2 v hv) fun x hx => ?_⟩
    exact hfits x (mem_numbers_list.mpr ⟨v, hv, hx⟩)
  | dict fields ih =>
    rw [Document.every, Bool.and_eq_true, everyField_eq_all, List.all_eq_true] at h
    refine all_dict.mpr ⟨rfl, fun f hf => ih f hf (h.2 f hf) fun x hx => ?_⟩
    exact hfits x (mem_numbers_dict.mpr ⟨f, hf, hx⟩)
  | other =>
    have hhere : (Document.other : Document Number).every (allowedAt isDatabaseId maximumDepth)
        depth = false := Bool.and_false _
    exact absurd (hhere.symm.trans h) Bool.false_ne_true
  | _ => rfl

end Admitted

/-! ## Documents that are read -/

section Plain

variable {parseFloat : Text → Option PyDecimal}

lemma ofItems_plain {items : List JsonText.Value} {vs : List (Document Number)}
    (h : ofItems parseFloat items = some vs)
    (hitems : ∀ j ∈ items, ∀ v, ofValue parseFloat j = some v → v.all Document.isPlain = true) :
    ∀ v ∈ vs, v.all Document.isPlain = true := by
  induction items generalizing vs with
  | nil =>
    obtain rfl := Option.some.inj h
    exact fun v hv => absurd hv List.not_mem_nil
  | cons j js ih =>
    rw [ofItems, Option.bind_eq_bind, Option.bind_eq_some_iff] at h
    obtain ⟨w, hw, h⟩ := h
    obtain ⟨ws, hws, heq⟩ := Option.bind_eq_some_iff.mp h
    obtain rfl := Option.some.inj heq
    refine List.forall_mem_cons.mpr ⟨hitems j List.mem_cons_self w hw, ?_⟩
    exact ih hws fun j' hj' => hitems j' (List.mem_cons_of_mem j hj')

lemma ofFields_plain {fields : List (Text × JsonText.Value)} {fs : List (Text × Document Number)}
    (h : ofFields parseFloat fields = some fs)
    (hfields : ∀ e ∈ fields, ∀ v, ofValue parseFloat e.2 = some v →
      v.all Document.isPlain = true) :
    fs.map Prod.fst = fields.map Prod.fst ∧ ∀ f ∈ fs, f.2.all Document.isPlain = true := by
  induction fields generalizing fs with
  | nil =>
    obtain rfl := Option.some.inj h
    exact ⟨rfl, fun f hf => absurd hf List.not_mem_nil⟩
  | cons e es ih =>
    obtain ⟨k, j⟩ := e
    rw [ofFields, Option.bind_eq_bind, Option.bind_eq_some_iff] at h
    obtain ⟨w, hw, h⟩ := h
    obtain ⟨ws, hws, heq⟩ := Option.bind_eq_some_iff.mp h
    obtain rfl := Option.some.inj heq
    obtain ⟨hkeys, hplain⟩ := ih hws fun e' he' => hfields e' (List.mem_cons_of_mem _ he')
    refine ⟨by rw [List.map_cons, List.map_cons, hkeys], List.forall_mem_cons.mpr ⟨?_, hplain⟩⟩
    exact hfields (k, j) List.mem_cons_self w hw

/-- No dictionary that was read has a key twice. -/
lemma isPlain_ofValue {j : JsonText.Value} {v : Document Number}
    (h : ofValue parseFloat j = some v) : v.all Document.isPlain = true := by
  induction j using JsonText.Value.induction generalizing v with
  | null =>
    obtain rfl := Option.some.inj h
    rfl
  | bool b =>
    obtain rfl := Option.some.inj h
    rfl
  | int n =>
    rw [ofValue, Option.ite_none_right_eq_some] at h
    obtain ⟨-, heq⟩ := h
    obtain rfl := Option.some.inj heq
    rfl
  | real t =>
    rw [ofValue, Option.ite_none_left_eq_some] at h
    obtain ⟨d, -, rfl⟩ := Option.map_eq_some_iff.mp h.2
    rfl
  | str s =>
    obtain rfl := Option.some.inj h
    rfl
  | arr items ih =>
    rw [ofValue] at h
    obtain ⟨vs, hvs, rfl⟩ := Option.map_eq_some_iff.mp h
    exact all_list.mpr ⟨rfl, ofItems_plain hvs fun j hj v hv => ih j hj hv⟩
  | obj fields ih =>
    rw [ofValue, Option.ite_none_right_eq_some] at h
    obtain ⟨hkeys, hread⟩ := h
    obtain ⟨fs, hfs, rfl⟩ := Option.map_eq_some_iff.mp hread
    obtain ⟨hsame, hplain⟩ := ofFields_plain hfs fun e he v hv => ih e he hv
    refine all_dict.mpr ⟨decide_eq_true ?_, hplain⟩
    rw [hsame]
    exact hkeys

end Plain

/-! ## Policies -/

lemma value_reread (x : Number) : (reread x).value = x.value := by
  cases hfits : x.fits with
  | true => exact (reread_spec hfits).2.1
  | false =>
    cases x with
    | int n =>
      have hread : ofValue DecimalText.Decimal.ofToken (readToken (Number.int n).token) = none := by
        show ofValue DecimalText.Decimal.ofToken (readToken (JsonText.renderInt n)) = none
        rw [readToken_int, ofValue, if_neg (by rw [show fitsDigits n = false from hfits]; simp)]
      unfold reread
      rw [hread]
    | decimal d => cases hfits

lemma isString_normal (g : Number → Number) (v : Document Number) :
    (v.normal g).isString = v.isString := by
  cases v <;> rfl

lemma isCount_normal (v : Document Number) : isCount (v.normal reread) = isCount v := by
  cases v with
  | number x =>
    show decide (0 ≤ (reread x).value) = decide (0 ≤ x.value)
    rw [value_reread]
  | _ => rfl

section Fields

variable {g : Number → Number} {fields : List (Text × Document Number)}

lemma perm_keys_normal :
    ((sortKeys (normalFields g fields)).map Prod.fst).Perm (fields.map Prod.fst) := by
  refine ((perm_sortKeys _).map _).trans ?_
  rw [normalFields_eq_map, List.map_map]
  exact List.Perm.refl _

lemma all_fields_normal {p : Text × Document Number → Bool}
    (hp : ∀ k v, p (k, v.normal g) = p (k, v)) :
    (sortKeys (normalFields g fields)).all p = fields.all p := by
  rw [(perm_sortKeys _).all_eq, normalFields_eq_map, List.all_map]
  exact all_congr_mem fun f _ => hp f.1 f.2

lemma isAllowed_perm {allowedValues names names' : List Text} (h : names.Perm names') :
    isAllowed allowedValues names = isAllowed allowedValues names' := by
  unfold isAllowed
  rw [h.all_eq]

end Fields

lemma mapM_nonemptyString {items : List (Document Number)} {names : List Text} :
    items.mapM nonemptyString = some names ↔
      items = names.map Document.str ∧ ∀ s ∈ names, s ≠ [] := by
  induction items generalizing names with
  | nil =>
    constructor
    · intro h
      obtain rfl := Option.some.inj h
      exact ⟨rfl, fun s hs => absurd hs List.not_mem_nil⟩
    · rintro ⟨h, -⟩
      rw [List.map_eq_nil_iff.mp h.symm]
      rfl
  | cons v vs ih =>
    rw [List.mapM_cons, Option.bind_eq_bind, Option.bind_eq_some_iff]
    constructor
    · rintro ⟨s, hs, h⟩
      obtain ⟨ss, hss, heq⟩ := Option.bind_eq_some_iff.mp h
      obtain rfl := Option.some.inj heq
      obtain ⟨rfl, hne⟩ := ih.mp hss
      cases v with
      | str t =>
        obtain ⟨hnil, heq⟩ := Option.ite_none_left_eq_some.mp hs
        obtain rfl := Option.some.inj heq
        exact ⟨rfl, List.forall_mem_cons.mpr ⟨hnil, hne⟩⟩
      | _ => exact nomatch hs
    · rintro ⟨h, hne⟩
      cases names with
      | nil => exact nomatch h
      | cons s ss =>
        obtain ⟨rfl, rfl⟩ := List.cons.inj h
        obtain ⟨hs, hss⟩ := List.forall_mem_cons.mp hne
        exact ⟨s, if_neg hs, Option.bind_eq_some_iff.mpr ⟨ss, ih.mpr ⟨rfl, hss⟩, rfl⟩⟩

/-- Only the order of strings is changed by a policy. -/
lemma applyPolicy_result {policy : JsonPolicy} {allowedValues : List Text}
    {c r : Document Number} (h : applyPolicy policy allowedValues c = some r) :
    r = c ∨ ∃ names names' : List Text,
      names'.Perm names ∧ c = .list (names.map .str) ∧ r = .list (names'.map .str) := by
  have hsame : ∀ {p : Prop} [Decidable p], (if p then some c else none) = some r → r = c := by
    intro p _ h
    exact (Option.some.inj (Option.ite_none_right_eq_some.mp h).2).symm
  cases policy with
  | canonical => exact .inl (Option.some.inj h).symm
  | sortedStringSet =>
    cases c with
    | list items =>
      obtain ⟨names, hnames, h⟩ := Option.bind_eq_some_iff.mp h
      obtain ⟨-, heq⟩ := Option.ite_none_right_eq_some.mp h
      obtain ⟨rfl, -⟩ := mapM_nonemptyString.mp hnames
      exact .inr ⟨names, _, List.perm_insertionSort _ names, rfl, (Option.some.inj heq).symm⟩
    | _ => exact nomatch h
  | flatStringMap =>
    cases c with
    | dict fields => exact .inl (hsame h)
    | _ => exact nomatch h
  | indexedStringMap =>
    cases c with
    | dict fields => exact .inl (hsame h)
    | _ => exact nomatch h
  | denominationMap =>
    cases c with
    | null => exact .inl (Option.some.inj h).symm
    | dict fields => exact .inl (hsame h)
    | _ => exact nomatch h

/-- A policy takes what it has made of a value, with its numbers read again, as it is. -/
lemma applyPolicy_again {policy : JsonPolicy} {allowedValues : List Text}
    {c r : Document Number} (h : applyPolicy policy allowedValues c = some r) :
    applyPolicy policy allowedValues (r.normal reread) = some (r.normal reread) := by
  cases policy with
  | canonical => rfl
  | sortedStringSet =>
    cases c with
    | list items =>
      obtain ⟨names, hnames, h⟩ := Option.bind_eq_some_iff.mp h
      obtain ⟨⟨hnodup, hallowed⟩, heq⟩ := Option.ite_none_right_eq_some.mp h
      obtain ⟨-, hne⟩ := mapM_nonemptyString.mp hnames
      have hperm := List.perm_insertionSort (· ≤ ·) names
      have hsorted : (names.insertionSort (· ≤ ·)).insertionSort (· ≤ ·) =
          names.insertionSort (· ≤ ·) :=
        (List.pairwise_insertionSort _ names).insertionSort_eq
      have hagain : ((names.insertionSort (· ≤ ·)).map Document.str).mapM nonemptyString =
          some (names.insertionSort (· ≤ ·)) :=
        mapM_nonemptyString.mpr ⟨rfl, fun s hs => hne s (hperm.mem_iff.mp hs)⟩
      have hnormal : (Document.list ((names.insertionSort (· ≤ ·)).map .str)).normal reread =
          .list ((names.insertionSort (· ≤ ·)).map .str) := by
        rw [Document.normal, normalItems_eq_map, List.map_map]
        rfl
      rw [← Option.some.inj heq, hnormal]
      refine Option.bind_eq_some_iff.mpr ⟨_, hagain, ?_⟩
      rw [if_pos ⟨hperm.nodup_iff.mpr hnodup, (isAllowed_perm hperm).trans hallowed⟩, hsorted]
      rfl
    | _ => cases h
  | flatStringMap | indexedStringMap =>
    cases c with
    | dict fields =>
      obtain ⟨hcond, heq⟩ := Option.ite_none_right_eq_some.mp h
      rw [← Option.some.inj heq, Document.normal]
      refine Option.ite_none_right_eq_some.mpr ⟨?_, rfl⟩
      rw [all_fields_normal fun k v => by rw [isString_normal], isAllowed_perm perm_keys_normal]
      exact hcond
    | _ => cases h
  | denominationMap =>
    cases c with
    | null =>
      rw [← Option.some.inj h]
      rfl
    | dict fields =>
      obtain ⟨⟨hcond, hnodup⟩, heq⟩ := Option.ite_none_right_eq_some.mp h
      have hsame : ((sortKeys (normalFields reread fields)).map Prod.fst).Perm
          (fields.map Prod.fst) := perm_keys_normal
      have hkeys : ((sortKeys (normalFields reread fields)).map fun f =>
          Rounding.significant 28 (denomination f.1)).Perm
          (fields.map fun f => Rounding.significant 28 (denomination f.1)) := by
        have hmap := hsame.map fun key => Rounding.significant 28 (denomination key)
        rwa [List.map_map, List.map_map] at hmap
      rw [← Option.some.inj heq, Document.normal]
      refine Option.ite_none_right_eq_some.mpr ⟨⟨?_, hkeys.nodup_iff.mpr hnodup⟩, rfl⟩
      rw [all_fields_normal fun k v => by rw [isCount_normal]]
      exact hcond
    | _ => cases h

/-! ## Values and their texts -/

section Again

variable {normalize : Text → Text} {maximumDepth : ℕ} {policy : JsonPolicy}
  {allowedValues : List Text}

/-- What is visited is a document that was read, or the value itself. -/
lemma canonicalJson_parts {v r : Document Number} (hplain : v.all Document.isPlain = true)
    (h : canonicalJson normalize maximumDepth policy allowedValues v = some r) :
    ∃ parsed : Document Number, parsed.all Document.isPlain = true ∧ ∃ c budget,
      canonicalJsonValue (isDatabaseIdJsonKey normalize) maximumDepth 0 parsed {} =
        some (c, budget) ∧ applyPolicy policy allowedValues c = some r := by
  have hvalue : ∀ {parsed : Document Number},
      ((canonicalJsonValue (isDatabaseIdJsonKey normalize) maximumDepth 0 parsed {}).bind
        fun canonical => applyPolicy policy allowedValues canonical.1) = some r → ∃ c budget,
      canonicalJsonValue (isDatabaseIdJsonKey normalize) maximumDepth 0 parsed {} =
        some (c, budget) ∧ applyPolicy policy allowedValues c = some r := by
    intro parsed h
    obtain ⟨⟨c, budget⟩, hvisit, hpolicy⟩ := Option.bind_eq_some_iff.mp h
    exact ⟨c, budget, hvisit, hpolicy⟩
  cases v with
  | str s =>
    obtain ⟨-, hread⟩ := Option.ite_none_left_eq_some.mp h
    obtain ⟨parsed, hparsed, h⟩ := Option.bind_eq_some_iff.mp hread
    obtain ⟨j, -, hj⟩ := Option.bind_eq_some_iff.mp hparsed
    exact ⟨parsed, isPlain_ofValue hj, hvalue h⟩
  | _ => exact ⟨_, hplain, hvalue h⟩

/-- What an accepted value is made of: an admitted document without repeated keys, which the policy
takes again. -/
lemma accepted {v r : Document Number} (hplain : v.all Document.isPlain = true)
    (h : canonicalJson normalize maximumDepth policy allowedValues v = some r) :
    r.Admitted (isDatabaseIdJsonKey normalize) maximumDepth ∧ r.all Document.isPlain = true ∧
      applyPolicy policy allowedValues (r.normal reread) = some (r.normal reread) := by
  obtain ⟨parsed, hparsedPlain, c, budget, hvisit, hpolicy⟩ := canonicalJson_parts hplain h
  obtain ⟨hadmitted, rfl⟩ := admitted_of_visit hvisit
  have hc := admitted_normal hadmitted (id : Number → Number)
  have hcPlain := (all_normal (g := (id : Number → Number)) isPlain_normal parsed).trans
    hparsedPlain
  refine ⟨?_, ?_, applyPolicy_again hpolicy⟩
  · rcases applyPolicy_result hpolicy with rfl | ⟨names, names', hperm, heq, rfl⟩
    · exact hc
    · rw [heq] at hc
      exact admitted_perm (hperm.map _) hc
  · rcases applyPolicy_result hpolicy with rfl | ⟨names, names', -, -, rfl⟩
    · exact hcPlain
    · refine all_list.mpr ⟨rfl, fun w hw => ?_⟩
      obtain ⟨s, -, rfl⟩ := List.mem_map.mp hw
      rfl

/-- A text that is too long is not taken. -/
lemma canonicalJson_long {t : Text} (h : 65536 < (encodeUtf8 t).length) :
    canonicalJson normalize maximumDepth policy allowedValues (.str t) = none := by
  unfold canonicalJson
  simp only [if_pos h]
  rfl

/-- The canonical text of an admitted document is taken where it is not too long. -/
lemma canonicalJson_written {r : Document Number}
    (hadmitted : r.Admitted (isDatabaseIdJsonKey normalize) maximumDepth)
    (hplain : r.all Document.isPlain = true) (hwritable : r.all Document.isWritable = true)
    (hpolicy : applyPolicy policy allowedValues (r.normal reread) = some (r.normal reread))
    {space : Text} (hspace : ∀ c ∈ space, JsonText.isSpace c = true)
    (hlength : (encodeUtf8 (render (written r) ++ space)).length ≤ 65536) :
    canonicalJson normalize maximumDepth policy allowedValues
      (.str (render (written r) ++ space)) = some (r.normal reread) := by
  have hread : ofValue DecimalText.Decimal.ofToken (written r) = some (r.normal reread) :=
    ofValue_tree hwritable hplain fun x hx => (reread_spec (fits_of_mem hwritable hx)).1
  obtain ⟨budget, hvisit⟩ := visit_of_admitted (admitted_normal hadmitted reread)
  rw [normal_normal, Function.id_comp] at hvisit
  unfold canonicalJson
  simp only [if_neg (not_lt.mpr hlength), Option.bind_eq_bind, Option.bind_some, hread, hvisit,
    JsonText.loads_render_append (isReadable_written r) hspace]
  exact hpolicy

end Again

/-- What an accepted value is made into is encoded unless an integer in it has too many digits; and
its text is accepted again exactly when it is not too long, and then has the same bytes. -/
theorem canonical_fixed_point (normalize : Text → Text) (maximumDepth : ℕ) (policy : JsonPolicy)
    (allowedValues : List Text) (v r : Document Number) (trailingLf : Bool)
    (hplain : v.all Document.isPlain = true)
    (h : canonicalJson normalize maximumDepth policy allowedValues v = some r) :
    ((encodeCanonicalDocument r trailingLf).isSome ↔
      ∀ n, Number.int n ∈ r.numbers → fitsDigits n = true) ∧
    ∀ bytes, encodeCanonicalDocument r trailingLf = some bytes →
      ∃ t, decodeUtf8 bytes = some t ∧
        (bytes.length ≤ 65536 → ∃ r',
          canonicalJson normalize maximumDepth policy allowedValues (.str t) = some r' ∧
            encodeCanonicalDocument r' trailingLf = some bytes) ∧
        (65536 < bytes.length →
          canonicalJson normalize maximumDepth policy allowedValues (.str t) = none) := by
  obtain ⟨hadmitted, hrPlain, hpolicy⟩ := accepted hplain h
  refine ⟨?_, fun bytes hbytes => ?_⟩
  · unfold encodeCanonicalDocument
    rw [isSome_encodeWith flatten_fragments]
    constructor
    · exact fun hwritable n hn => fits_of_mem hwritable hn
    · refine fun hints => isWritable_of_every hadmitted.every fun x hx => ?_
      cases x with
      | int n => exact hints n hx
      | decimal d => rfl
  · have hwritable : r.all Document.isWritable = true := by
      rw [← isSome_encodeWith flatten_fragments r trailingLf]
      exact Option.isSome_of_mem hbytes
    unfold encodeCanonicalDocument at hbytes ⊢
    rw [encodeWith_eq flatten_fragments hwritable] at hbytes
    obtain rfl := Option.some.inj hbytes
    have hspace : ∀ c ∈ (if trailingLf then ['\n'] else []), JsonText.isSpace c = true := by
      cases trailingLf <;> simp [JsonText.isSpace]
    refine ⟨_, JsonText.decodeUtf8_encodeUtf8 _, fun hlength => ?_, canonicalJson_long⟩
    obtain ⟨hagain, hsame⟩ := written_normal hwritable
    refine ⟨r.normal reread, ?_, ?_⟩
    · exact canonicalJson_written hadmitted hrPlain hwritable hpolicy hspace hlength
    · rw [encodeWith_eq flatten_fragments hagain, hsame]

/-- `{"a": 10.50}`. -/
def priced : Document Number :=
  .dict [(['a'], .number (.decimal ⟨false, 1050, -2, by decide, by decide⟩))]

theorem canonical_fixed_point_priced : ∃ r bytes,
    canonicalJson id 8 .canonical [] priced = some r ∧
      encodeCanonicalDocument r false = some bytes ∧
        ∃ t, decodeUtf8 bytes = some t ∧ (bytes.length ≤ 65536 → ∃ r',
          canonicalJson id 8 .canonical [] (.str t) = some r' ∧
            encodeCanonicalDocument r' false = some bytes) := by
  have haccepted : canonicalJson id 8 .canonical [] priced = some (priced.normal id) := rfl
  have hfixed := canonical_fixed_point id 8 .canonical [] priced (priced.normal id) false
    (by decide) haccepted
  have hencode := encodeWith_eq flatten_fragments (v := priced.normal id) rfl false
  obtain ⟨t, ht, hagain, -⟩ := hfixed.2 _ hencode
  exact ⟨_, _, haccepted, hencode, t, ht, hagain⟩

/-! ## A value whose text is too long -/

lemma length_encodeUtf8_le (s : Text) : s.length ≤ (encodeUtf8 s).length := by
  induction s with
  | nil => exact Nat.zero_le _
  | cons c cs ih =>
    rw [encodeUtf8_cons, List.length_append, List.length_cons]
    have hchar : (encodeUtf8 [c]).length ≠ 0 := fun h => by
      have hdecode := JsonText.decodeUtf8_encodeUtf8 [c]
      rw [List.length_eq_zero_iff.mp h] at hdecode
      exact nomatch (JsonText.decodeUtf8_encodeUtf8 []).symm.trans hdecode
    omega

lemma length_encodeUtf8_replicate {c : Char} (h : c.toNat < 128) (n : ℕ) :
    (encodeUtf8 (List.replicate n c)).length = n := by
  induction n with
  | zero => rfl
  | succ n ih =>
    rw [List.replicate_succ, encodeUtf8_cons, List.length_append, ih, JsonText.encodeUtf8_ascii h,
      List.length_singleton, Nat.add_comm]

/-- The same string four times. -/
def fourTimes (s : Text) : Document Number := .list [.str s, .str s, .str s, .str s]

/-- Four strings can take all the bytes of a budget. -/
lemma canonicalJson_fourTimes {s : Text} (hs : (encodeUtf8 s).length = 16384) :
    canonicalJson id 8 .canonical [] (fourTimes s) = some (fourTimes s) := by
  have hadmitted : (fourTimes s).Admitted (isDatabaseIdJsonKey id) 8 := by
    refine ⟨?_, ?_, ?_⟩
    · simp [fourTimes, Document.every, everyItem, allowedAt, hs]
    · simp [fourTimes, Document.total, totalItems, nodesAt]
    · simp [fourTimes, Document.total, totalItems, bytesAt, hs]
  obtain ⟨budget, hvisit⟩ := visit_of_admitted hadmitted
  show (canonicalJsonValue (isDatabaseIdJsonKey id) 8 0 (fourTimes s) {}).bind _ = _
  rw [hvisit]
  rfl

lemma length_fourTimes {s : Text} (hs : ∀ c ∈ s, JsonText.escape c = [c]) :
    (render (written (fourTimes s))).length = 4 * s.length + 13 := by
  have hone := JsonText.length_renderString hs
  rw [fourTimes, written_list, JsonText.length_render_arr]
  show max 2 (1 + ((JsonText.renderString s).length + 1 + ((JsonText.renderString s).length + 1 +
    ((JsonText.renderString s).length + 1 + ((JsonText.renderString s).length + 1 + 0))))) = _
  omega

/-- Four strings of 16,384 letters each are taken and written, and the text is refused. -/
theorem canonical_fixed_point_long : ∃ v r bytes t,
    canonicalJson id 8 .canonical [] v = some r ∧ encodeCanonicalDocument r false = some bytes ∧
      decodeUtf8 bytes = some t ∧ canonicalJson id 8 .canonical [] (.str t) = none := by
  have hbytes := length_encodeUtf8_replicate (c := 'a') (by decide) 16384
  have hplain : ∀ c ∈ List.replicate 16384 'a', JsonText.escape c = [c] := by
    intro c hc
    rw [List.eq_of_mem_replicate hc]
    decide
  refine ⟨_, _, _, _, canonicalJson_fourTimes hbytes, encodeWith_eq flatten_fragments rfl false,
    JsonText.decodeUtf8_encodeUtf8 _, canonicalJson_long ?_⟩
  refine lt_of_lt_of_le ?_ (length_encodeUtf8_le _)
  rw [List.length_append, length_fourTimes hplain, List.length_replicate]
  norm_num

end NexaPos.Backups.CanonicalJson
