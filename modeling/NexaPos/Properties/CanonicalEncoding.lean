import NexaPos.Backups.CanonicalTrees

/-!
# Canonical bytes are read back

The strict reader makes of the canonical bytes of a document the document with its keys in order
and its numbers read again, and takes them unless a number is written with a fraction or an
exponent.  Bytes are the same exactly for documents that are equal up to the order of keys and the
spelling of numbers, where an integer of more than 21 digits, which is always written out, is not
spelled like an equal decimal.  The way in which strings are split leaves no trace.
-/

namespace NexaPos.Backups.CanonicalJson

open JsonText (render encodeUtf8 decodeUtf8)

variable {ν μ : Type}

/-- The documents are equal up to the order of keys, with numbers compared by what a function
makes of them. -/
def Document.Same (g : ν → μ) (v w : Document ν) : Prop := v.normal g = w.normal g

/-! ## The ends of the bytes -/

lemma toUInt8_inj {c : Char} (h : c.toNat < 128) {n : ℕ} (hn : n < 256)
    (heq : c.toNat.toUInt8 = n.toUInt8) : c.toNat = n := by
  have hnat := congrArg UInt8.toNat heq
  simp only [Nat.toUInt8, UInt8.toNat_ofNat'] at hnat
  omega

/-- The bytes do not begin with a byte order mark. -/
lemma startsWith_encode {v : JsonText.Value} (h : v.all JsonText.Value.isReadable = true)
    (rest : Text) : startsWith (encodeUtf8 (render v ++ rest)) [0xef, 0xbb, 0xbf] = false := by
  obtain ⟨⟨c, cs, hrender, hascii, -⟩, -⟩ := JsonText.ends_render h
  have hbytes : encodeUtf8 (render v ++ rest) = c.toNat.toUInt8 :: encodeUtf8 (cs ++ rest) := by
    rw [hrender, List.cons_append, encodeUtf8_cons, JsonText.encodeUtf8_ascii hascii]
    rfl
  have hne : ((0xef : UInt8) == c.toNat.toUInt8) = false := by
    refine beq_eq_false_iff_ne.mpr fun heq => ?_
    have := toUInt8_inj hascii (n := 0xef) (by norm_num) heq.symm
    omega
  unfold startsWith
  rw [hbytes, List.isPrefixOf, hne, Bool.false_and]

/-- The bytes end with one line feed when one is asked for. -/
lemma endsWith_encode {v : JsonText.Value} (h : v.all JsonText.Value.isReadable = true) :
    endsWith (encodeUtf8 (render v ++ ['\n'])) [10] = true ∧
      endsWith (encodeUtf8 (render v ++ ['\n'])) [13, 10] = false := by
  obtain ⟨-, cs, c, hrender, hascii, hreturn⟩ := JsonText.ends_render h
  have hbytes : encodeUtf8 (render v ++ ['\n']) = encodeUtf8 cs ++ [c.toNat.toUInt8] ++ [10] := by
    rw [JsonText.encodeUtf8_append, hrender, JsonText.encodeUtf8_append,
      JsonText.encodeUtf8_ascii hascii]
    rfl
  unfold endsWith
  rw [hbytes]
  constructor
  · rw [List.isSuffixOf_iff_suffix]
    exact List.suffix_append _ _
  · refine Bool.eq_false_iff.mpr fun hsuffix => ?_
    rw [List.isSuffixOf_iff_suffix] at hsuffix
    obtain ⟨start, hstart⟩ := hsuffix
    have hsplit : start ++ [13] ++ [10] = encodeUtf8 cs ++ [c.toNat.toUInt8] ++ [10] := by
      rw [← hstart, List.append_assoc]
      rfl
    have hlast := (List.append_inj' (List.append_cancel_right hsplit) rfl).2
    have hcode := toUInt8_inj hascii (n := 13) (by norm_num) (List.cons.inj hlast).1.symm
    exact hreturn (Char.toNat_inj.mp hcode)

/-! ## Reading the bytes -/

/-- What the strict reader does with canonical bytes. -/
lemma strictJson_encode (v : Document Number) (trailingLf : Bool) :
    strictJson (encodeUtf8 (render (written v) ++ if trailingLf then ['\n'] else [])) trailingLf =
      (ofValue rejectJsonNumber (written v)).bind fun document =>
        if encodeCanonicalDocument document trailingLf =
            some (encodeUtf8 (render (written v) ++ if trailingLf then ['\n'] else [])) then
          some document
        else none := by
  have hreadable := isReadable_written v
  have hspace : ∀ c ∈ (if trailingLf then ['\n'] else []), JsonText.isSpace c = true := by
    cases trailingLf
    · exact fun c hc => absurd hc List.not_mem_nil
    · intro c hc
      rw [List.mem_singleton.mp hc]
      decide
  have hend : (trailingLf && (!endsWith
      (encodeUtf8 (render (written v) ++ if trailingLf then ['\n'] else [])) [10] ||
      endsWith (encodeUtf8 (render (written v) ++ if trailingLf then ['\n'] else []))
        [13, 10])) = false := by
    cases trailingLf with
    | false => rfl
    | true =>
      obtain ⟨hfeed, hreturn⟩ := endsWith_encode hreadable
      simp only [if_true, hfeed, hreturn]
      rfl
  unfold strictJson
  rw [startsWith_encode hreadable, if_neg Bool.false_ne_true, hend, if_neg Bool.false_ne_true,
    JsonText.decodeUtf8_encodeUtf8]
  simp only [Option.bind_eq_bind, Option.bind_some,
    JsonText.loads_render_append hreadable hspace]
  rfl

lemma strictJson_of_whole {v : Document Number} (h : v.all Document.isWritable = true)
    (hplain : v.all Document.isPlain = true) (hwhole : ∀ x ∈ v.numbers, x.IsWhole)
    (trailingLf : Bool) :
    strictJson (encodeUtf8 (render (written v) ++ if trailingLf then ['\n'] else [])) trailingLf =
      some (v.normal reread) := by
  obtain ⟨hwritable, hwritten⟩ := written_normal h
  have hread := ofValue_tree h hplain fun x hx =>
    (ofValue_reject (fits_of_mem h hx)).1 (hwhole x hx)
  have hencode : encodeCanonicalDocument (v.normal reread) trailingLf =
      some (encodeUtf8 (render (written v) ++ if trailingLf then ['\n'] else [])) := by
    unfold encodeCanonicalDocument
    rw [encodeWith_eq flatten_fragments hwritable, hwritten]
  rw [strictJson_encode, hread, Option.bind_some, if_pos hencode]

lemma strictJson_of_not_whole {v : Document Number} (h : v.all Document.isWritable = true)
    {x : Number} (hx : x ∈ v.numbers) (hnot : ¬ x.IsWhole) (trailingLf : Bool) :
    strictJson (encodeUtf8 (render (written v) ++ if trailingLf then ['\n'] else [])) trailingLf =
      none := by
  rw [strictJson_encode, ofValue_tree_none hx ((ofValue_reject (fits_of_mem h hx)).2 hnot)]
  rfl

lemma writable_of_encode {v : Document Number} {trailingLf : Bool} {bytes : List UInt8}
    (h : encodeCanonicalDocument v trailingLf = some bytes) :
    v.all Document.isWritable = true ∧
      bytes = encodeUtf8 (render (written v) ++ if trailingLf then ['\n'] else []) := by
  have hwritable : v.all Document.isWritable = true := by
    rw [← isSome_encodeWith flatten_fragments v trailingLf]
    unfold encodeCanonicalDocument at h
    rw [h]
    rfl
  unfold encodeCanonicalDocument at h
  rw [encodeWith_eq flatten_fragments hwritable] at h
  exact ⟨hwritable, (Option.some.inj h).symm⟩

/-- Two documents have the same bytes exactly when their values are the same. -/
lemma bytes_eq_iff {v w : Document Number} (hv : v.all Document.isWritable = true)
    (hw : w.all Document.isWritable = true) (suffix : Text) :
    encodeUtf8 (render (written v) ++ suffix) = encodeUtf8 (render (written w) ++ suffix) ↔
      v.Same Number.mark w := by
  unfold Document.Same
  rw [← written_eq_iff hv hw]
  constructor
  · intro h
    have hrender := List.append_cancel_right (JsonText.encodeUtf8_injective h)
    have hloads := JsonText.loads_render_of_readable (isReadable_written v)
    rw [hrender, JsonText.loads_render_of_readable (isReadable_written w)] at hloads
    exact (Option.some.inj hloads).symm
  · intro h
    rw [h]

/-- The canonical bytes of a document: the strict reader makes an equal document of them when all
its numbers are written as whole ones, and refuses them otherwise; other documents have the same
bytes exactly when they are equal up to the order of keys and the spelling of numbers, long
integers apart; and strings may be split anywhere. -/
theorem canonical_encoding (v : Document Number) (hplain : v.all Document.isPlain = true)
    (trailingLf : Bool) (bytes : List UInt8)
    (h : encodeCanonicalDocument v trailingLf = some bytes) :
    ((∀ x ∈ v.numbers, x.IsWhole) →
      ∃ w, strictJson bytes trailingLf = some w ∧ w.Same Number.value v) ∧
    ((∃ x ∈ v.numbers, ¬ x.IsWhole) → strictJson bytes trailingLf = none) ∧
    (∀ w bytes', encodeCanonicalDocument w trailingLf = some bytes' →
      (bytes = bytes' ↔ v.Same Number.mark w)) ∧
    ∀ split : Text → List Text, (∀ s, (split s).flatten = s) →
      encodeWith split v trailingLf = some bytes := by
  obtain ⟨hwritable, rfl⟩ := writable_of_encode h
  refine ⟨fun hwhole => ?_, ?_, fun w bytes' hw => ?_, fun split hsplit => ?_⟩
  · exact ⟨_, strictJson_of_whole hwritable hplain hwhole trailingLf, value_normal hwritable⟩
  · rintro ⟨x, hx, hnot⟩
    exact strictJson_of_not_whole hwritable hx hnot trailingLf
  · obtain ⟨hwritable', rfl⟩ := writable_of_encode hw
    exact bytes_eq_iff hwritable hwritable' _
  · exact encodeWith_eq hsplit hwritable trailingLf

/-- `{"b": 1.0, "a": [true, "x"]}`. -/
def sample : Document Number :=
  .dict [(['b'], .number (.decimal ⟨false, 10, -1, by decide, by decide⟩)),
    (['a'], .list [.bool true, .str ['x']])]

theorem canonical_encoding_sample : ∃ bytes, encodeCanonicalDocument sample true = some bytes ∧
    ∃ w, strictJson bytes true = some w ∧ w.Same Number.value sample := by
  have hencode := encodeWith_eq flatten_fragments (v := sample) (by decide) true
  refine ⟨_, hencode, (canonical_encoding sample (by decide) true _ hencode).1 ?_⟩
  intro x hx
  have hone : x = .decimal ⟨false, 10, -1, by decide, by decide⟩ := by
    simpa [sample, Document.numbers, numbersOfFields, numbersOfItems] using hx
  refine .inr ⟨1, ?_, by norm_num⟩
  rw [hone]
  norm_num [Number.value, DecimalText.Decimal.value, DecimalText.valueOf]

/-- `Decimal("0.5")`. -/
def half : Number := .decimal ⟨false, 5, -1, by decide, by decide⟩

/-- `Decimal("1E+21")`. -/
def sextillion : Number := .decimal ⟨false, 1, 21, by decide, by decide⟩

/-- The strict reader refuses a half; and the integer and the decimal of one value have different
bytes. -/
theorem canonical_encoding_half :
    (∃ bytes, encodeCanonicalDocument (.number half) false = some bytes ∧
      strictJson bytes false = none) ∧
    ∃ bytes bytes', encodeCanonicalDocument (.number (.int (10 ^ 21))) false = some bytes ∧
      encodeCanonicalDocument (.number sextillion) false = some bytes' ∧
      (Document.number (.int (10 ^ 21))).Same Number.value (.number sextillion) ∧
      bytes ≠ bytes' := by
  have hhalf : ¬ half.IsWhole := by
    rintro (⟨n, hn⟩ | ⟨n, hn, -⟩)
    · exact nomatch hn
    · have hvalue : half.value = 1 / 2 := by
        norm_num [half, Number.value, DecimalText.Decimal.value, DecimalText.valueOf]
      rw [hvalue] at hn
      have htwo : (2 * n : ℤ) = 1 := by
        have : (2 * n : ℚ) = 1 := by
          rw [← hn]
          norm_num
        exact_mod_cast this
      omega
  have hint : (Document.number (.int (10 ^ 21))).all Document.isWritable = true := by
    show fitsDigits (10 ^ 21) = true
    decide +kernel
  have hsextillion : (Document.number sextillion).all Document.isWritable = true := rfl
  refine ⟨⟨_, encodeWith_eq flatten_fragments (v := .number half) rfl false,
    strictJson_of_not_whole rfl List.mem_cons_self hhalf false⟩, _, _,
    encodeWith_eq flatten_fragments hint false, encodeWith_eq flatten_fragments hsextillion false,
    ?_, fun heq => ?_⟩
  · have hvalue : sextillion.value = ((10 ^ 21 : ℤ) : ℚ) := by
      norm_num [sextillion, Number.value, DecimalText.Decimal.value, DecimalText.valueOf]
    show Document.number (((10 ^ 21 : ℤ) : ℚ)) = .number sextillion.value
    rw [hvalue]
  · have hsame := (bytes_eq_iff hint hsextillion _).mp heq
    have hmark : Number.mark (.int (10 ^ 21)) = sextillion.mark := Document.number.inj hsame
    exact absurd (congrArg Prod.snd hmark) (by decide +kernel)

end NexaPos.Backups.CanonicalJson
