import NexaPos.Backups.CanonicalDecimal

/-!
# Canonical decimals are exact

Under a precision that leaves room for every digit, `quantize` keeps a value that is a whole number
of units in the last place, and any other value is changed and refused.  The text has the digits of
that whole number, so that it denotes the value and is the same for equal values.

The precision that is asked for counts the exponent of a zero as digits: a zero with an exponent
near the largest one is refused.
-/

namespace NexaPos.Backups.CanonicalJson

open JsonText (Text)
open DecimalText (valueOf signText)

/-! ## Parts -/

lemma ofParts_eq_some {negative : Bool} {coefficient : ℕ} {exponent : ℤ} {d : PyDecimal} :
    ofParts negative coefficient exponent = some d ↔
      d.negative = negative ∧ d.coefficient = coefficient ∧ d.exponent = exponent := by
  unfold ofParts
  constructor
  · intro h
    split at h
    · obtain rfl := Option.some.inj h
      exact ⟨rfl, rfl, rfl⟩
    · exact nomatch h
  · rintro ⟨rfl, rfl, rfl⟩
    rw [dif_pos ⟨d.low_le, d.le_high⟩]

lemma digitCount_le {m k : ℕ} (h : m < 10 ^ k) (hk : 0 < k) : digitCount m ≤ k :=
  (Nat.length_toDigits_le_iff (by norm_num) hk).mpr h

lemma digitCount_pos (m : ℕ) : 0 < digitCount m := Nat.length_toDigits_pos

lemma digitCount_mul_pow {m : ℕ} (h : 0 < m) (k : ℕ) :
    digitCount (m * 10 ^ k) = digitCount m + k := by
  unfold digitCount
  rw [DecimalText.toDigits_mul_pow h, List.length_append, List.length_replicate]

/-! ## Other exponents -/

/-- The coefficients of one magnitude with two exponents. -/
lemma coefficient_cases {c m : ℕ} {e x : ℤ} (h : (c : ℚ) * 10 ^ e = m * 10 ^ x) :
    (x ≤ e ∧ m = c * 10 ^ (e - x).toNat) ∨ (e < x ∧ c = m * 10 ^ (x - e).toNat) := by
  have hshift : ∀ {a b : ℕ} {k l : ℤ}, k ≤ l → (a : ℚ) * 10 ^ l = b * 10 ^ k →
      b = a * 10 ^ (l - k).toNat := by
    intro a b k l hle h
    obtain ⟨n, rfl⟩ := Int.le.dest hle
    have hten : (10 : ℚ) ^ k ≠ 0 := zpow_ne_zero _ (by norm_num)
    rw [zpow_add₀ (by norm_num), zpow_natCast, mul_comm ((10 : ℚ) ^ k), ← mul_assoc] at h
    have hcast : ((a * 10 ^ n : ℕ) : ℚ) = b := by
      push_cast
      exact mul_right_cancel₀ hten h
    have hsub : (k + (n : ℤ) - k).toNat = n := by omega
    rw [hsub]
    exact_mod_cast hcast.symm
  rcases le_or_gt x e with hle | hlt
  · exact .inl ⟨hle, hshift hle h⟩
  · exact .inr ⟨hlt, hshift hlt.le h.symm⟩

lemma rescale_eq {d : PyDecimal} {m : ℕ} {x : ℤ}
    (h : (d.coefficient : ℚ) * 10 ^ d.exponent = m * 10 ^ x) : rescale d x = m := by
  unfold rescale
  rcases coefficient_cases h with ⟨hle, hm⟩ | ⟨hlt, hc⟩
  · rw [if_pos hle, hm]
  · rw [if_neg (not_le.mpr hlt), hc]
    have hten : (10 : ℚ) ^ (x - d.exponent).toNat ≠ 0 := pow_ne_zero _ (by norm_num)
    have hquotient : ((m * 10 ^ (x - d.exponent).toNat : ℕ) : ℚ) / 10 ^ (x - d.exponent).toNat =
        ((m : ℤ) : ℚ) := by
      push_cast
      exact mul_div_cancel_right₀ _ hten
    unfold shiftRight
    rw [hquotient, Rounding.roundHalfEven_intCast, Int.toNat_natCast]

lemma rescale_self {d : PyDecimal} {x : ℤ} (h : d.exponent = x) : rescale d x = d.coefficient :=
  rescale_eq (by rw [h])

/-- No more digits are needed than the precision that is asked for. -/
lemma digitCount_le_required {d : PyDecimal} {m p : ℕ} (hm : 0 < m)
    (h : (d.coefficient : ℚ) * 10 ^ d.exponent = m * 10 ^ (-(p : ℤ))) :
    digitCount m ≤ requiredPrecision d p ∧
      digitCount d.coefficient + (d.exponent - -(p : ℤ)) ≤ requiredPrecision d p := by
  unfold requiredPrecision
  rcases coefficient_cases h with ⟨hle, hcoefficient⟩ | ⟨hlt, hcoefficient⟩
  · have hpos : 0 < d.coefficient := by
      refine Nat.pos_of_ne_zero fun hzero => ?_
      rw [hzero, Nat.zero_mul] at hcoefficient
      omega
    rw [hcoefficient, digitCount_mul_pow hpos]
    omega
  · rw [hcoefficient, digitCount_mul_pow hm]
    omega

/-- A number of units in the last place is kept. -/
lemma quantize_of_units {d : PyDecimal} {m p prec : ℕ} (hm : 0 < m) (hlarge : m < 10 ^ 64)
    (hp : p ≤ 63) (hprec : requiredPrecision d p ≤ prec)
    (h : (d.coefficient : ℚ) * 10 ^ d.exponent = m * 10 ^ (-(p : ℤ))) :
    ∃ q, quantize prec d (-p) = some q ∧ q.negative = d.negative ∧ q.coefficient = m ∧
      q.exponent = -p := by
  obtain ⟨hdigits, hshift⟩ := digitCount_le_required hm h
  have hcount := digitCount_le hlarge (by norm_num)
  have hcountPos := digitCount_pos m
  have hne : d.coefficient ≠ 0 := by
    intro hzero
    rcases coefficient_cases h with ⟨-, hm'⟩ | ⟨-, hc⟩
    · rw [hm', hzero, Nat.zero_mul] at hm
      exact absurd hm (lt_irrefl 0)
    · rw [hzero] at hc
      exact absurd hc.symm (Nat.mul_pos hm (Nat.pow_pos (by norm_num))).ne'
  let q : PyDecimal := ⟨d.negative, m, -p, by omega, by unfold digitCount at hcount; omega⟩
  have hparts : ofParts d.negative m (-p) = some q := ofParts_eq_some.mpr ⟨rfl, rfl, rfl⟩
  refine ⟨q, ?_, rfl, rfl, rfl⟩
  rw [← hparts]
  unfold quantize
  simp only [rescale_eq h]
  rw [if_neg, if_neg hne, if_neg, if_neg, if_neg]
  · unfold maxExponent tinyExponent maxExponent
    omega
  · omega
  · omega
  · unfold maxExponent tinyExponent maxExponent
    omega

lemma exponent_of_quantize {prec : ℕ} {d q : PyDecimal} {x : ℤ} (h : quantize prec d x = some q) :
    q.exponent = x := by
  unfold quantize at h
  obtain ⟨-, h⟩ := Option.ite_none_left_eq_some.mp h
  split at h
  · exact (ofParts_eq_some.mp h).2.2
  · obtain ⟨-, h⟩ := Option.ite_none_left_eq_some.mp h
    obtain ⟨-, h⟩ := Option.ite_none_left_eq_some.mp h
    obtain ⟨-, h⟩ := Option.ite_none_left_eq_some.mp h
    exact (ofParts_eq_some.mp h).2.2

/-! ## The text of a number of units -/

/-- The digits before and behind the point. -/
lemma fixedText_eq (negative : Bool) (m p : ℕ) :
    ∃ whole fraction, fixedText negative m p =
        signText negative ++ (whole ++ if p = 0 then [] else '.' :: fraction) ∧
      whole ≠ [] ∧ fraction.length = p ∧ (∀ c ∈ whole ++ fraction, c.isDigit = true) ∧
      (whole ++ fraction).length = max (p + 1) (digitCount m) ∧
      Nat.ofDigitChars 10 (whole ++ fraction) 0 = m := by
  have hpos := digitCount_pos m
  unfold digitCount at hpos ⊢
  set digits := Nat.toDigits 10 m with hdigits
  set padded := List.replicate (p + 1 - digits.length) '0' ++ digits with hpadded
  have hlength : padded.length = max (p + 1) digits.length := by
    rw [hpadded, List.length_append, List.length_replicate]
    omega
  refine ⟨padded.take (padded.length - p), padded.drop (padded.length - p), rfl, ?_, ?_, ?_, ?_,
    ?_⟩
  · rw [Ne, List.take_eq_nil_iff, not_or]
    refine ⟨by omega, fun hnil => ?_⟩
    rw [hnil, List.length_nil] at hlength
    omega
  · rw [List.length_drop]
    omega
  · intro c hc
    rw [List.take_append_drop, hpadded] at hc
    rcases List.mem_append.mp hc with hc | hc
    · rw [(List.mem_replicate.mp hc).2]
      decide
    · exact JsonText.isDigit_toDigits m c hc
  · rw [List.take_append_drop, hlength]
  · rw [List.take_append_drop, hpadded, Nat.ofDigitChars_append,
      Nat.ofDigitChars_replicate_zero, Nat.mul_zero, hdigits, Nat.ofDigitChars_ten_toDigits]

/-- What is measured is the digits. -/
lemma length_measured (negative : Bool) (m p : ℕ) :
    (((fixedText negative m p).dropWhile (· = '-')).filter (· ≠ '.')).length =
      max (p + 1) (digitCount m) := by
  obtain ⟨whole, fraction, heq, hne, hfraction, hdigits, hlength, -⟩ := fixedText_eq negative m p
  obtain ⟨c, cs, rfl⟩ := List.exists_cons_of_ne_nil hne
  have hplain : ∀ a ∈ c :: cs ++ fraction, a ≠ '-' ∧ a ≠ '.' := by
    intro a ha
    have hdigit := hdigits a ha
    refine ⟨?_, ?_⟩
    · rintro rfl
      exact absurd hdigit (by decide)
    · rintro rfl
      exact absurd hdigit (by decide)
  have hrest : (fixedText negative m p).dropWhile (· = '-') =
      c :: cs ++ if p = 0 then [] else '.' :: fraction := by
    have hc := (hplain c List.mem_cons_self).1
    rw [heq]
    cases negative <;> simp [signText, hc]
  have hkept : ∀ t : Text, (∀ a ∈ t, a ≠ '-' ∧ a ≠ '.') → t.filter (· ≠ '.') = t := by
    intro t ht
    exact List.filter_eq_self.mpr fun a ha => decide_eq_true (ht a ha).2
  rw [hrest, List.filter_append, hkept (c :: cs) fun a ha => hplain a (List.mem_append_left _ ha)]
  rw [← hlength, List.length_append, List.length_append]
  split
  · rename_i hzero
    rw [hfraction, hzero]
    rfl
  · rw [List.filter_cons_of_neg (by simp),
      hkept fraction fun a ha => hplain a (List.mem_append_right _ ha)]

lemma strip_eq_self {s : Text} (h : ∀ c ∈ s, isBlank c = false) : strip s = s := by
  have hdrop : s.dropWhile isBlank = s := by
    cases s with
    | nil => rfl
    | cons c cs => rw [List.dropWhile_cons_of_neg (by simp [h c List.mem_cons_self])]
  unfold strip
  rw [hdrop, List.rdropWhile_eq_self_iff]
  exact fun hne => by simp [h _ (List.getLast_mem hne)]

/-- The text is read as the number of units. -/
lemma decimalOfText_fixedText (negative : Bool) {m p : ℕ} (hlarge : m < 10 ^ 64) (hp : p ≤ 63) :
    ∃ d, decimalOfText (fixedText negative m p) = some d ∧ d.value = valueOf negative m (-p) := by
  obtain ⟨whole, fraction, heq, hne, hfraction, hdigits, hlength, hnumber⟩ :=
    fixedText_eq negative m p
  have hwhole : ∀ c ∈ whole, c.isDigit = true := fun c hc => hdigits c (List.mem_append_left _ hc)
  have hbehind : ∀ c ∈ fraction, c.isDigit = true :=
    fun c hc => hdigits c (List.mem_append_right _ hc)
  have hmark : ∀ c ∈ fixedText negative m p, isBlank c = false ∧ c ≠ '_' := by
    have hdigit : ∀ c : Char, c.isDigit = true → isBlank c = false ∧ c ≠ '_' := by
      intro c hc
      refine ⟨Bool.eq_false_iff.mpr fun hblank => ?_, ?_⟩
      · have hmem := of_decide_eq_true hblank
        simp only [List.mem_cons, List.not_mem_nil, or_false] at hmem
        rcases hmem with rfl | rfl | rfl | rfl | rfl | rfl | rfl | rfl | rfl | rfl <;>
          exact absurd hc (by decide)
      · rintro rfl
        exact absurd hc (by decide)
    intro c hc
    rw [heq] at hc
    rcases List.mem_append.mp hc with hc | hc
    · cases negative with
      | false => exact absurd hc List.not_mem_nil
      | true =>
        rw [List.mem_singleton.mp hc]
        decide
    · rcases List.mem_append.mp hc with hc | hc
      · exact hdigit c (hwhole c hc)
      · split at hc
        · exact absurd hc List.not_mem_nil
        · rcases List.mem_cons.mp hc with rfl | hc
          · decide
          · exact hdigit c (hbehind c hc)
  have hclean : (strip (fixedText negative m p)).filter (· ≠ '_') =
      signText negative ++ (whole ++ if p = 0 then [] else '.' :: fraction) := by
    rw [strip_eq_self fun c hc => (hmark c hc).1, ← heq]
    exact List.filter_eq_self.mpr fun c hc => decide_eq_true (hmark c hc).2
  have hsign : takeSign (signText negative ++ (whole ++ if p = 0 then [] else '.' :: fraction)) =
      (negative, whole ++ if p = 0 then [] else '.' :: fraction) := by
    obtain ⟨c, cs, rfl⟩ := List.exists_cons_of_ne_nil hne
    have hc := hwhole c List.mem_cons_self
    cases negative with
    | true => rfl
    | false =>
      show takeSign (c :: (cs ++ _)) = _
      rw [takeSign]
      · rfl
      · rintro ds hds
        rw [(List.cons.inj hds).1] at hc
        exact absurd hc (by decide)
      · rintro ds hds
        rw [(List.cons.inj hds).1] at hc
        exact absurd hc (by decide)
  have hpoint : (if p = 0 then ([] : Text) else '.' :: fraction).takeWhile Char.isDigit = [] ∧
      (if p = 0 then ([] : Text) else '.' :: fraction).dropWhile Char.isDigit =
        if p = 0 then [] else '.' :: fraction := by
    split
    · exact ⟨rfl, rfl⟩
    · exact ⟨rfl, rfl⟩
  have htake : (whole ++ if p = 0 then [] else '.' :: fraction).takeWhile Char.isDigit = whole := by
    rw [List.takeWhile_append_of_pos hwhole, hpoint.1, List.append_nil]
  have hdrop : (whole ++ if p = 0 then [] else '.' :: fraction).dropWhile Char.isDigit =
      if p = 0 then [] else '.' :: fraction := by
    rw [List.dropWhile_append_of_pos hwhole, hpoint.2]
  have hfractionTaken : takeFraction (if p = 0 then [] else '.' :: fraction) = (fraction, []) := by
    split
    · rename_i hzero
      rw [hzero] at hfraction
      rw [List.length_eq_zero_iff.mp hfraction]
      rfl
    · rw [takeFraction, List.takeWhile_eq_self_iff.mpr hbehind,
        List.dropWhile_eq_nil_iff.mpr hbehind]
  have hcount := digitCount_le hlarge (by norm_num)
  unfold digitCount at hcount
  let d : PyDecimal := ⟨negative, m, -p, by omega, by omega⟩
  refine ⟨d, ?_, rfl⟩
  have hparts : ofParts negative m (0 - p) = some d :=
    ofParts_eq_some.mpr ⟨rfl, rfl, (zero_sub _).symm⟩
  have hnonempty : whole ++ fraction ≠ [] := by simp [hne]
  unfold decimalOfText
  rw [hclean, hsign]
  simp only [htake, hdrop, hfractionTaken, if_neg hnonempty, hnumber, hfraction]
  exact hparts

/-! ## Success -/

/-- The value is a whole number of units in the last of so many fractional digits, and is written
with at most 64 digits. -/
def Representable (v : ℚ) (decimalPlaces : ℤ) : Prop :=
  0 ≤ decimalPlaces ∧ decimalPlaces ≤ 63 ∧
    ∃ n : ℤ, v = n * 10 ^ (-decimalPlaces) ∧ n.natAbs < 10 ^ 64

/-- The precision that is asked for is one that a context can have. -/
def HasPrecision (d : PyDecimal) (decimalPlaces : ℤ) : Prop :=
  requiredPrecision d decimalPlaces ≤ maxPrec

/-- The value is a number of units, and zero has no sign. -/
structure Units (v : ℚ) (negative : Bool) (m p : ℕ) : Prop where
  places : p ≤ 63
  digits : m < 10 ^ 64
  sign : m = 0 → negative = false
  value : v = valueOf negative m (-p)

lemma representable_iff {v : ℚ} {decimalPlaces : ℤ} :
    Representable v decimalPlaces ↔
      ∃ negative m, ∃ p : ℕ, decimalPlaces = p ∧ Units v negative m p := by
  constructor
  · rintro ⟨hpos, hp, n, hvalue, hlarge⟩
    obtain ⟨p, rfl⟩ := Int.eq_ofNat_of_zero_le hpos
    refine ⟨decide (n < 0), n.natAbs, p, rfl, by omega, hlarge, ?_, ?_⟩
    · intro hzero
      rw [Int.natAbs_eq_zero.mp hzero]
      rfl
    · rw [hvalue]
      unfold valueOf
      rcases lt_or_ge n 0 with hneg | hnonneg
      · obtain ⟨k, hk⟩ := Int.eq_ofNat_of_zero_le (show 0 ≤ -n by omega)
        obtain rfl : n = -(k : ℤ) := by omega
        have hk' : 0 < k := by omega
        simp [hk']
      · obtain ⟨k, rfl⟩ := Int.eq_ofNat_of_zero_le hnonneg
        simp
  · rintro ⟨negative, m, p, rfl, hp, hlarge, -, rfl⟩
    refine ⟨by omega, by omega, if negative then -(m : ℤ) else m, ?_, ?_⟩
    · unfold valueOf
      cases negative <;> simp
    · cases negative <;> simpa using hlarge

lemma parts_of_value {d : PyDecimal} {negative : Bool} {m : ℕ} {x : ℤ} (hm : 0 < m)
    (h : d.value = valueOf negative m x) :
    d.negative = negative ∧ (d.coefficient : ℚ) * 10 ^ d.exponent = m * 10 ^ x := by
  have hpos : (0 : ℚ) < m * 10 ^ x := by positivity
  have hnonneg : (0 : ℚ) ≤ d.coefficient * 10 ^ d.exponent := by positivity
  unfold DecimalText.Decimal.value valueOf at h
  cases hd : d.negative <;> cases negative <;> rw [hd] at h <;>
    simp only [Bool.false_eq_true, if_false, if_true, one_mul, neg_one_mul] at h
  · exact ⟨rfl, h⟩
  · linarith
  · linarith
  · exact ⟨rfl, neg_inj.mp h⟩

lemma quantumExponent_eq {p : ℕ} (hp : p ≤ 63) : quantumExponent p = some (-(p : ℤ)) := by
  unfold quantumExponent tinyExponent maxExponent
  rw [if_neg (by omega), if_neg (by omega), max_eq_left (by omega)]

/-- Only the sign of a zero is lost. -/
lemma absZero_spec (q : PyDecimal) : (absZero q).coefficient = q.coefficient ∧
    (absZero q).exponent = q.exponent ∧ (absZero q).value = q.value ∧
      (absZero q).negative = (decide (q.coefficient ≠ 0) && q.negative) := by
  by_cases hzero : q.coefficient = 0
  · have habs : absZero q = { q with negative := false } := if_pos hzero
    have hvalue : ∀ negative, valueOf negative q.coefficient q.exponent = 0 :=
      fun negative => DecimalText.valueOf_eq_zero.mpr hzero
    rw [habs]
    exact ⟨rfl, rfl, (hvalue false).trans (hvalue _).symm, by simp [hzero]⟩
  · have habs : absZero q = q := if_neg hzero
    rw [habs]
    exact ⟨rfl, rfl, rfl, by simp [hzero]⟩

/-- A zero is quantised whatever its exponent. -/
lemma quantize_zero {d : PyDecimal} {p prec : ℕ} (hzero : d.coefficient = 0) (hp : p ≤ 63)
    (hprec : 28 ≤ prec) :
    ∃ q, quantize prec d (-p) = some q ∧ q.coefficient = 0 ∧ q.exponent = -p := by
  let q : PyDecimal := ⟨d.negative, 0, -p, by omega, by simp⟩
  refine ⟨q, ?_, rfl, rfl⟩
  unfold quantize
  rw [if_neg, if_pos hzero]
  · exact ofParts_eq_some.mpr ⟨rfl, rfl, rfl⟩
  · unfold maxExponent tinyExponent maxExponent
    omega

/-- What is quantised, and where it goes. -/
lemma quantize_units {d : PyDecimal} {negative : Bool} {m p prec : ℕ}
    (hunits : Units d.value negative m p) (hprec : max 28 (requiredPrecision d p) ≤ prec) :
    ∃ q, quantize prec d (-p) = some q ∧ q.value = d.value ∧ q.exponent = -p ∧
      (absZero q).negative = negative ∧ (absZero q).coefficient = m := by
  obtain ⟨hp, hlarge, hsign, hvalue⟩ := hunits
  obtain ⟨hlow, hrequired⟩ := max_le_iff.mp hprec
  rcases Nat.eq_zero_or_pos m with rfl | hm
  · have hd : d.value = 0 := hvalue.trans (DecimalText.valueOf_eq_zero.mpr rfl)
    have hzero := DecimalText.valueOf_eq_zero.mp hd
    obtain ⟨q, hq, hcoefficient, hexponent⟩ := quantize_zero hzero hp hlow
    obtain ⟨habs, -, -, hnegative⟩ := absZero_spec q
    refine ⟨q, hq, ?_, hexponent, ?_, habs.trans hcoefficient⟩
    · rw [hd]
      exact DecimalText.valueOf_eq_zero.mpr hcoefficient
    · rw [hnegative, hcoefficient, hsign rfl]
      rfl
  · obtain ⟨hnegative, hmagnitude⟩ := parts_of_value hm hvalue
    obtain ⟨q, hq, hqNegative, hcoefficient, hexponent⟩ :=
      quantize_of_units hm hlarge hp hrequired hmagnitude
    obtain ⟨habs, -, -, habsNegative⟩ := absZero_spec q
    refine ⟨q, hq, ?_, hexponent, ?_, habs.trans hcoefficient⟩
    · rw [hvalue]
      unfold DecimalText.Decimal.value
      rw [hqNegative, hcoefficient, hexponent, hnegative]
    · rw [habsNegative, hcoefficient, hqNegative, hnegative, decide_eq_true hm.ne', Bool.true_and]

/-- A number of units is written with its digits, under a precision that there is. -/
lemma canonicalDecimal_of_units {value : DecimalInput} {d : PyDecimal} {negative : Bool} {m p : ℕ}
    (hparsed : value.parsed = some d) (hunits : Units d.value negative m p)
    (hprec : HasPrecision d p) : canonicalDecimal value p = some (fixedText negative m p) := by
  obtain ⟨q, hq, hvalue, hexponent, hnegative, hcoefficient⟩ := quantize_units hunits le_rfl
  have hmaximum : ¬ maxPrec < max 28 (requiredPrecision d p) := by
    unfold HasPrecision at hprec
    have : 28 ≤ maxPrec := by unfold maxPrec; norm_num
    omega
  have hexponent' : (absZero q).exponent = -p := (absZero_spec q).2.1.trans hexponent
  have hformat : formatFixed (absZero q) p = some (fixedText negative m p) := by
    unfold formatFixed
    rw [if_neg (by omega), rescale_self hexponent', hnegative, hcoefficient, Int.toNat_natCast]
  have hshort :
      ¬ 64 < (((fixedText negative m p).dropWhile (· = '-')).filter (· ≠ '.')).length := by
    have hdigits := digitCount_le hunits.digits (by norm_num)
    have hp := hunits.places
    rw [length_measured]
    omega
  unfold canonicalDecimal
  simp only [hparsed, quantumExponent_eq hunits.places, Option.bind_eq_bind, Option.bind_some,
    if_neg hmaximum, hq, hvalue, ne_eq, not_true_eq_false, if_false, hformat, if_neg hshort]
  rfl

/-- What is written is a number of units. -/
lemma units_of_canonicalDecimal {value : DecimalInput} {d : PyDecimal} {decimalPlaces : ℤ}
    {s : Text} (hparsed : value.parsed = some d)
    (h : canonicalDecimal value decimalPlaces = some s) :
    ∃ negative m, ∃ p : ℕ, decimalPlaces = p ∧ Units d.value negative m p ∧
      s = fixedText negative m p ∧ HasPrecision d p := by
  unfold canonicalDecimal at h
  rw [hparsed] at h
  simp only [Option.bind_eq_bind, Option.bind_some] at h
  obtain ⟨x, hx, h⟩ := Option.bind_eq_some_iff.mp h
  obtain ⟨hprec, h⟩ := Option.ite_none_left_eq_some.mp h
  obtain ⟨q, hq, h⟩ := Option.bind_eq_some_iff.mp h
  obtain ⟨hvalue, h⟩ := Option.ite_none_left_eq_some.mp h
  obtain ⟨rendered, hrendered, h⟩ := Option.bind_eq_some_iff.mp h
  obtain ⟨hshort, heq⟩ := Option.ite_none_left_eq_some.mp h
  obtain rfl := Option.some.inj heq
  obtain ⟨hpos, hrendered⟩ := Option.ite_none_left_eq_some.mp hrendered
  obtain ⟨p, rfl⟩ := Int.eq_ofNat_of_zero_le (not_lt.mp hpos)
  obtain rfl := Option.some.inj hrendered
  rw [Int.toNat_natCast, length_measured, not_lt] at hshort
  have hp : p ≤ 63 := by omega
  rw [quantumExponent_eq hp] at hx
  obtain rfl := Option.some.inj hx
  have hexponent := exponent_of_quantize hq
  obtain ⟨habs, habsExponent, habsValue, habsNegative⟩ := absZero_spec q
  rw [rescale_self (habsExponent.trans hexponent)] at hshort ⊢
  refine ⟨(absZero q).negative, (absZero q).coefficient, p, rfl, ⟨hp, ?_, ?_, ?_⟩, ?_, ?_⟩
  · rw [← Nat.length_toDigits_le_iff (b := 10) (by norm_num) (by norm_num)]
    exact (le_max_right _ _).trans hshort
  · intro hzero
    rw [habsNegative, ← habs, hzero]
    rfl
  · have hd : q.value = d.value := not_not.mp hvalue
    rw [← hd, ← habsValue]
    unfold DecimalText.Decimal.value
    rw [habsExponent, hexponent]
  · rw [Int.toNat_natCast]
  · unfold HasPrecision
    omega

/-- A value that is a number of units is written, except that no context may have the precision
that is asked for; the text denotes the value, and equal values have one text. -/
theorem canonical_decimal (value : DecimalInput) (d : PyDecimal) (decimalPlaces : ℤ)
    (h : value.parsed = some d) :
    (((canonicalDecimal value decimalPlaces).isSome ↔ Representable d.value decimalPlaces) ↔
      (Representable d.value decimalPlaces → HasPrecision d decimalPlaces)) ∧
    ∀ s, canonicalDecimal value decimalPlaces = some s →
      (∃ e, decimalOfText s = some e ∧ e.value = d.value) ∧
      ∀ value' d', value'.parsed = some d' → d'.value = d.value →
        (canonicalDecimal value' decimalPlaces = some s ↔ HasPrecision d' decimalPlaces) := by
  have hsome : (canonicalDecimal value decimalPlaces).isSome ↔
      Representable d.value decimalPlaces ∧ HasPrecision d decimalPlaces := by
    constructor
    · intro hsome
      obtain ⟨s, hs⟩ := Option.isSome_iff_exists.mp hsome
      obtain ⟨negative, m, p, rfl, hunits, -, hprec⟩ := units_of_canonicalDecimal h hs
      exact ⟨representable_iff.mpr ⟨negative, m, p, rfl, hunits⟩, hprec⟩
    · rintro ⟨hrepresentable, hprec⟩
      obtain ⟨negative, m, p, rfl, hunits⟩ := representable_iff.mp hrepresentable
      rw [canonicalDecimal_of_units h hunits hprec]
      rfl
  refine ⟨?_, fun s hs => ?_⟩
  · rw [hsome]
    exact ⟨fun hiff hr => (hiff.mpr hr).2, fun hprec => ⟨fun hr => hr.1, fun hr => ⟨hr, hprec hr⟩⟩⟩
  · obtain ⟨negative, m, p, rfl, hunits, rfl, -⟩ := units_of_canonicalDecimal h hs
    refine ⟨?_, fun value' d' h' heq => ⟨fun hs' => ?_, fun hprec => ?_⟩⟩
    · obtain ⟨e, he, hvalue⟩ := decimalOfText_fixedText negative hunits.digits hunits.places
      exact ⟨e, he, hvalue.trans hunits.value.symm⟩
    · obtain ⟨negative', m', p', hp, -, -, hprec⟩ := units_of_canonicalDecimal h' hs'
      rw [hp]
      exact hprec
    · exact canonicalDecimal_of_units h' (heq ▸ hunits) hprec

/-- `Decimal("-1.050")`. -/
def price : PyDecimal := ⟨true, 1050, -3, by decide, by decide⟩

theorem canonical_decimal_price : ∃ s, canonicalDecimal (.decimal price) 2 = some s ∧
    ∃ e, decimalOfText s = some e ∧ e.value = price.value := by
  have hexact := canonical_decimal (.decimal price) price 2 rfl
  have hrepresentable : Representable price.value 2 := by
    refine ⟨by norm_num, by norm_num, -105, ?_, by norm_num⟩
    norm_num [price, DecimalText.Decimal.value, valueOf]
  have hprec : HasPrecision price 2 := by
    unfold HasPrecision
    decide
  obtain ⟨s, hs⟩ := Option.isSome_iff_exists.mp ((hexact.1.mpr fun _ => hprec).mpr hrepresentable)
  exact ⟨s, hs, (hexact.2 s hs).1⟩

/-- `Decimal("0E+999999999999999999")`. -/
def highZero : PyDecimal := ⟨false, 0, 999999999999999999, by decide, by decide⟩

/-- A zero with the largest exponent is refused, and the integer zero is written. -/
theorem canonical_decimal_highZero : Representable highZero.value 2 ∧
    canonicalDecimal (.decimal highZero) 2 = none ∧
      canonicalDecimal (.int 0) 2 = some ['0', '.', '0', '0'] := by
  have hzero : highZero.value = 0 := DecimalText.valueOf_eq_zero.mpr rfl
  refine ⟨⟨by norm_num, by norm_num, 0, by rw [hzero]; norm_num, by norm_num⟩, ?_, ?_⟩
  · rw [Option.eq_none_iff_forall_ne_some]
    intro s hs
    obtain ⟨_, _, p, hp, _, _, hprec⟩ := units_of_canonicalDecimal rfl hs
    rw [← hp] at hprec
    unfold HasPrecision requiredPrecision maxPrec at hprec
    have hexponent : highZero.exponent.toNat = 999999999999999999 := rfl
    rw [hexponent] at hprec
    omega
  · have hparsed : (DecimalInput.int 0).parsed = some ⟨false, 0, 0, by decide, by decide⟩ :=
      ofParts_eq_some.mpr ⟨rfl, rfl, rfl⟩
    refine canonicalDecimal_of_units (m := 0) (p := 2) hparsed
      ⟨by norm_num, by norm_num, fun _ => rfl, ?_⟩ ?_
    · exact (DecimalText.valueOf_eq_zero.mpr rfl).trans (DecimalText.valueOf_eq_zero.mpr rfl).symm
    · unfold HasPrecision
      decide

end NexaPos.Backups.CanonicalJson
