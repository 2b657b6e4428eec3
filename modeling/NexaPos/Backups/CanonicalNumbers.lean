import NexaPos.Backups.CanonicalJson
import Mathlib.Algebra.Order.Ring.Abs

/-!
# The tokens of numbers

What the reader makes of the token of a number.  A decimal is stripped of the zeros at the end of
its coefficient; then it is written out as a whole number when it is one below `10 ^ 21`
(`magnitude_whole`), and with a fraction or an exponent otherwise (`magnitude_real`).  Either text
is read as a number of the same value and with the same token (`token_cases`), so that tokens tell
values apart, except that an integer is always written out (`token_eq_iff`).
-/

namespace NexaPos.Backups.CanonicalJson

open JsonText (renderInt isRealToken scanNumber)
open DecimalText (valueOf signText spell IsWhole)

/-! ## The token of a stripped decimal -/

/-- The token of a coefficient that does not end in a zero and an exponent. -/
def magnitude (m : ℕ) (e : ℤ) : Text :=
  let kept := Nat.toDigits 10 m
  let adjusted : ℤ := e + kept.length - 1
  if -6 ≤ adjusted ∧ adjusted < 21 then
    if 0 ≤ e then kept ++ List.replicate e.toNat '0'
    else
      let split : ℤ := kept.length + e
      if 0 < split then kept.take split.toNat ++ '.' :: kept.drop split.toNat
      else '0' :: '.' :: (List.replicate (-split).toNat '0' ++ kept)
  else
    let fraction := kept.drop 1
    let coefficient := if fraction = [] then kept.take 1 else kept.take 1 ++ '.' :: fraction
    coefficient ++ 'e' :: renderInt adjusted

lemma token_zero {d : PyDecimal} (h : d.coefficient = 0) : canonicalJsonDecimalToken d = ['0'] := by
  unfold canonicalJsonDecimalToken
  rw [h]
  rfl

lemma token_strip {d : PyDecimal} {m k : ℕ} (hc : d.coefficient = m * 10 ^ k) (hm : ¬ 10 ∣ m) :
    canonicalJsonDecimalToken d = signText d.negative ++ magnitude m (d.exponent + k) := by
  have hpos : 0 < m := DecimalText.pos_of_not_dvd hm
  have hdigits : (Nat.toDigits 10 d.coefficient).dropWhile (· = '0') =
      Nat.toDigits 10 m ++ List.replicate k '0' := by
    rw [hc, DecimalText.dropWhile_toDigits (Nat.mul_pos hpos (Nat.pow_pos (by norm_num))),
      DecimalText.toDigits_mul_pow hpos]
  have hne : Nat.toDigits 10 m ++ List.replicate k '0' ≠ [] := by
    simp [Nat.toDigits_ne_nil]
  have hkept := DecimalText.rdropWhile_append_zeros (DecimalText.last_toDigits hm) k
  have hlength : (Nat.toDigits 10 m ++ List.replicate k '0').length -
      (Nat.toDigits 10 m).length = k := by
    rw [List.length_append, List.length_replicate]
    omega
  unfold canonicalJsonDecimalToken magnitude
  simp only [hdigits, hkept, hne, if_false, hlength]
  cases d.negative <;> rfl

section Magnitude

variable {m : ℕ} {e : ℤ}

/-- The exponent of the first digit. -/
def leading (m : ℕ) (e : ℤ) : ℤ := e + (Nat.toDigits 10 m).length - 1

lemma length_toDigits_pos (m : ℕ) : 1 ≤ (Nat.toDigits 10 m).length :=
  Nat.length_toDigits_pos

/-- A whole number below `10 ^ 21` is written out. -/
lemma magnitude_whole (hm : ¬ 10 ∣ m) (he : 0 ≤ e) (hlarge : leading m e < 21) :
    magnitude m e = Nat.toDigits 10 (m * 10 ^ e.toNat) := by
  have hlength := length_toDigits_pos m
  unfold leading at hlarge
  rw [DecimalText.toDigits_mul_pow (DecimalText.pos_of_not_dvd hm)]
  unfold magnitude
  simp only
  rw [if_pos ⟨by omega, hlarge⟩, if_pos he]

/-- Other numbers are written with a fraction or an exponent. -/
lemma magnitude_real (hm : ¬ 10 ∣ m) (h : e < 0 ∨ 21 ≤ leading m e) :
    ∃ whole fraction exponent, magnitude m e = spell whole fraction exponent ∧ IsWhole whole ∧
      (∀ c ∈ fraction, c.isDigit = true) ∧ (fraction ≠ [] ∨ exponent ≠ none) ∧
        Nat.ofDigitChars 10 (whole ++ fraction) 0 = m ∧ exponent.getD 0 - fraction.length = e := by
  have hlength := length_toDigits_pos m
  have hall := JsonText.isDigit_toDigits m
  obtain ⟨c, cs, hdigits, hc, -⟩ := JsonText.head_toDigits (DecimalText.pos_of_not_dvd hm)
  have hwhole : ∀ n, 0 < n → IsWhole ((Nat.toDigits 10 m).take n) := by
    intro n hn
    refine ⟨fun a ha => hall a (List.mem_of_mem_take ha), .inr ?_⟩
    obtain ⟨n, rfl⟩ := Nat.exists_eq_succ_of_ne_zero (Nat.pos_iff_ne_zero.mp hn)
    exact ⟨c, cs.take n, by rw [hdigits, List.take_succ_cons], hc⟩
  unfold leading at h
  unfold magnitude
  simp only
  by_cases hrange : -6 ≤ e + (Nat.toDigits 10 m).length - 1 ∧
      e + (Nat.toDigits 10 m).length - 1 < 21
  · rw [if_pos hrange, if_neg (by omega)]
    by_cases hsplit : 0 < ((Nat.toDigits 10 m).length : ℤ) + e
    · -- The point stands among the digits.
      rw [if_pos hsplit]
      obtain ⟨n, hn⟩ := Int.eq_ofNat_of_zero_le hsplit.le
      rw [hn, Int.toNat_natCast]
      have hlt : n < (Nat.toDigits 10 m).length := by omega
      have hne : (Nat.toDigits 10 m).drop n ≠ [] := by
        rw [Ne, List.drop_eq_nil_iff]
        omega
      refine ⟨(Nat.toDigits 10 m).take n, (Nat.toDigits 10 m).drop n, none, ?_, hwhole n (by omega),
        fun a ha => hall a (List.mem_of_mem_drop ha), .inl hne, ?_, ?_⟩
      · simp [spell, hne]
      · rw [List.take_append_drop, Nat.ofDigitChars_ten_toDigits]
      · rw [Option.getD_none, List.length_drop]
        omega
    · -- The digits stand behind zeros.
      rw [if_neg hsplit]
      have hne : List.replicate (-((Nat.toDigits 10 m).length + e)).toNat '0' ++
          Nat.toDigits 10 m ≠ [] := by
        simp [Nat.toDigits_ne_nil]
      refine ⟨['0'], List.replicate (-((Nat.toDigits 10 m).length + e)).toNat '0' ++
        Nat.toDigits 10 m, none, ?_, ⟨by simp, .inl rfl⟩, ?_, .inl hne, ?_, ?_⟩
      · rw [spell, if_neg hne]
        simp
      · intro a ha
        rcases List.mem_append.mp ha with ha | ha
        · rw [(List.mem_replicate.mp ha).2]
          decide
        · exact hall a ha
      · rw [List.singleton_append, ← List.cons_append, ← List.replicate_succ,
          Nat.ofDigitChars_append, Nat.ofDigitChars_replicate_zero, Nat.mul_zero,
          Nat.ofDigitChars_ten_toDigits]
      · rw [Option.getD_none, List.length_append, List.length_replicate]
        omega
  · -- One digit stands before the point, and an exponent behind.
    rw [if_neg hrange]
    refine ⟨(Nat.toDigits 10 m).take 1, (Nat.toDigits 10 m).drop 1,
      some (e + (Nat.toDigits 10 m).length - 1), ?_, hwhole 1 (by norm_num),
      fun a ha => hall a (List.mem_of_mem_drop ha), .inr (Option.some_ne_none _), ?_, ?_⟩
    · unfold spell
      by_cases hnil : (Nat.toDigits 10 m).drop 1 = []
      · rw [if_pos hnil, if_pos hnil]
        rfl
      · rw [if_neg hnil, if_neg hnil]
        simp
    · rw [List.take_append_drop, Nat.ofDigitChars_ten_toDigits]
    · rw [Option.getD_some, List.length_drop]
      omega

end Magnitude

/-! ## Tokens and values -/

/-- The token of a number. -/
def Number.token : Number → Text
  | .int n => renderInt n
  | .decimal d => canonicalJsonDecimalToken d

lemma natAbs_of_valueOf {negative : Bool} {m : ℕ} {e n : ℤ} (hm : ¬ 10 ∣ m)
    (h : valueOf negative m e = n) : 0 ≤ e ∧ n.natAbs = m * 10 ^ e.toNat := by
  have habs : (m : ℚ) * 10 ^ e = (n.natAbs : ℚ) := by
    have hnonneg : (0 : ℚ) ≤ m * 10 ^ e := by positivity
    have hcast : ((n.natAbs : ℕ) : ℚ) = |(n : ℚ)| := by
      rw [Nat.cast_natAbs, Int.cast_abs]
    rw [hcast, ← h]
    unfold valueOf
    cases negative <;> simp [abs_of_nonneg hnonneg]
  have he : 0 ≤ e := by
    by_contra hneg
    obtain ⟨k, hk⟩ := Int.eq_ofNat_of_zero_le (show 0 ≤ -e by omega)
    have hke : e = -(k : ℤ) := by omega
    rw [hke, zpow_neg, zpow_natCast, ← div_eq_mul_inv, div_eq_iff (by positivity)] at habs
    have hnat : m = n.natAbs * 10 ^ k := by exact_mod_cast habs
    refine hm ?_
    rw [hnat]
    exact Dvd.dvd.mul_left (dvd_pow_self 10 (by omega)) _
  refine ⟨he, ?_⟩
  obtain ⟨k, rfl⟩ := Int.eq_ofNat_of_zero_le he
  rw [zpow_natCast] at habs
  rw [Int.toNat_natCast]
  have hnat : m * 10 ^ k = n.natAbs := by exact_mod_cast habs
  exact hnat.symm

lemma valueOf_natCast (negative : Bool) (m k : ℕ) :
    valueOf negative m k = ((if negative then -(m * 10 ^ k : ℕ) else (m * 10 ^ k : ℕ) : ℤ) : ℚ) := by
  unfold valueOf
  rw [zpow_natCast]
  cases negative <;> simp

lemma renderInt_signed (negative : Bool) {n : ℕ} (h : 0 < n) :
    renderInt (if negative then -(n : ℤ) else n) = signText negative ++ Nat.toDigits 10 n := by
  unfold renderInt signText
  cases negative with
  | false =>
    simp only [Bool.false_eq_true, if_false]
    rw [if_neg (by omega)]
    rfl
  | true =>
    simp only [if_true]
    rw [if_pos (by omega), Int.natAbs_neg]
    rfl

/-- What the token of a number is read as: a whole number below `10 ^ 21`, or any integer, as an
integer; every other number as a decimal with the same token. -/
inductive Spelled (x : Number) : Prop
  | whole (n : ℤ) (htoken : x.token = renderInt n) (hvalue : x.value = n)
      (hsmall : x = .int n ∨ n.natAbs < 10 ^ 21)
  | real (d : PyDecimal) (hdecimal : ∃ d', x = .decimal d') (hreal : isRealToken x.token = true)
      (hread : DecimalText.Decimal.ofToken x.token = some d) (hvalue : d.value = x.value)
      (htoken : canonicalJsonDecimalToken d = x.token)
      (hlarge : ∀ n : ℤ, x.value = n → 10 ^ 21 ≤ n.natAbs)

theorem token_cases (x : Number) : Spelled x := by
  cases x with
  | int n => exact .whole n rfl rfl (.inl rfl)
  | decimal d =>
    rcases Nat.eq_zero_or_pos d.coefficient with hzero | hpos
    · refine .whole 0 (token_zero hzero) ?_ (.inr (by norm_num))
      rw [Int.cast_zero]
      exact DecimalText.valueOf_eq_zero.mpr hzero
    · obtain ⟨m, k, hc, hm⟩ := DecimalText.exists_strip hpos
      have hmpos := DecimalText.pos_of_not_dvd hm
      have htoken := token_strip hc hm
      have hvalue : d.value = valueOf d.negative m (d.exponent + k) := by
        unfold DecimalText.Decimal.value
        rw [hc, DecimalText.valueOf_mul_pow]
      by_cases hwhole : 0 ≤ d.exponent + k ∧ leading m (d.exponent + k) < 21
      · obtain ⟨he, hlarge⟩ := hwhole
        obtain ⟨j, hj⟩ := Int.eq_ofNat_of_zero_le he
        have hjpos : 0 < m * 10 ^ j := Nat.mul_pos hmpos (Nat.pow_pos (by norm_num))
        refine .whole (if d.negative then -(m * 10 ^ j : ℕ) else (m * 10 ^ j : ℕ)) ?_ ?_ (.inr ?_)
        · rw [renderInt_signed d.negative hjpos]
          show canonicalJsonDecimalToken d = _
          rw [htoken, magnitude_whole hm he hlarge, hj, Int.toNat_natCast]
        · show d.value = _
          rw [hvalue, hj, valueOf_natCast]
        · have hlt : m * 10 ^ j < 10 ^ 21 := by
            rw [← Nat.length_toDigits_le_iff (by norm_num) (by norm_num),
              DecimalText.toDigits_mul_pow hmpos, List.length_append, List.length_replicate]
            unfold leading at hlarge
            omega
          generalize m * 10 ^ j = n at hlt
          cases d.negative <;> simpa using hlt
      · obtain ⟨whole, fraction, exponent, hspell, hw, hf, hsome, hnumber, hexponent⟩ :=
          magnitude_real hm (e := d.exponent + k) (by omega)
        have hlength : (Nat.toDigits 10 d.coefficient).length = (Nat.toDigits 10 m).length + k := by
          rw [hc, DecimalText.toDigits_mul_pow hmpos, List.length_append, List.length_replicate]
        have hlow := d.low_le
        have hhigh := d.le_high
        let reduced : PyDecimal :=
          ⟨d.negative, m, d.exponent + k, by omega, by rw [hlength] at hhigh; push_cast at hhigh; omega⟩
        have hreduced : canonicalJsonDecimalToken reduced = canonicalJsonDecimalToken d := by
          have := token_strip (d := reduced) (m := m) (k := 0) (by simp [reduced]) hm
          rw [this, htoken]
          simp [reduced]
        refine .real reduced ⟨d, rfl⟩ ?_ ?_ hvalue.symm hreduced ?_
        · show isRealToken (canonicalJsonDecimalToken d) = true
          rw [htoken, hspell]
          exact DecimalText.isRealToken_spell _ _ hw hf hsome
        · show DecimalText.Decimal.ofToken (canonicalJsonDecimalToken d) = some reduced
          have hparts := DecimalText.parts_spell exponent d.negative hw hf
          rw [← hspell, ← htoken, hnumber, hexponent] at hparts
          unfold DecimalText.Decimal.ofToken
          rw [hparts]
          simp only [Option.bind_eq_bind, Option.bind_some]
          rw [dif_pos ⟨reduced.low_le, reduced.le_high⟩]
          rfl
        · intro n hn
          obtain ⟨he, habs⟩ := natAbs_of_valueOf hm (hvalue.symm.trans hn)
          rw [habs]
          by_contra hlt
          rw [not_le, ← Nat.length_toDigits_le_iff (by norm_num) (by norm_num),
            DecimalText.toDigits_mul_pow hmpos, List.length_append, List.length_replicate] at hlt
          unfold leading at hwhole
          omega

/-! ## Reading tokens -/

/-- The JSON value of a token. -/
def readToken (t : Text) : JsonText.Value :=
  match scanNumber t with
  | some (v, _) => v
  | none => .null

/-- The number that the token of a number is read as. -/
def reread (x : Number) : Number :=
  match ofValue DecimalText.Decimal.ofToken (readToken x.token) with
  | some (.number y) => y
  | _ => x

/-- An integer has no more digits than are converted. -/
def Number.fits : Number → Bool
  | .int n => fitsDigits n
  | .decimal _ => true

/-- The number is written as a whole number. -/
def Number.IsWhole (x : Number) : Prop :=
  (∃ n, x = .int n) ∨ ∃ n : ℤ, x.value = n ∧ n.natAbs < 10 ^ 21

/-- The number is an integer of more than 21 digits. -/
def Number.isLong : Number → Bool
  | .int n => 10 ^ 21 ≤ n.natAbs
  | .decimal _ => false

/-- What tells the tokens of numbers apart: the value, and whether it is a long integer. -/
def Number.mark (x : Number) : ℚ × Bool := (x.value, x.isLong)

lemma scanNumber_int (n : ℤ) : scanNumber (renderInt n) = some (.int n, []) := by
  have h := JsonText.scanNumber_renderInt n JsonText.stops_nil
  rwa [List.append_nil] at h

lemma scanNumber_real {t : Text} (h : isRealToken t = true) :
    scanNumber t = some (.real t, []) := by
  have hscan := JsonText.scanNumber_of_isRealToken h JsonText.stops_nil
  rwa [List.append_nil] at hscan

lemma readToken_int (n : ℤ) : readToken (renderInt n) = .int n := by
  unfold readToken
  rw [scanNumber_int]

lemma readToken_real {t : Text} (h : isRealToken t = true) : readToken t = .real t := by
  unfold readToken
  rw [scanNumber_real h]

lemma isConstant_of_isRealToken {t : Text} (h : isRealToken t = true) : isConstant t = false := by
  refine Bool.eq_false_iff.mpr fun hconstant => ?_
  have hmem := of_decide_eq_true hconstant
  have hscan := congrArg Option.isSome (scanNumber_real h)
  simp only [List.mem_cons, List.not_mem_nil, or_false] at hmem
  rcases hmem with rfl | rfl | rfl
  · exact absurd hscan (by decide)
  · exact absurd hscan (by decide)
  · exact absurd hscan (by decide)

lemma fitsDigits_of_lt {n : ℤ} (h : n.natAbs < 10 ^ 21) : fitsDigits n = true := by
  have hlength := (Nat.length_toDigits_le_iff (b := 10) (by norm_num) (by norm_num)).mpr h
  refine decide_eq_true (hlength.trans ?_)
  unfold maxStrDigits
  norm_num

/-- A number that can be written is read as one with the same value and the same token. -/
lemma reread_spec {x : Number} (h : x.fits = true) :
    ofValue DecimalText.Decimal.ofToken (readToken x.token) = some (.number (reread x)) ∧
      (reread x).value = x.value ∧ (reread x).token = x.token ∧ (reread x).fits = true := by
  cases token_cases x with
  | whole n htoken hvalue hsmall =>
    have hfits : fitsDigits n = true := by
      rcases hsmall with rfl | hsmall
      · exact h
      · exact fitsDigits_of_lt hsmall
    have hread : ofValue DecimalText.Decimal.ofToken (readToken x.token) =
        some (.number (.int n)) := by
      rw [htoken, readToken_int, ofValue, if_pos hfits]
    have hreread : reread x = .int n := by
      unfold reread
      rw [hread]
    rw [hreread]
    exact ⟨hread, hvalue.symm, htoken.symm, hfits⟩
  | real d hdecimal hreal hof hvalue htoken hlarge =>
    have hread : ofValue DecimalText.Decimal.ofToken (readToken x.token) =
        some (.number (.decimal d)) := by
      rw [readToken_real hreal, ofValue, isConstant_of_isRealToken hreal, hof]
      rfl
    have hreread : reread x = .decimal d := by
      unfold reread
      rw [hread]
    rw [hreread]
    exact ⟨hread, hvalue, htoken, rfl⟩

/-- The strict reader takes the numbers that are written as whole ones. -/
lemma ofValue_reject {x : Number} (h : x.fits = true) :
    (x.IsWhole → ofValue rejectJsonNumber (readToken x.token) = some (.number (reread x))) ∧
      (¬ x.IsWhole → ofValue rejectJsonNumber (readToken x.token) = none) := by
  obtain ⟨hread, -⟩ := reread_spec h
  cases token_cases x with
  | whole n htoken hvalue hsmall =>
    rw [htoken, readToken_int, ofValue] at hread ⊢
    refine ⟨fun _ => hread, fun hnot => absurd ?_ hnot⟩
    rcases hsmall with rfl | hsmall
    · exact .inl ⟨n, rfl⟩
    · exact .inr ⟨n, hvalue, hsmall⟩
  | real d hdecimal hreal hof hvalue htoken hlarge =>
    rw [readToken_real hreal, ofValue, isConstant_of_isRealToken hreal]
    refine ⟨?_, fun _ => rfl⟩
    rintro (⟨n, rfl⟩ | ⟨n, hn, hlt⟩)
    · obtain ⟨d', hd'⟩ := hdecimal
      exact nomatch hd'
    · exact absurd (hlarge n hn) (by omega)

/-- Decimals of one value have one token. -/
lemma decimalToken_eq {d d' : PyDecimal} (h : d.value = d'.value) :
    canonicalJsonDecimalToken d = canonicalJsonDecimalToken d' := by
  have hzero : d.coefficient = 0 ↔ d'.coefficient = 0 := by
    have hd : d.value = 0 ↔ d.coefficient = 0 := DecimalText.valueOf_eq_zero
    have hd' : d'.value = 0 ↔ d'.coefficient = 0 := DecimalText.valueOf_eq_zero
    rw [← hd, ← hd', h]
  rcases Nat.eq_zero_or_pos d.coefficient with hnone | hpos
  · rw [token_zero hnone, token_zero (hzero.mp hnone)]
  · have hpos' : 0 < d'.coefficient := by
      refine Nat.pos_of_ne_zero fun hnone => ?_
      rw [hzero.mpr hnone] at hpos
      exact absurd hpos (lt_irrefl 0)
    obtain ⟨m, k, hc, hm⟩ := DecimalText.exists_strip hpos
    obtain ⟨m', k', hc', hm'⟩ := DecimalText.exists_strip hpos'
    unfold DecimalText.Decimal.value at h
    rw [hc, hc', DecimalText.valueOf_mul_pow, DecimalText.valueOf_mul_pow] at h
    obtain ⟨hsign, rfl, hexponent⟩ := DecimalText.valueOf_inj hm hm' h
    rw [token_strip hc hm, token_strip hc' hm', hsign, hexponent]

lemma isLong_of_whole {x : Number} {n : ℤ} (hsmall : x = .int n ∨ n.natAbs < 10 ^ 21)
    (hvalue : x.value = n) : x.isLong = decide (10 ^ 21 ≤ n.natAbs) := by
  cases x with
  | int n' =>
    have hsame : n' = n := by exact_mod_cast (show ((n' : ℤ) : ℚ) = n from hvalue)
    rw [hsame]
    rfl
  | decimal d =>
    rcases hsmall with hint | hsmall
    · exact nomatch hint
    · exact (decide_eq_false (not_le.mpr hsmall)).symm

/-- Tokens are the same exactly for numbers of the same value, long integers apart. -/
theorem token_eq_iff (x y : Number) : x.token = y.token ↔ x.mark = y.mark := by
  unfold Number.mark
  rw [Prod.mk.injEq]
  cases token_cases x with
  | whole n htoken hvalue hsmall =>
    rw [isLong_of_whole hsmall hvalue]
    cases token_cases y with
    | whole n' htoken' hvalue' hsmall' =>
      rw [isLong_of_whole hsmall' hvalue', htoken, htoken', hvalue, hvalue']
      constructor
      · intro h
        have hscan := scanNumber_int n
        rw [h, scanNumber_int] at hscan
        obtain rfl := JsonText.Value.int.inj (Prod.mk.inj (Option.some.inj hscan)).1
        exact ⟨rfl, rfl⟩
      · rintro ⟨h, -⟩
        have hsame : n = n' := by exact_mod_cast h
        rw [hsame]
    | real d hdecimal hreal hof hvalue' htoken' hlarge =>
      constructor
      · intro h
        have hscan := scanNumber_real hreal
        rw [← h, htoken, scanNumber_int] at hscan
        exact nomatch (Prod.mk.inj (Option.some.inj hscan)).1
      · rintro ⟨h, hlong⟩
        obtain ⟨d', rfl⟩ := hdecimal
        exact absurd (hlarge n (h.symm.trans hvalue)) (of_decide_eq_false hlong)
  | real d hdecimal hreal hof hvalue htoken hlarge =>
    obtain ⟨d₀, rfl⟩ := hdecimal
    cases token_cases y with
    | whole n' htoken' hvalue' hsmall' =>
      rw [isLong_of_whole hsmall' hvalue']
      constructor
      · intro h
        have hscan := scanNumber_real hreal
        rw [h, htoken', scanNumber_int] at hscan
        exact nomatch (Prod.mk.inj (Option.some.inj hscan)).1
      · rintro ⟨h, hlong⟩
        exact absurd (hlarge n' (h.trans hvalue')) (of_decide_eq_false hlong.symm)
    | real d' hdecimal' hreal' hof' hvalue' htoken' hlarge' =>
      obtain ⟨d₁, rfl⟩ := hdecimal'
      constructor
      · intro h
        rw [h, hof'] at hof
        rw [← hvalue, ← hvalue', Option.some.inj hof]
        exact ⟨rfl, rfl⟩
      · rintro ⟨h, -⟩
        exact decimalToken_eq h

end NexaPos.Backups.CanonicalJson
