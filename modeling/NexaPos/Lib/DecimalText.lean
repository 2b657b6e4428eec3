import NexaPos.Lib.Json
import Mathlib.Algebra.Order.Field.Power
import Mathlib.Data.List.DropRight
import Mathlib.Data.Nat.Multiplicity
import Mathlib.Tactic.FieldSimp
import Mathlib.Tactic.Linarith

/-!
# Decimal numbers and the texts of them

A finite decimal number is a sign, a coefficient and an exponent.  Zeros at the end of the
coefficient can be moved to the exponent (`exists_strip`), and then a value that is not zero has
one coefficient and one exponent (`strip_unique`).  Texts made of digits, a fraction and an
exponent (`spell`) are scanned as the real numbers of JSON, and read as the decimal number that
their parts name (`parts_spell`).
-/

namespace DecimalText

open JsonText

/-- A finite decimal number, with the exponents that its format has. -/
structure Decimal (low high : ℤ) where
  negative : Bool
  coefficient : ℕ
  exponent : ℤ
  low_le : low ≤ exponent
  le_high : exponent + (Nat.toDigits 10 coefficient).length - 1 ≤ high
  deriving DecidableEq

/-- The value of a sign, a coefficient and an exponent. -/
def valueOf (negative : Bool) (coefficient : ℕ) (exponent : ℤ) : ℚ :=
  (if negative then -1 else 1) * (coefficient * 10 ^ exponent)

def Decimal.value {low high : ℤ} (d : Decimal low high) : ℚ :=
  valueOf d.negative d.coefficient d.exponent

/-! ## Zeros at the end -/

/-- Every coefficient but zero is one that does not end in a zero, with zeros behind it. -/
lemma exists_strip {c : ℕ} (h : 0 < c) : ∃ m k, c = m * 10 ^ k ∧ ¬ 10 ∣ m := by
  obtain ⟨k, m, hm, heq⟩ := Nat.exists_eq_pow_mul_and_not_dvd (Nat.pos_iff_ne_zero.mp h) 10
    (by norm_num)
  exact ⟨m, k, by rw [heq, Nat.mul_comm], hm⟩

lemma pos_of_not_dvd {m : ℕ} (h : ¬ 10 ∣ m) : 0 < m := by
  rcases Nat.eq_zero_or_pos m with rfl | hpos
  · exact absurd (dvd_zero 10) h
  · exact hpos

lemma toDigits_mul_pow {m : ℕ} (h : 0 < m) (k : ℕ) :
    Nat.toDigits 10 (m * 10 ^ k) = Nat.toDigits 10 m ++ List.replicate k '0' := by
  induction k with
  | zero => simp
  | succ k ih =>
    have hpos : 0 < m * 10 ^ k := Nat.mul_pos h (Nat.pow_pos (by norm_num))
    have hmul : m * 10 ^ (k + 1) = m * 10 ^ k * 10 := by rw [Nat.pow_succ, Nat.mul_assoc]
    rw [hmul, Nat.toDigits_of_base_le (by norm_num) (by omega), Nat.mul_div_cancel _ (by norm_num),
      Nat.mul_mod_left, ih, List.replicate_succ', List.append_assoc]
    rfl

/-- The last digit of a number that ten does not divide. -/
lemma last_toDigits {m : ℕ} (h : ¬ 10 ∣ m) :
    ∃ ds c, Nat.toDigits 10 m = ds ++ [c] ∧ c ≠ '0' := by
  have hne : m % 10 ≠ 0 := fun hzero => h (Nat.dvd_of_mod_eq_zero hzero)
  have hlt : m % 10 < 10 := Nat.mod_lt m (by norm_num)
  have hchar : Nat.digitChar (m % 10) ≠ '0' := by
    generalize m % 10 = d at hne hlt
    interval_cases d <;> first | exact absurd rfl hne | decide
  by_cases hsmall : m < 10
  · rw [Nat.mod_eq_of_lt hsmall] at hchar
    exact ⟨[], _, Nat.toDigits_of_lt_base hsmall, hchar⟩
  · exact ⟨_, _, Nat.toDigits_of_base_le (by norm_num) (by omega), hchar⟩

lemma rdropWhile_append_zeros {t : Text} (h : ∃ ds c, t = ds ++ [c] ∧ c ≠ '0') (k : ℕ) :
    (t ++ List.replicate k '0').rdropWhile (· = '0') = t := by
  obtain ⟨ds, c, rfl, hc⟩ := h
  induction k with
  | zero =>
    rw [List.replicate_zero, List.append_nil, List.rdropWhile_concat_neg]
    simpa using hc
  | succ k ih =>
    rw [List.replicate_succ', ← List.append_assoc, List.rdropWhile_concat_pos _ _ _ (by simp), ih]

lemma dropWhile_toDigits {m : ℕ} (h : 0 < m) :
    (Nat.toDigits 10 m).dropWhile (· = '0') = Nat.toDigits 10 m := by
  obtain ⟨c, cs, hdigits, hc, -⟩ := head_toDigits h
  rw [hdigits, List.dropWhile_cons_of_neg (by simpa using hc)]

/-- A value that is not zero has one coefficient that does not end in a zero. -/
lemma strip_unique {m n : ℕ} {e f : ℤ} (hm : ¬ 10 ∣ m) (hn : ¬ 10 ∣ n)
    (h : (m : ℚ) * 10 ^ e = n * 10 ^ f) : m = n ∧ e = f := by
  have hone : ∀ {m n : ℕ} {e f : ℤ}, ¬ 10 ∣ m → e ≤ f → (m : ℚ) * 10 ^ e = n * 10 ^ f →
      m = n ∧ e = f := by
    intro m n e f hm hle h
    obtain ⟨k, rfl⟩ := Int.le.dest hle
    have hcast : (m : ℚ) = ((n * 10 ^ k : ℕ) : ℚ) := by
      have hten : (10 : ℚ) ^ e ≠ 0 := zpow_ne_zero _ (by norm_num)
      rw [zpow_add₀ (by norm_num), mul_comm ((10 : ℚ) ^ e), ← mul_assoc] at h
      have := mul_right_cancel₀ hten h
      rw [this]
      push_cast
      rw [zpow_natCast]
    have hnat : m = n * 10 ^ k := by exact_mod_cast hcast
    rcases Nat.eq_zero_or_pos k with rfl | hk
    · simpa using hnat
    · refine absurd ?_ hm
      rw [hnat]
      exact Dvd.dvd.mul_left (dvd_pow_self 10 (by omega)) n
  rcases le_total e f with hle | hle
  · exact hone hm hle h
  · obtain ⟨hmn, hef⟩ := hone hn hle h.symm
    exact ⟨hmn.symm, hef.symm⟩

lemma valueOf_mul_pow (negative : Bool) (m k : ℕ) (e : ℤ) :
    valueOf negative (m * 10 ^ k) e = valueOf negative m (e + k) := by
  unfold valueOf
  rw [zpow_add₀ (by norm_num : (10 : ℚ) ≠ 0), zpow_natCast]
  push_cast
  ring

lemma valueOf_eq_zero {negative : Bool} {c : ℕ} {e : ℤ} :
    valueOf negative c e = 0 ↔ c = 0 := by
  have hten : (10 : ℚ) ^ e ≠ 0 := zpow_ne_zero _ (by norm_num)
  unfold valueOf
  cases negative <;> simp [hten]

/-- Values tell signs, coefficients and exponents apart. -/
lemma valueOf_inj {a b : Bool} {m n : ℕ} {e f : ℤ} (hm : ¬ 10 ∣ m) (hn : ¬ 10 ∣ n)
    (h : valueOf a m e = valueOf b n f) : a = b ∧ m = n ∧ e = f := by
  have hpos : ∀ {m : ℕ} (e : ℤ), ¬ 10 ∣ m → (0 : ℚ) < m * 10 ^ e := by
    intro m e hm
    have := pos_of_not_dvd hm
    positivity
  have hm' := hpos e hm
  have hn' := hpos f hn
  unfold valueOf at h
  cases a <;> cases b
  · exact ⟨rfl, strip_unique hm hn (by simpa using h)⟩
  · simp only [Bool.false_eq_true, if_false, if_true] at h
    linarith
  · simp only [Bool.false_eq_true, if_false, if_true] at h
    linarith
  · exact ⟨rfl, strip_unique hm hn (by simpa using h)⟩

/-! ## Texts -/

/-- The text of digits, with a fraction and an exponent where there are any. -/
def spell (whole fraction : Text) (exponent : Option ℤ) : Text :=
  whole ++ ((if fraction = [] then [] else '.' :: fraction) ++
    exponent.elim [] fun a => 'e' :: renderInt a)

/-- The digits of a whole number: no zero comes first but the only one. -/
def IsWhole (t : Text) : Prop :=
  (∀ c ∈ t, c.isDigit = true) ∧ (t = ['0'] ∨ ∃ c cs, t = c :: cs ∧ c ≠ '0')

lemma scanNat_isWhole {whole rest : Text} (h : IsWhole whole)
    (hrest : ∀ c ∈ rest.head?, c.isDigit = false) :
    scanNat (whole ++ rest) = some (whole, rest) := by
  obtain ⟨hdigits, rfl | ⟨c, cs, rfl, hc⟩⟩ := h
  · rfl
  · have hend : rest.takeWhile Char.isDigit = [] ∧ rest.dropWhile Char.isDigit = rest := by
      cases rest with
      | nil => exact ⟨rfl, rfl⟩
      | cons d ds => simp [hrest d rfl]
    have htake : ((c :: cs) ++ rest).takeWhile Char.isDigit = c :: cs := by
      rw [List.takeWhile_append_of_pos hdigits, hend.1, List.append_nil]
    have hdrop : ((c :: cs) ++ rest).dropWhile Char.isDigit = rest := by
      rw [List.dropWhile_append_of_pos hdigits, hend.2]
    rw [List.cons_append] at htake hdrop ⊢
    rw [scanNat, htake, hdrop]
    · rfl
    · exact fun ds hds => hc (List.cons.inj hds).1

lemma scanFraction_digits {fraction rest : Text} (hne : fraction ≠ [])
    (hdigits : ∀ c ∈ fraction, c.isDigit = true)
    (hrest : ∀ c ∈ rest.head?, c.isDigit = false) :
    scanFraction ('.' :: (fraction ++ rest)) = ('.' :: fraction, rest) := by
  have hend : rest.takeWhile Char.isDigit = [] ∧ rest.dropWhile Char.isDigit = rest := by
    cases rest with
    | nil => exact ⟨rfl, rfl⟩
    | cons d ds => simp [hrest d rfl]
  rw [scanFraction, List.takeWhile_append_of_pos hdigits, hend.1, List.append_nil,
    List.dropWhile_append_of_pos hdigits, hend.2]
  simp [hne]

lemma scanSign_renderInt (a : ℤ) :
    scanSign (renderInt a) = (if a < 0 then ['-'] else [], Nat.toDigits 10 a.natAbs) := by
  unfold renderInt
  split
  · rfl
  · cases hdigits : Nat.toDigits 10 a.natAbs with
    | nil => exact absurd hdigits Nat.toDigits_ne_nil
    | cons c cs =>
      have hc := isDigit_toDigits a.natAbs c (by rw [hdigits]; exact List.mem_cons_self)
      rw [scanSign]
      · intro ds hds
        rw [(List.cons.inj hds).1] at hc
        exact absurd hc (by decide)
      · intro ds hds
        rw [(List.cons.inj hds).1] at hc
        exact absurd hc (by decide)

lemma scanExponent_renderInt (a : ℤ) :
    scanExponent ('e' :: renderInt a) = ('e' :: renderInt a, []) := by
  have hall := isDigit_toDigits a.natAbs
  have htake : (Nat.toDigits 10 a.natAbs).takeWhile Char.isDigit = Nat.toDigits 10 a.natAbs :=
    List.takeWhile_eq_self_iff.mpr hall
  have hdrop : (Nat.toDigits 10 a.natAbs).dropWhile Char.isDigit = [] :=
    List.dropWhile_eq_nil_iff.mpr hall
  have hne : (Nat.toDigits 10 a.natAbs).isEmpty = false := by
    simp [Nat.toDigits_ne_nil]
  have hjoin : (if a < 0 then ['-'] else []) ++ Nat.toDigits 10 a.natAbs = renderInt a := by
    unfold renderInt
    split <;> rfl
  simp only [scanExponent, scanSign_renderInt, htake, hdrop, hne, hjoin]
  rfl

/-! ## Reading a text -/

/-- The number that an exponent names. -/
def readExponent : Text → ℤ
  | [] => 0
  | _ :: cs =>
    if (scanSign cs).1 = ['-'] then -(Nat.ofDigitChars 10 (scanSign cs).2 0 : ℤ)
    else Nat.ofDigitChars 10 (scanSign cs).2 0

/-- A number after its sign. -/
def unsignedParts (negative : Bool) (cs : Text) : Option (Bool × ℕ × ℤ) := do
  let (whole, cs) ← scanNat cs
  let (fraction, cs) := scanFraction cs
  let (exponent, _) := scanExponent cs
  return (negative, Nat.ofDigitChars 10 (whole ++ fraction.drop 1) 0,
    readExponent exponent - (fraction.drop 1).length)

/-- The sign, the coefficient and the exponent of a number of a JSON text. -/
def parts : Text → Option (Bool × ℕ × ℤ)
  | '-' :: cs => unsignedParts true cs
  | cs => unsignedParts false cs

/-- The decimal number of a text, where its exponent is one of the format. -/
def Decimal.ofToken {low high : ℤ} (t : Text) : Option (Decimal low high) := do
  let (negative, coefficient, exponent) ← parts t
  if h : low ≤ exponent ∧ exponent + (Nat.toDigits 10 coefficient).length - 1 ≤ high then
    return ⟨negative, coefficient, exponent, h.1, h.2⟩
  else none

lemma readExponent_renderInt (a : ℤ) : readExponent ('e' :: renderInt a) = a := by
  rw [readExponent, scanSign_renderInt]
  simp only [Nat.ofDigitChars_ten_toDigits]
  by_cases ha : a < 0
  · simp only [ha, if_true]
    omega
  · simp only [ha, if_false]
    rw [if_neg (by simp)]
    omega

/-- The sign of a text. -/
def signText (negative : Bool) : Text := if negative then ['-'] else []

section Spell

variable {whole fraction : Text} (exponent : Option ℤ)

lemma scan_spell (hwhole : IsWhole whole) (hfraction : ∀ c ∈ fraction, c.isDigit = true) :
    ∃ left, scanNat (spell whole fraction exponent) = some (whole, left) ∧
      scanFraction left = (if fraction = [] then [] else '.' :: fraction,
        exponent.elim [] fun a => 'e' :: renderInt a) ∧
      scanExponent (exponent.elim [] fun a => 'e' :: renderInt a) =
        (exponent.elim [] fun a => 'e' :: renderInt a, []) := by
  have hexponent : ∀ c ∈ (exponent.elim ([] : Text) fun a => 'e' :: renderInt a).head?,
      c.isDigit = false := by
    cases exponent with
    | none => exact fun c hc => nomatch hc
    | some a =>
      rintro c hc
      obtain rfl := Option.some.inj hc
      decide
  refine ⟨_, scanNat_isWhole hwhole ?_, ?_, ?_⟩
  · by_cases hnil : fraction = []
    · rw [if_pos hnil, List.nil_append]
      exact hexponent
    · rw [if_neg hnil]
      rintro c hc
      obtain rfl := Option.some.inj hc
      decide
  · by_cases hnil : fraction = []
    · rw [if_pos hnil, List.nil_append]
      cases exponent <;> simp [scanFraction]
    · rw [if_neg hnil, List.cons_append]
      exact scanFraction_digits hnil hfraction hexponent
  · cases exponent with
    | none => rfl
    | some a => exact scanExponent_renderInt a

lemma scanUnsigned_spell (sign : Text) (hwhole : IsWhole whole)
    (hfraction : ∀ c ∈ fraction, c.isDigit = true) (h : fraction ≠ [] ∨ exponent ≠ none) :
    scanUnsigned sign (spell whole fraction exponent) =
      some (.real (sign ++ spell whole fraction exponent), []) := by
  obtain ⟨left, hnat, hfrac, hexp⟩ := scan_spell exponent hwhole hfraction
  unfold scanUnsigned
  rw [hnat]
  simp only [Option.bind_eq_bind, Option.bind_some, hfrac, hexp]
  rw [if_neg]
  · simp [spell]
  · rcases h with h | h
    · simp [h]
    · obtain ⟨a, rfl⟩ := Option.ne_none_iff_exists'.mp h
      simp

lemma head_ne_minus (hwhole : IsWhole whole) (cs : Text) :
    spell whole fraction exponent ≠ '-' :: cs := by
  obtain ⟨hdigits, hhead⟩ := hwhole
  have hcons : ∃ c ds, whole = c :: ds := by
    rcases hhead with rfl | ⟨c, ds, rfl, -⟩
    · exact ⟨_, _, rfl⟩
    · exact ⟨_, _, rfl⟩
  obtain ⟨c, ds, rfl⟩ := hcons
  intro h
  have hc := hdigits c List.mem_cons_self
  rw [(List.cons.inj h).1] at hc
  exact absurd hc (by decide)

/-- A text with a fraction or an exponent is a real number of JSON. -/
lemma isRealToken_spell (negative : Bool) (hwhole : IsWhole whole)
    (hfraction : ∀ c ∈ fraction, c.isDigit = true) (h : fraction ≠ [] ∨ exponent ≠ none) :
    isRealToken (signText negative ++ spell whole fraction exponent) = true := by
  have hscan : scanNumber (signText negative ++ spell whole fraction exponent) =
      some (.real (signText negative ++ spell whole fraction exponent), []) := by
    cases negative with
    | false =>
      show scanNumber (spell whole fraction exponent) = some (.real (spell _ _ _), [])
      rw [scanNumber]
      · exact scanUnsigned_spell _ [] hwhole hfraction h
      · exact head_ne_minus _ hwhole
    | true =>
      show scanNumber ('-' :: spell whole fraction exponent) = _
      rw [scanNumber]
      exact scanUnsigned_spell _ ['-'] hwhole hfraction h
  unfold isRealToken
  rw [hscan]
  exact decide_eq_true rfl

/-- What a text is read as. -/
lemma parts_spell (negative : Bool) (hwhole : IsWhole whole)
    (hfraction : ∀ c ∈ fraction, c.isDigit = true) :
    parts (signText negative ++ spell whole fraction exponent) =
      some (negative, Nat.ofDigitChars 10 (whole ++ fraction) 0,
        exponent.getD 0 - fraction.length) := by
  obtain ⟨left, hnat, hfrac, hexp⟩ := scan_spell exponent hwhole hfraction
  have hdrop : (if fraction = [] then ([] : Text) else '.' :: fraction).drop 1 = fraction := by
    split
    · rename_i hnil
      rw [hnil]
      rfl
    · rfl
  have hread : readExponent (exponent.elim [] fun a => 'e' :: renderInt a) = exponent.getD 0 := by
    cases exponent with
    | none => rfl
    | some a => exact readExponent_renderInt a
  have hunsigned : unsignedParts negative (spell whole fraction exponent) =
      some (negative, Nat.ofDigitChars 10 (whole ++ fraction) 0,
        exponent.getD 0 - fraction.length) := by
    unfold unsignedParts
    rw [hnat]
    simp only [Option.bind_eq_bind, Option.bind_some, hfrac, hexp, hdrop, hread]
    rfl
  cases negative with
  | false =>
    show parts (spell whole fraction exponent) = _
    rw [parts]
    · exact hunsigned
    · exact head_ne_minus _ hwhole
  | true =>
    show parts ('-' :: spell whole fraction exponent) = _
    rw [parts]
    exact hunsigned

end Spell

end DecimalText
