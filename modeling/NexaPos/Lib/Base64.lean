import Mathlib.Data.List.Basic
import Mathlib.Data.UInt
import Mathlib.Tactic.IntervalCases

/-!
# Base64

Three bytes are written as four letters of six bits each, and one or two bytes at the end with
padding.  The reader takes groups of four letters and ignores the bits that padding leaves over,
so a text is the one that the writer makes of its bytes only if writing them again gives it back.
-/

namespace Base64

abbrev Bytes := List UInt8

abbrev Text := List Char

/-- The letter of six bits. -/
def letter (n : ℕ) : Char :=
  if n < 26 then Char.ofNat ('A'.toNat + n)
  else if n < 52 then Char.ofNat ('a'.toNat + (n - 26))
  else if n < 62 then Char.ofNat ('0'.toNat + (n - 52))
  else if n = 62 then '+'
  else '/'

/-- The six bits of a letter. -/
def bits (c : Char) : Option ℕ :=
  if 'A' ≤ c ∧ c ≤ 'Z' then some (c.toNat - 'A'.toNat)
  else if 'a' ≤ c ∧ c ≤ 'z' then some (c.toNat - 'a'.toNat + 26)
  else if '0' ≤ c ∧ c ≤ '9' then some (c.toNat - '0'.toNat + 52)
  else if c = '+' then some 62
  else if c = '/' then some 63
  else none

/-- The text of bytes. -/
def encode : Bytes → Text
  | a :: b :: c :: rest =>
    letter (a.toNat / 4) :: letter (a.toNat % 4 * 16 + b.toNat / 16) ::
      letter (b.toNat % 16 * 4 + c.toNat / 64) :: letter (c.toNat % 64) :: encode rest
  | [a, b] =>
    [letter (a.toNat / 4), letter (a.toNat % 4 * 16 + b.toNat / 16), letter (b.toNat % 16 * 4), '=']
  | [a] => [letter (a.toNat / 4), letter (a.toNat % 4 * 16), '=', '=']
  | [] => []

/-- The bytes of a text. -/
def decode : Text → Option Bytes
  | [] => some []
  | [p, q, '=', '='] => do
    let p ← bits p
    let q ← bits q
    return [UInt8.ofNat (p * 4 + q / 16)]
  | [p, q, r, '='] => do
    let p ← bits p
    let q ← bits q
    let r ← bits r
    return [UInt8.ofNat (p * 4 + q / 16), UInt8.ofNat (q % 16 * 16 + r / 4)]
  | p :: q :: r :: s :: rest => do
    let p ← bits p
    let q ← bits q
    let r ← bits r
    let s ← bits s
    let bytes ← decode rest
    return UInt8.ofNat (p * 4 + q / 16) :: UInt8.ofNat (q % 16 * 16 + r / 4) ::
      UInt8.ofNat (r % 4 * 64 + s) :: bytes
  | _ => none

lemma bits_letter {n : ℕ} (h : n < 64) : bits (letter n) = some n := by
  interval_cases n <;> rfl

lemma letter_ne_padding (n : ℕ) : letter n ≠ '=' := by
  unfold letter
  split_ifs with h₁ h₂ h₃
  · interval_cases n <;> decide
  · have hlow : 26 ≤ n := by omega
    interval_cases n <;> decide
  · have hlow : 52 ≤ n := by omega
    interval_cases n <;> decide
  · decide
  · decide

lemma ofNat_eq (b : UInt8) {n : ℕ} (h : n = b.toNat) : UInt8.ofNat n = b := by
  rw [h]
  exact UInt8.ofNat_toNat

/-- Four letters, the last of which is no padding, are three bytes. -/
lemma decode_cons (a b c : UInt8) (rest : Text) :
    decode (letter (a.toNat / 4) :: letter (a.toNat % 4 * 16 + b.toNat / 16) ::
      letter (b.toNat % 16 * 4 + c.toNat / 64) :: letter (c.toNat % 64) :: rest) =
      (decode rest).map fun bytes => a :: b :: c :: bytes := by
  have ha := a.toNat_lt
  have hb := b.toNat_lt
  have hc := c.toNat_lt
  rw [decode]
  · rw [bits_letter (by omega), bits_letter (by omega), bits_letter (by omega),
      bits_letter (by omega)]
    simp only [Option.bind_eq_bind, Option.bind_some]
    rw [ofNat_eq a (by omega), ofNat_eq b (by omega), ofNat_eq c (by omega)]
    cases decode rest <;> rfl
  · exact fun _ h _ => letter_ne_padding _ h
  · exact fun h _ => letter_ne_padding _ h

theorem decode_encode (bytes : Bytes) : decode (encode bytes) = some bytes := by
  induction bytes using encode.induct with
  | case1 a b c rest ih =>
    rw [encode, decode_cons, ih]
    rfl
  | case2 a b =>
    have ha := a.toNat_lt
    have hb := b.toNat_lt
    rw [encode, decode]
    · rw [bits_letter (by omega), bits_letter (by omega), bits_letter (by omega)]
      simp only [Option.bind_eq_bind, Option.bind_some]
      rw [ofNat_eq a (by omega), ofNat_eq b (by omega)]
      rfl
    · exact letter_ne_padding _
  | case3 a =>
    have ha := a.toNat_lt
    rw [encode, decode, bits_letter (by omega), bits_letter (by omega)]
    simp only [Option.bind_eq_bind, Option.bind_some]
    rw [ofNat_eq a (by omega)]
    rfl
  | case4 => rfl

lemma length_encode (bytes : Bytes) : (encode bytes).length = 4 * ((bytes.length + 2) / 3) := by
  induction bytes using encode.induct with
  | case1 a b c rest ih =>
    simp only [encode, List.length_cons, ih]
    omega
  | _ => simp [encode]

/-- The characters of a text. -/
def IsLetter (c : Char) : Prop := c = '=' ∨ ∃ n < 64, c = letter n

lemma isLetter_encode (bytes : Bytes) : ∀ c ∈ encode bytes, IsLetter c := by
  have hletter {n : ℕ} (h : n < 64) : IsLetter (letter n) := .inr ⟨n, h, rfl⟩
  induction bytes using encode.induct with
  | case1 a b c rest ih =>
    have ha := a.toNat_lt
    have hb := b.toNat_lt
    have hc := c.toNat_lt
    simp only [encode, List.forall_mem_cons]
    exact ⟨hletter (by omega), hletter (by omega), hletter (by omega), hletter (by omega), ih⟩
  | case2 a b =>
    have ha := a.toNat_lt
    have hb := b.toNat_lt
    simp only [encode, List.forall_mem_cons]
    exact ⟨hletter (by omega), hletter (by omega), hletter (by omega), .inl rfl,
      fun _ h => nomatch h⟩
  | case3 a =>
    have ha := a.toNat_lt
    simp only [encode, List.forall_mem_cons]
    exact ⟨hletter (by omega), hletter (by omega), .inl rfl, .inl rfl, fun _ h => nomatch h⟩
  | case4 => exact fun _ h => nomatch h

end Base64
