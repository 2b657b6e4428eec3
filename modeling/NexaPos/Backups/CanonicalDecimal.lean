import NexaPos.Backups.CanonicalJson

/-!
# Canonical decimals

`canonical_decimal` writes the value of a decimal field with the number of fractional digits that
the field declares.  The arithmetic is that of the `decimal` module: `quantize` under a context
whose precision is chosen for the value, with the exponents of the default context.

A text is modelled as far as ASCII goes: other digits and spaces of Unicode are left out.
-/

namespace NexaPos.Backups.CanonicalJson

open JsonText (Text)

/-! ## Decimals from values -/

/-- The decimal of a sign, a coefficient and an exponent, where the module has one. -/
def ofParts (negative : Bool) (coefficient : ℕ) (exponent : ℤ) : Option PyDecimal :=
  if h : -1999999999999999997 ≤ exponent ∧
      exponent + (Nat.toDigits 10 coefficient).length - 1 ≤ 999999999999999999 then
    some ⟨negative, coefficient, exponent, h.1, h.2⟩
  else none

/-- The spaces that `strip` removes. -/
def isBlank (c : Char) : Bool :=
  c ∈ [' ', '\t', '\n', '\r', '\x0b', '\x0c', '\x1c', '\x1d', '\x1e', '\x1f']

def strip (s : Text) : Text := (s.dropWhile isBlank).rdropWhile isBlank

/-- A sign, and what comes behind it. -/
def takeSign : Text → Bool × Text
  | '-' :: cs => (true, cs)
  | '+' :: cs => (false, cs)
  | cs => (false, cs)

/-- The digits behind a point. -/
def takeFraction : Text → Text × Text
  | '.' :: cs => (cs.takeWhile Char.isDigit, cs.dropWhile Char.isDigit)
  | cs => ([], cs)

/-- An exponent, with nothing behind it. -/
def takeExponent : Text → Option ℤ
  | [] => some 0
  | c :: cs =>
    let (negative, digits) := takeSign cs
    if (c = 'e' ∨ c = 'E') ∧ digits ≠ [] ∧ digits.all Char.isDigit then
      some (if negative then -(Nat.ofDigitChars 10 digits 0 : ℤ) else Nat.ofDigitChars 10 digits 0)
    else none

/-- `Decimal(value)` for a text, where it is a finite number. -/
def decimalOfText (value : Text) : Option PyDecimal := do
  let (negative, cs) := takeSign ((strip value).filter (· ≠ '_'))
  let whole := cs.takeWhile Char.isDigit
  let (fraction, cs) := takeFraction (cs.dropWhile Char.isDigit)
  if whole ++ fraction = [] then none
  else
    let exponent ← takeExponent cs
    ofParts negative (Nat.ofDigitChars 10 (whole ++ fraction) 0) (exponent - fraction.length)

/-- A value that `canonical_decimal` is given. -/
inductive DecimalInput
  | decimal (d : PyDecimal)
  | int (n : ℤ)
  | str (s : Text)
  /-- A decimal that is no number, a float, a truth value, or anything else. -/
  | other

/-- `Decimal(value)`, where it is a finite number. -/
def DecimalInput.parsed : DecimalInput → Option PyDecimal
  | .decimal d => some d
  | .int n => ofParts (decide (n < 0)) n.natAbs 0
  | .str s => decimalOfText s
  | .other => none

/-! ## Arithmetic -/

/-- `MAX_PREC`. -/
def maxPrec : ℕ := 999999999999999999

/-- `Emax`; `Emin` is its negation. -/
def maxExponent : ℤ := 999999

/-- The least exponent of a context. -/
def tinyExponent (prec : ℕ) : ℤ := -maxExponent - (prec - 1)

/-- `len(digits)`. -/
def digitCount (coefficient : ℕ) : ℕ := (Nat.toDigits 10 coefficient).length

/-- The coefficient with its last digits rounded away. -/
def shiftRight (coefficient digits : ℕ) : ℕ :=
  (Rounding.roundHalfEven ((coefficient : ℚ) / 10 ^ digits)).toNat

/-- The coefficient of the same number, or of the nearest one, with another exponent. -/
def rescale (d : PyDecimal) (exponent : ℤ) : ℕ :=
  if exponent ≤ d.exponent then d.coefficient * 10 ^ (d.exponent - exponent).toNat
  else shiftRight d.coefficient (exponent - d.exponent).toNat

/-- `quantize` to an exponent. -/
def quantize (prec : ℕ) (d : PyDecimal) (exponent : ℤ) : Option PyDecimal :=
  if maxExponent < exponent ∨ exponent < tinyExponent prec then none
  else if d.coefficient = 0 then ofParts d.negative 0 exponent
  else if prec < digitCount d.coefficient + (d.exponent - exponent) then none
  else
    let coefficient := rescale d exponent
    let adjusted := exponent + digitCount coefficient - 1
    if prec < digitCount coefficient then none
    else if maxExponent < adjusted ∨ adjusted < tinyExponent prec then none
    else ofParts d.negative coefficient exponent

/-- The exponent of `Decimal(1).scaleb(-decimal_places)` in the default context. -/
def quantumExponent (decimalPlaces : ℤ) : Option ℤ :=
  if 2 * (maxExponent + 28) < decimalPlaces.natAbs then none
  else if maxExponent < -decimalPlaces then none
  else some (max (-decimalPlaces) (tinyExponent 28))

/-! ## The text -/

/-- A coefficient with a point before some of its digits, and enough zeros before them. -/
def fixedText (negative : Bool) (coefficient places : ℕ) : Text :=
  let digits := Nat.toDigits 10 coefficient
  let padded := List.replicate (places + 1 - digits.length) '0' ++ digits
  let split := padded.length - places
  (if negative then ['-'] else []) ++
    (padded.take split ++ if places = 0 then [] else '.' :: padded.drop split)

/-- `format(value, f".{decimal_places}f")`. -/
def formatFixed (d : PyDecimal) (decimalPlaces : ℤ) : Option Text :=
  if decimalPlaces < 0 then none
  else some (fixedText d.negative (rescale d (-decimalPlaces)) decimalPlaces.toNat)

/-- `required_precision`. -/
def requiredPrecision (d : PyDecimal) (decimalPlaces : ℤ) : ℕ :=
  digitCount d.coefficient + d.exponent.toNat + decimalPlaces.toNat + 2

/-- `copy_abs` of a zero. -/
def absZero (d : PyDecimal) : PyDecimal :=
  if d.coefficient = 0 then { d with negative := false } else d

/-- `canonical_decimal`. -/
def canonicalDecimal (value : DecimalInput) (decimalPlaces : ℤ) : Option Text := do
  let parsed ← value.parsed
  let quantum ← quantumExponent decimalPlaces
  let prec := max 28 (requiredPrecision parsed decimalPlaces)
  if maxPrec < prec then none
  else
    let normalized ← quantize prec parsed quantum
    if normalized.value ≠ parsed.value then none
    else
      let rendered ← formatFixed (absZero normalized) decimalPlaces
      if 64 < ((rendered.dropWhile (· = '-')).filter (· ≠ '.')).length then none
      else return rendered

end NexaPos.Backups.CanonicalJson
