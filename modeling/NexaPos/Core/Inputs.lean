import NexaPos.Core.Money

/-!
# Untrusted input and text

Callers hand the services what a form or an API client sent.  The services read it with a few
conversions that can each fail, and which failure is reported depends on how far the conversion
got; the types here keep exactly that much of the raw value.

Texts that the code takes apart (prefixes, codes, tokens) are lists of characters, and only the
string methods the code calls on them are defined.  Texts it merely copies into messages stay
`String`s.
-/

namespace NexaPos

/-! ## Numbers -/

/-- A decimal literal: a coefficient and a power of ten, as Python's `Decimal` keeps them. -/
structure Decimal where
  coefficient : ℤ
  exponent : ℤ
  deriving DecidableEq, Repr

/-- The number a decimal literal denotes. -/
def Decimal.value (d : Decimal) : ℚ := d.coefficient * (10 : ℚ) ^ d.exponent

/-- What `Decimal(str(raw).strip())` makes of a raw cell. -/
inductive Cell
  /-- Missing or blank. -/
  | blank
  /-- Not a number. -/
  | invalid
  /-- `NaN` or an infinity. -/
  | nonFinite
  | number (d : Decimal)
  deriving DecidableEq, Repr

/-! ## Choices and flags -/

/-- A raw value that should name a member of `α`. -/
inductive RawChoice (α : Type)
  /-- The key is absent or its value is `None`. -/
  | missing
  /-- The empty string. -/
  | blank
  /-- A text that names no member. -/
  | unknown
  | value (a : α)
  deriving DecidableEq, Repr

namespace RawChoice

variable {α : Type}

/-- The member the raw value names, if any. -/
def toOption : RawChoice α → Option α
  | value a => some a
  | _ => none

/-- The raw value is falsy after `str(raw or "").strip()`. -/
def isBlank : RawChoice α → Bool
  | missing => true
  | blank => true
  | _ => false

end RawChoice

/-! ## Text -/

/-- A text that the code takes apart. -/
abbrev Text := List Char

instance : LawfulBEq Text := inferInstance

namespace Text

/-- `str.isspace()`, of one character. -/
def isSpace (c : Char) : Bool :=
  9 ≤ c.toNat && c.toNat ≤ 13 || 28 ≤ c.toNat && c.toNat ≤ 32 ||
    0x2000 ≤ c.toNat && c.toNat ≤ 0x200A ||
    [0x85, 0xA0, 0x1680, 0x2028, 0x2029, 0x202F, 0x205F, 0x3000].contains c.toNat

/-- `str.rstrip()`. -/
def rstrip (t : Text) : Text := (t.reverse.dropWhile isSpace).reverse

/-- `str.strip()`. -/
def strip (t : Text) : Text := rstrip (t.dropWhile isSpace)

/-- `str.casefold()`, on the ASCII letters. -/
def casefold (t : Text) : Text := t.map Char.toLower

/-- `a or b` on texts: the first non-empty one. -/
def orElse (a b : Text) : Text := if a = [] then b else a

end Text

end NexaPos
