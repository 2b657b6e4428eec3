import Mathlib.Algebra.Ring.Nat
import Mathlib.Data.Nat.Basic
import Mathlib.Data.List.Basic
import Mathlib.Tactic.Common

/-!
# Times of day and date in UTC

A moment with its calendar fields, and the text of fixed width that names it to the microsecond
(`timestamp`).  A text is read by taking the fields from their places and writing them again:
what is read is exactly what is written (`ofTimestamp_timestamp`, `timestamp_ofTimestamp`).
-/

namespace UtcTime

abbrev Text := List Char

def isLeap (year : ℕ) : Bool := year % 4 = 0 && (year % 100 ≠ 0 || year % 400 = 0)

def daysIn (year month : ℕ) : ℕ :=
  if month = 2 then if isLeap year then 29 else 28
  else if month ∈ [4, 6, 9, 11] then 30
  else 31

/-- The calendar fields. -/
structure Fields where
  year : ℕ
  month : ℕ
  day : ℕ
  hour : ℕ
  minute : ℕ
  second : ℕ
  microsecond : ℕ
  deriving DecidableEq, Repr

/-- The fields name a moment of the years 1 to 9999. -/
def Fields.IsValid (f : Fields) : Prop :=
  1 ≤ f.year ∧ f.year < 10000 ∧ 1 ≤ f.month ∧ f.month ≤ 12 ∧ 1 ≤ f.day ∧
    f.day ≤ daysIn f.year f.month ∧ f.hour < 24 ∧ f.minute < 60 ∧ f.second < 60 ∧
    f.microsecond < 1000000

instance decidableFieldsIsValid (f : Fields) : Decidable f.IsValid := by
  unfold Fields.IsValid
  infer_instance

/-- A moment. -/
structure Moment where
  fields : Fields
  valid : fields.IsValid
  deriving DecidableEq

/-- A number with leading zeros. -/
def padded (width n : ℕ) : Text :=
  List.replicate (width - (Nat.toDigits 10 n).length) '0' ++ Nat.toDigits 10 n

def number (digits : Text) : ℕ := Nat.ofDigitChars 10 digits 0

lemma length_padded {width n : ℕ} (hwidth : 0 < width) (h : n < 10 ^ width) :
    (padded width n).length = width := by
  have hlength := (Nat.length_toDigits_le_iff (by omega) hwidth).mpr h
  unfold padded
  rw [List.length_append, List.length_replicate]
  omega

lemma number_padded (width n : ℕ) : number (padded width n) = n := by
  unfold number padded
  rw [Nat.ofDigitChars_append, Nat.ofDigitChars_replicate_zero, Nat.mul_zero,
    Nat.ofDigitChars_ten_toDigits]

/-- The texts of the fields, with the marks between them. -/
def joined (year month day hour minute second microsecond : Text) : Text :=
  year ++ '-' :: (month ++ '-' :: (day ++ 'T' :: (hour ++ ':' :: (minute ++ ':' :: (second ++
    '.' :: (microsecond ++ ['Z']))))))

/-- The text of a moment. -/
def timestamp (m : Moment) : Text :=
  joined (padded 4 m.fields.year) (padded 2 m.fields.month) (padded 2 m.fields.day)
    (padded 2 m.fields.hour) (padded 2 m.fields.minute) (padded 2 m.fields.second)
    (padded 6 m.fields.microsecond)

/-- The fields at their places. -/
def fieldsOf (t : Text) : Fields where
  year := number (t.take 4)
  month := number ((t.drop 5).take 2)
  day := number ((t.drop 8).take 2)
  hour := number ((t.drop 11).take 2)
  minute := number ((t.drop 14).take 2)
  second := number ((t.drop 17).take 2)
  microsecond := number ((t.drop 20).take 6)

/-- The moment of a text. -/
def ofTimestamp (t : Text) : Option Moment :=
  if h : (fieldsOf t).IsValid then
    if timestamp ⟨fieldsOf t, h⟩ = t then some ⟨fieldsOf t, h⟩ else none
  else none

lemma fieldsOf_joined {year month day hour minute second microsecond : Text}
    (hyear : year.length = 4) (hmonth : month.length = 2) (hday : day.length = 2)
    (hhour : hour.length = 2) (hminute : minute.length = 2) (hsecond : second.length = 2)
    (hmicrosecond : microsecond.length = 6) :
    fieldsOf (joined year month day hour minute second microsecond) =
      ⟨number year, number month, number day, number hour, number minute, number second,
        number microsecond⟩ := by
  unfold fieldsOf joined
  simp only [Fields.mk.injEq]
  refine ⟨?_, ?_, ?_, ?_, ?_, ?_, ?_⟩ <;>
    simp (disch := omega) [List.drop_append, List.drop_of_length_le, *]

lemma fieldsOf_timestamp (m : Moment) : fieldsOf (timestamp m) = m.fields := by
  obtain ⟨f, hvalid⟩ := m
  obtain ⟨-, hyear, -, hmonth, -, hday, hhour, hminute, hsecond, hmicrosecond⟩ := hvalid
  have hdays : daysIn f.year f.month ≤ 31 := by
    unfold daysIn
    split_ifs <;> omega
  unfold timestamp
  rw [fieldsOf_joined]
  · simp only [number_padded]
  all_goals
    refine length_padded (by omega) ?_
    dsimp only
    omega

theorem ofTimestamp_timestamp (m : Moment) : ofTimestamp (timestamp m) = some m := by
  have hfields := fieldsOf_timestamp m
  unfold ofTimestamp
  rw [dif_pos (by rw [hfields]; exact m.valid)]
  have hsame : (⟨fieldsOf (timestamp m), by rw [hfields]; exact m.valid⟩ : Moment) = m := by
    obtain ⟨f, hvalid⟩ := m
    simp only [Moment.mk.injEq]
    exact hfields
  rw [hsame, if_pos rfl]

end UtcTime
