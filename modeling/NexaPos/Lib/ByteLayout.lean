import Mathlib.Data.List.Forall2
import Mathlib.Algebra.Ring.Nat
import Mathlib.Algebra.BigOperators.Group.List.Basic
import Mathlib.Tactic.Common

/-!
# Byte layouts

Fixed records of little-endian numbers in a byte string: the numbers (`number`, `bytes`), the
layouts (`Struct`, with `pack` and `unpack` inverse to each other where the values fit), and the
slices of a byte string, which follow each other without a gap (`drop_eq_slice_append`).
-/

namespace ByteLayout

abbrev Bytes := List UInt8

/-! ## Little-endian numbers -/

/-- The number that bytes write, the lowest byte first. -/
def number : Bytes → ℕ
  | [] => 0
  | b :: bs => b.toNat + 256 * number bs

/-- A number in so many bytes. -/
def bytes : ℕ → ℕ → Bytes
  | 0, _ => []
  | w + 1, n => UInt8.ofNat n :: bytes w (n / 256)

@[simp] lemma length_bytes (w n : ℕ) : (bytes w n).length = w := by
  induction w generalizing n with
  | zero => rfl
  | succ w ih => simp [bytes, ih]

lemma number_lt (bs : Bytes) : number bs < 256 ^ bs.length := by
  induction bs with
  | nil => simp [number]
  | cons b bs ih =>
    have hb := b.toNat_lt
    simp only [number, List.length_cons, Nat.pow_succ]
    omega

lemma number_bytes {w n : ℕ} (h : n < 256 ^ w) : number (bytes w n) = n := by
  induction w generalizing n with
  | zero =>
    simp only [Nat.pow_zero] at h
    simp only [bytes, number]
    omega
  | succ w ih =>
    have hrest : n / 256 < 256 ^ w := by
      rw [Nat.pow_succ] at h
      omega
    simp only [bytes, number, ih hrest, UInt8.toNat_ofNat']
    omega

lemma bytes_number (bs : Bytes) : bytes bs.length (number bs) = bs := by
  induction bs with
  | nil => rfl
  | cons b bs ih =>
    have hb := b.toNat_lt
    have hdiv : (b.toNat + 256 * number bs) / 256 = number bs := by omega
    have hlow : UInt8.ofNat (b.toNat + 256 * number bs) = b := by
      apply UInt8.toNat_inj.mp
      rw [UInt8.toNat_ofNat']
      omega
    simp only [List.length_cons, number, bytes, hdiv, hlow, ih]

/-- Different numbers have different bytes. -/
lemma number_inj {bs cs : Bytes} (hlength : bs.length = cs.length) (h : number bs = number cs) :
    bs = cs := by
  rw [← bytes_number bs, ← bytes_number cs, hlength, h]

/-! ## Slices -/

/-- `width` bytes from an offset on, or what there is of them. -/
def slice (bs : Bytes) (offset width : ℕ) : Bytes := (bs.drop offset).take width

lemma length_slice (bs : Bytes) (offset width : ℕ) :
    (slice bs offset width).length = min width (bs.length - offset) := by
  simp [slice]

lemma length_slice_eq_iff {bs : Bytes} {offset width : ℕ} (h : 0 < width) :
    (slice bs offset width).length = width ↔ offset + width ≤ bs.length := by
  rw [length_slice]
  omega

/-- What stands from an offset on: a slice, and what stands after it. -/
lemma drop_eq_slice_append (bs : Bytes) (offset width : ℕ) :
    bs.drop offset = slice bs offset width ++ bs.drop (offset + width) := by
  rw [slice, ← List.drop_drop, List.take_append_drop]

lemma slice_of_drop {bs xs ys : Bytes} {offset : ℕ} (h : bs.drop offset = xs ++ ys) :
    slice bs offset xs.length = xs := by
  rw [slice, h, List.take_left]

lemma drop_of_drop {bs xs ys : Bytes} {offset : ℕ} (h : bs.drop offset = xs ++ ys) :
    bs.drop (offset + xs.length) = ys := by
  rw [← List.drop_drop, h, List.drop_left]

/-! ## Layouts -/

/-- The numbers of fields of the given widths. -/
def cut : List ℕ → Bytes → List ℕ
  | [], _ => []
  | w :: ws, raw => number (raw.take w) :: cut ws (raw.drop w)

/-- Numbers in fields of the given widths. -/
def join : List ℕ → List ℕ → Bytes
  | w :: ws, v :: vs => bytes w v ++ join ws vs
  | _, _ => []

/-- Every number fits its field. -/
def Fit : List ℕ → List ℕ → Prop := List.Forall₂ fun w v => v < 256 ^ w

@[simp] lemma length_cut (ws : List ℕ) (raw : Bytes) : (cut ws raw).length = ws.length := by
  induction ws generalizing raw with
  | nil => rfl
  | cons w ws ih => simp [cut, ih]

lemma length_join {ws vs : List ℕ} (h : vs.length = ws.length) : (join ws vs).length = ws.sum := by
  induction ws generalizing vs with
  | nil => cases vs <;> rfl
  | cons w ws ih =>
    cases vs with
    | nil => simp at h
    | cons v vs =>
      simp only [List.length_cons, Nat.add_right_cancel_iff] at h
      simp [join, ih h]

lemma fit_cut {ws : List ℕ} {raw : Bytes} (h : ws.sum ≤ raw.length) : Fit ws (cut ws raw) := by
  induction ws generalizing raw with
  | nil => exact .nil
  | cons w ws ih =>
    rw [List.sum_cons] at h
    have hrest : ws.sum ≤ (raw.drop w).length := by
      rw [List.length_drop]
      omega
    refine .cons ?_ (ih hrest)
    have hlt := number_lt (raw.take w)
    rwa [List.length_take_of_le (by omega)] at hlt

lemma join_cut {ws : List ℕ} {raw : Bytes} (h : raw.length = ws.sum) :
    join ws (cut ws raw) = raw := by
  induction ws generalizing raw with
  | nil =>
    simp only [List.sum_nil, List.length_eq_zero_iff] at h
    simp [join, h]
  | cons w ws ih =>
    rw [List.sum_cons] at h
    have htake : (raw.take w).length = w := List.length_take_of_le (by omega)
    have hfirst : bytes w (number (raw.take w)) = raw.take w := by
      have hbytes := bytes_number (raw.take w)
      rwa [htake] at hbytes
    have hdrop : (raw.drop w).length = ws.sum := by
      rw [List.length_drop]
      omega
    rw [cut, join, hfirst, ih hdrop, List.take_append_drop]

lemma cut_join {ws vs : List ℕ} (h : Fit ws vs) : cut ws (join ws vs) = vs := by
  induction h with
  | nil => rfl
  | @cons w v ws vs hv _ ih =>
    have htake : (bytes w v ++ join ws vs).take w = bytes w v :=
      List.take_left' (length_bytes w v)
    have hdrop : (bytes w v ++ join ws vs).drop w = join ws vs :=
      List.drop_left' (length_bytes w v)
    simp only [join, cut, htake, hdrop, number_bytes hv, ih]

/-- A fixed layout of numbers, read as a record. -/
structure Struct (α : Type) where
  widths : List ℕ
  values : α → List ℕ
  ofValues : List ℕ → α
  ofValues_values : ∀ a, ofValues (values a) = a
  values_ofValues : ∀ vs, vs.length = widths.length → values (ofValues vs) = vs

namespace Struct

variable {α : Type} (s : Struct α)

/-- How many bytes the record takes. -/
def size : ℕ := s.widths.sum

def unpack (raw : Bytes) : α := s.ofValues (cut s.widths raw)

def pack (a : α) : Bytes := join s.widths (s.values a)

/-- Every value fits its field. -/
def Fits (a : α) : Prop := Fit s.widths (s.values a)

variable {s}

lemma values_unpack (raw : Bytes) : s.values (s.unpack raw) = cut s.widths raw :=
  s.values_ofValues _ (length_cut _ _)

lemma pack_unpack {raw : Bytes} (h : raw.length = s.size) : s.pack (s.unpack raw) = raw := by
  rw [pack, values_unpack]
  exact join_cut h

lemma fits_unpack {raw : Bytes} (h : raw.length = s.size) : s.Fits (s.unpack raw) := by
  rw [Fits, values_unpack]
  exact fit_cut (Nat.le_of_eq h.symm)

lemma unpack_pack {a : α} (h : s.Fits a) : s.unpack (s.pack a) = a := by
  rw [unpack, pack, cut_join h, s.ofValues_values]

lemma length_pack {a : α} (h : s.Fits a) : (s.pack a).length = s.size :=
  length_join h.length_eq.symm

end Struct

end ByteLayout
