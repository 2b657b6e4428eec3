import Mathlib.Data.UInt
import Mathlib.Data.List.Basic

/-!
# Stream ciphers with a tag

An authenticated stream cipher combines each byte with the byte of a keystream at the same place,
and tells from a tag whether the whole ciphertext is the one that was sealed.  The keystream and
the tag of a key, a nonce and associated data are the parameters; the operations are those of a
decryption context that is fed pieces of the ciphertext.
-/

namespace StreamCipher

abbrev Bytes := List UInt8

/-- The bytes combined with the keystream from a place on. -/
def combine (keystream : ℕ → UInt8) : ℕ → Bytes → Bytes
  | _, [] => []
  | place, b :: bytes => (b ^^^ keystream place) :: combine keystream (place + 1) bytes

variable {keystream : ℕ → UInt8}

@[simp] lemma combine_nil (place : ℕ) : combine keystream place [] = [] := rfl

@[simp] lemma length_combine (place : ℕ) (bytes : Bytes) :
    (combine keystream place bytes).length = bytes.length := by
  induction bytes generalizing place with
  | nil => rfl
  | cons b bytes ih => simp [combine, ih]

/-- A piece is combined from the place where the pieces before it end. -/
lemma combine_append (place : ℕ) (xs ys : Bytes) :
    combine keystream place (xs ++ ys) =
      combine keystream place xs ++ combine keystream (place + xs.length) ys := by
  induction xs generalizing place with
  | nil => simp
  | cons x xs ih =>
    rw [List.cons_append, combine, combine, ih, List.cons_append, List.length_cons]
    congr 3
    omega

/-- Combining twice gives the bytes back. -/
lemma combine_combine (place : ℕ) (bytes : Bytes) :
    combine keystream place (combine keystream place bytes) = bytes := by
  induction bytes generalizing place with
  | nil => rfl
  | cons b bytes ih =>
    rw [combine, combine, ih, UInt8.xor_assoc, UInt8.xor_self, UInt8.xor_zero]

lemma combine_isPrefix {place : ℕ} {xs ys : Bytes} (h : xs <+: ys) :
    combine keystream place xs <+: combine keystream place ys := by
  obtain ⟨zs, rfl⟩ := h
  rw [combine_append]
  exact List.prefix_append _ _

/-- A cipher under one key, nonce and associated data. -/
structure Aead where
  keystream : ℕ → UInt8
  /-- The tag that seals a ciphertext. -/
  tag : Bytes → Bytes

namespace Aead

variable (A : Aead)

/-- The plaintext of a ciphertext that starts at the beginning of the keystream. -/
def decrypt (ciphertext : Bytes) : Bytes := combine A.keystream 0 ciphertext

/-- The ciphertext of a plaintext. -/
def encrypt (plaintext : Bytes) : Bytes := combine A.keystream 0 plaintext

lemma decrypt_encrypt (plaintext : Bytes) : A.decrypt (A.encrypt plaintext) = plaintext :=
  combine_combine 0 plaintext

lemma decrypt_isPrefix {xs ys : Bytes} (h : xs <+: ys) : A.decrypt xs <+: A.decrypt ys :=
  combine_isPrefix h

end Aead

/-- Why a decryption context refuses. -/
inductive Refusal
  | alreadyFinalized
  | invalidTag
  deriving DecidableEq, Repr

/-- A decryption context: the ciphertext it has been fed, and whether it was finalized. -/
structure Decryptor where
  taken : Bytes
  finalized : Bool
  deriving DecidableEq, Repr

namespace Decryptor

/-- A context that was fed nothing yet. -/
def fresh : Decryptor := ⟨[], false⟩

/-- Feed the next piece. -/
def update (A : Aead) (d : Decryptor) (piece : Bytes) : Except Refusal (Bytes × Decryptor) :=
  if d.finalized then .error .alreadyFinalized
  else .ok (combine A.keystream d.taken.length piece, { d with taken := d.taken ++ piece })

/-- Compare the tag; a context that refuses it stays as it is. -/
def finalize (A : Aead) (tag : Bytes) (d : Decryptor) : Except Refusal (Bytes × Decryptor) :=
  if d.finalized then .error .alreadyFinalized
  else if A.tag d.taken = tag then .ok ([], { d with finalized := true })
  else .error .invalidTag

lemma update_eq_ok {A : Aead} {d d' : Decryptor} {piece plain : Bytes} :
    d.update A piece = .ok (plain, d') ↔ d.finalized = false ∧
      plain = combine A.keystream d.taken.length piece ∧
      d' = { d with taken := d.taken ++ piece } := by
  unfold update
  cases d.finalized <;> simp [eq_comm]

lemma finalize_eq_ok {A : Aead} {tag tail : Bytes} {d d' : Decryptor} :
    d.finalize A tag = .ok (tail, d') ↔ d.finalized = false ∧ A.tag d.taken = tag ∧
      tail = [] ∧ d' = { d with finalized := true } := by
  unfold finalize
  cases d.finalized <;> by_cases h : A.tag d.taken = tag <;> simp [h, eq_comm]

end Decryptor

end StreamCipher
