import NexaPos.Lib.StreamCipher
import NexaPos.Core.Inputs

/-!
# Reading an encrypted artifact

The reader that decrypts an artifact while it is read.  Its source is any object with a `read`
method; the answers of the source, the digest and the clock of the deadline are parameters, and
the cipher is a keystream with a tag.  What a call changes before it fails stays changed.
-/

namespace NexaPos.Backups.Artifacts

open StreamCipher

/-! ## Sources -/

/-- What a call of `read` on the source comes to. -/
inductive SourceAnswer
  | bytes (chunk : Bytes)
  /-- An object that is not a byte string. -/
  | other
  /-- An `OSError` or a `ValueError`. -/
  | ioError
  /-- Any other exception. -/
  | raised
  deriving DecidableEq, Repr

/-- A source of ciphertext, with its own state. -/
structure Source (σ : Type) where
  read : ℕ → σ → SourceAnswer × σ

/-- The bytes of an answer. -/
def SourceAnswer.delivered : SourceAnswer → Bytes
  | bytes chunk => chunk
  | _ => []

/-- The source reads a byte string in order, from a position, and runs short only at its end; it
may fail at any time, and stays where it is then. -/
def Source.Delivers {σ : Type} (source : Source σ) (content : Bytes) (position : σ → ℕ) : Prop :=
  ∀ size file, match source.read size file with
    | (.bytes chunk, file') => chunk = (content.drop (position file)).take size ∧
        position file' = position file + chunk.length
    | (_, file') => position file' = position file

/-! ## The reader -/

/-- Which check of a call failed.  A deadline in the middle of a read raises the error of the
caller's choice, and an exception of the source that is no `OSError` or `ValueError` passes
through; all others are `EncryptedArtifactValidationError`. -/
inductive Failure
  | closed
  | malformedSize
  | deadline
  | source
  | rejected
  deriving DecidableEq, Repr

/-- What the reader is given and does not change. -/
structure Setting where
  aead : Aead
  tag : Bytes
  sha256 : Bytes → Text
  chunkBytes : ℕ
  chunkBytes_pos : 0 < chunkBytes
  ciphertextBytes : ℕ
  expectedCount : ℕ
  expectedSha256 : Text
  /-- Whether the deadline has passed when it is checked for the `n`-th time. -/
  expired : ℕ → Bool
  /-- `time.monotonic` does not go back. -/
  expired_mono : ∀ n, expired n = true → expired (n + 1) = true

/-- `_DecryptingReader`.  `hashed` is what the digest has been fed, and `delivered` what the
source has answered so far, used or not. -/
structure Reader (σ : Type) where
  file : σ
  decryptor : Decryptor
  remaining : ℕ
  count : ℕ
  hashed : Bytes
  finalized : Bool
  closed : Bool
  checks : ℕ
  delivered : Bytes

variable {σ : Type}

/-- A new reader over a source. -/
def Reader.new (S : Setting) (file : σ) : Reader σ where
  file := file
  decryptor := .fresh
  remaining := S.ciphertextBytes
  count := 0
  hashed := []
  finalized := false
  closed := false
  checks := 0
  delivered := []

/-- The deadline has been checked once more. -/
def Reader.checked (r : Reader σ) : Reader σ := { r with checks := r.checks + 1 }

/-- `_DecryptingReader._finalize`. -/
def Reader.finalize (S : Setting) (r : Reader σ) : Except Failure Unit × Reader σ :=
  if r.finalized then (.ok (), r)
  else if S.expired r.checks then (.error .deadline, r.checked)
  else
    match r.decryptor.finalize S.aead S.tag with
    | .error _ => (.error .rejected, r.checked)
    | .ok (tail, decryptor) =>
      let r' := { r.checked with
        decryptor := decryptor
        count := r.count + tail.length
        hashed := r.hashed ++ tail }
      if r'.count ≠ S.expectedCount ∨ S.sha256 r'.hashed ≠ S.expectedSha256 then
        (.error .rejected, r')
      else (.ok (), { r' with finalized := true })

/-- The plaintext of the last piece is released once the stream is finalized. -/
def Reader.release (S : Setting) (plaintext : Bytes) (r : Reader σ) :
    Except Failure Bytes × Reader σ :=
  if r.remaining = 0 then
    match r.finalize S with
    | (.ok (), r') => (.ok plaintext, r')
    | (.error e, r') => (.error e, r')
  else (.ok plaintext, r)

/-- A piece of the requested length is decrypted and counted. -/
def Reader.accept (S : Setting) (ciphertext : Bytes) (r : Reader σ) :
    Except Failure Bytes × Reader σ :=
  match r.decryptor.update S.aead ciphertext with
  | .error _ => (.error .rejected, r)
  | .ok (plaintext, decryptor) =>
    if plaintext.length ≠ ciphertext.length then
      (.error .rejected, { r with decryptor := decryptor })
    else
      let r' := { r with
        decryptor := decryptor
        remaining := r.remaining - ciphertext.length
        count := r.count + plaintext.length }
      if S.expectedCount < r'.count then (.error .rejected, r')
      else Reader.release S plaintext { r' with hashed := r.hashed ++ plaintext }

/-- The deadline was checked and the source has answered. -/
def Reader.answered (r : Reader σ) (answer : SourceAnswer) (file : σ) : Reader σ :=
  { r.checked with file := file, delivered := r.delivered ++ answer.delivered }

/-- One piece is read from the source. -/
def Reader.readPiece (S : Setting) (source : Source σ) (requested : ℕ) (r : Reader σ) :
    Except Failure Bytes × Reader σ :=
  if S.expired r.checks then (.error .deadline, r.checked)
  else
    let (answer, file) := source.read requested r.file
    match answer with
    | .bytes ciphertext =>
      if ciphertext.length ≠ requested then (.error .source, r.answered answer file)
      else Reader.accept S ciphertext (r.answered answer file)
    | _ => (.error .source, r.answered answer file)

/-- What a call asks for: a negative size is the size of a chunk. -/
def Setting.requested (S : Setting) (size : ℤ) : ℕ :=
  if size < 0 then S.chunkBytes else min size.toNat S.chunkBytes

/-- `_DecryptingReader.read`; a size that is not an integer is `none`. -/
def Reader.read (S : Setting) (source : Source σ) (size : Option ℤ) (r : Reader σ) :
    Except Failure Bytes × Reader σ :=
  if r.closed then (.error .closed, r)
  else if r.remaining = 0 then
    match r.finalize S with
    | (.ok (), r') => (.ok [], r')
    | (.error e, r') => (.error e, r')
  else
    match size with
    | none => (.error .malformedSize, r)
    | some size =>
      if S.requested size = 0 then (.ok [], r)
      else Reader.readPiece S source (min (S.requested size) r.remaining) r

/-! ## Sequences of calls -/

/-- A call of `read`: its size, its result and the reader it leaves. -/
structure Call (σ : Type) where
  size : Option ℤ
  result : Except Failure Bytes
  reader : Reader σ

/-- The calls of a sequence of sizes. -/
def calls (S : Setting) (source : Source σ) : Reader σ → List (Option ℤ) → List (Call σ)
  | _, [] => []
  | r, size :: sizes =>
    let (result, r') := r.read S source size
    ⟨size, result, r'⟩ :: calls S source r' sizes

/-- The bytes of a result. -/
def bytesOf : Except Failure Bytes → Bytes
  | .ok bytes => bytes
  | .error _ => []

/-- The bytes a call returns. -/
def Call.returned (c : Call σ) : Bytes := bytesOf c.result

/-- The reader after a sequence of calls. -/
def readAll (S : Setting) (source : Source σ) (r : Reader σ) (sizes : List (Option ℤ)) :
    Reader σ :=
  sizes.foldl (fun r size => (r.read S source size).2) r

/-- The bytes that calls have returned, in order. -/
def released (cs : List (Call σ)) : Bytes := cs.flatMap Call.returned

/-- The call reports the end of the stream: it returns nothing although it asked for something,
or it returns the last bytes. -/
def Call.ReportsEnd (c : Call σ) : Prop :=
  (c.result = .ok [] ∧ c.size ≠ some 0) ∨
    ∃ bytes, c.result = .ok bytes ∧ bytes ≠ [] ∧ c.reader.remaining = 0

/-- The call failed. -/
def Call.Fails (c : Call σ) : Prop := ∃ e, c.result = .error e

/-- The call failed although its size was an integer and the source gave what it was asked for:
the deadline has passed, or the artifact is not authentic. -/
def Call.FailsForGood (c : Call σ) : Prop :=
  ∃ e, c.result = .error e ∧ e ≠ .malformedSize ∧ e ≠ .source

end NexaPos.Backups.Artifacts
