import NexaPos.Lib.ByteLayout
import NexaPos.Lib.UtcTime
import NexaPos.Backups.DecryptingReader
import NexaPos.Backups.KeyManagement

/-!
# Encrypted artifacts

A verified package is framed as magic, the size of a header, the header, the ciphertext and its
tag.  The header is a canonical document that is authenticated with the ciphertext and carries the
wrapped data key.  Three readers take it apart: the one that authenticates a new artifact against
what it was made of, the one that restores an artifact against what the database says of it, and
the one that wraps its data key anew.  A key that was wrapped anew is kept in an envelope beside
the artifact, which stays as it is.

Files are byte strings, directories and publication are left out, and no deadline is reached.
-/

namespace NexaPos.Backups.Encryption

open JsonText StreamCipher Artifacts

open ByteLayout (slice number bytes)

open UtcTime (Moment timestamp ofTimestamp)

/-! ## Constants -/

def encryptedArtifactFormatIdentifier : Text := "nexa.encrypted-backup.v1".toList
def encryptedArtifactFormatVersion : Text := "1.0.0".toList
def encryptionAlgorithm : Text := "AES-256-GCM".toList
def packageFormatIdentifier : Text := "nexa.zip-store.v1".toList
def verificationSchemaIdentifier : Text := "nexa.package-verification-evidence.v1".toList
def verificationVersion : Text := "1.0.0".toList
def independentPackageVerifierIdentifier : Text := "independent-package-verifier-v1".toList

/-- `NEXA2F01`. -/
def artifactMagic : Bytes := [78, 69, 88, 65, 50, 70, 48, 49]

/-- The size of the magic and the size field, `>8sI`. -/
def prefixSize : ℕ := 12

def headerKeys : List Text := [
  "schema".toList, "format_version".toList, "encryption_algorithm".toList, "nonce_b64".toList,
  "wrapped_dek".toList, "plaintext_byte_count".toList, "plaintext_sha256".toList,
  "ciphertext_byte_count".toList, "verified_package_format".toList, "backup_public_id".toList,
  "tenant_public_id".toList, "verification_schema".toList, "verification_version".toList,
  "verification_provider".toList, "created_timestamp".toList]

/-! ## What the provider is given -/

/-- `EncryptionPolicy`, validated. -/
structure EncryptionPolicy where
  chunkBytes : ℕ
  maximumPlaintextBytes : ℕ
  maximumArtifactBytes : ℕ
  maximumHeaderBytes : ℕ
  chunk_range : 4096 ≤ chunkBytes ∧ chunkBytes ≤ 16 * 1024 ^ 2
  plaintext_range : 1 ≤ maximumPlaintextBytes ∧ maximumPlaintextBytes ≤ 10 * 1024 ^ 4
  artifact_range : maximumPlaintextBytes < maximumArtifactBytes ∧
    maximumArtifactBytes ≤ 10 * 1024 ^ 4 + 16 * 1024 ^ 2
  header_range : 512 ≤ maximumHeaderBytes ∧ maximumHeaderBytes ≤ 1024 ^ 2

/-- `_sha256`: 64 lower-case hexadecimal digits. -/
def isSha256 (t : Text) : Bool := t.length = 64 && t.all (· ∈ "0123456789abcdef".toList)

/-- AES-GCM and SHA-256. -/
structure Crypto where
  gcm : Gcm
  sha256 : Bytes → Text
  hexadecimal : ∀ bytes, isSha256 (sha256 bytes) = true

/-- `EncryptedArtifactProvider`: its policy and its keys. -/
structure ArtifactProvider where
  policy : EncryptionPolicy
  kekProvider : KeyProvider
  keyProviderRegistry : Option Registry
  registry_active : ∀ r ∈ keyProviderRegistry, r.active = kekProvider

/-- The public ids of a `BackupExecutionContext`, as texts. -/
structure Context where
  backupPublicId : Text
  businessPublicId : Text
  deriving DecidableEq

/-- `PackageBuildResult`. -/
structure Package where
  byteCount : ℕ
  plaintextSha256 : Text
  formatIdentifier : Text
  deriving DecidableEq

/-- `PackageVerificationResult`. -/
structure Verification where
  verificationSchema : Text
  providerIdentifier : Text
  deriving DecidableEq

/-- A request, with the time of the clock and the pieces that the reader of the package returns
before it returns nothing. -/
structure Request where
  context : Context
  package : Package
  verification : Verification
  createdAt : Moment
  pieces : List Bytes

/-- The random material of an artifact. -/
structure Material where
  dek : Bytes
  dataNonce : Bytes
  wrapNonce : Bytes

/-- `EncryptedArtifactResult`. -/
structure ArtifactResult where
  encryptedByteCount : ℕ
  ciphertextSha256 : Text
  plaintextByteCount : ℕ
  plaintextSha256 : Text
  headerSha256 : Text
  kekProviderIdentifier : Text
  kekKeyIdentifier : Text
  kekVersion : Text
  createdAt : Moment

/-! ## Headers -/

/-- The fields of a header. -/
def headerFields (r : Request) (dataNonce : Bytes) (wrapped : WrappedDek) :
    List (Text × JsonText.Value) := [
  text "schema" (.str encryptedArtifactFormatIdentifier),
  text "format_version" (.str encryptedArtifactFormatVersion),
  text "encryption_algorithm" (.str encryptionAlgorithm),
  text "nonce_b64" (b64 dataNonce),
  text "wrapped_dek" (.obj (wrappedDekFields wrapped)),
  text "plaintext_byte_count" (.int r.package.byteCount),
  text "plaintext_sha256" (.str r.package.plaintextSha256),
  text "ciphertext_byte_count" (.int r.package.byteCount),
  text "verified_package_format" (.str r.package.formatIdentifier),
  text "backup_public_id" (.str r.context.backupPublicId),
  text "tenant_public_id" (.str r.context.businessPublicId),
  text "verification_schema" (.str r.verification.verificationSchema),
  text "verification_version" (.str verificationVersion),
  text "verification_provider" (.str r.verification.providerIdentifier),
  text "created_timestamp" (.str (timestamp r.createdAt))]

/-- `_header_document`. -/
def headerDocument (r : Request) (dataNonce : Bytes) (wrapped : WrappedDek) :
    Except EncryptionError JsonText.Value := do
  let _ ← wrappedDekDocument wrapped
  return .obj (headerFields r dataNonce wrapped)

/-- A value without fractions in which no object repeats a name. -/
def isStrict (v : JsonText.Value) : Bool := v.all fun x => x.isExact && x.isPlain

/-- `_strict_header`. -/
def strictHeader (raw : Bytes) (maximumBytes : ℕ) : Option JsonText.Value := do
  if 0 < raw.length ∧ raw.length ≤ maximumBytes then
    let value ← loads (← decodeUtf8 raw)
    if isStrict value = true ∧ encodeUtf8 (encode value) = raw then return value else none
  else none

/-- A number of four bytes, the highest first. -/
def bigEndian (n : ℕ) : Bytes := (bytes 4 n).reverse

/-- The header at the start of a file, and its members. -/
def readHeader (policy : EncryptionPolicy) (file : Bytes) :
    Option (Bytes × List (Text × JsonText.Value)) := do
  let head := slice file 0 prefixSize
  let headerSize := number (head.drop 8).reverse
  if head.length = prefixSize ∧ head.take 8 = artifactMagic ∧ 0 < headerSize ∧
      headerSize ≤ policy.maximumHeaderBytes then
    let headerBytes := slice file prefixSize headerSize
    if headerBytes.length = headerSize then
      let document ← strictHeader headerBytes policy.maximumHeaderBytes
      let fields ← exactMembers headerKeys document
      return (headerBytes, fields)
    else none
  else none

/-- `_count(..., positive=True)`. -/
def countMember (fields : List (Text × JsonText.Value)) (k : String) (maximum : ℕ) : Option ℕ := do
  let n ← intMember fields k
  if 1 ≤ n ∧ n ≤ maximum then return n.toNat else none

/-- `_strict_b64` for exactly so many bytes. -/
def exactBytesMember (fields : List (Text × JsonText.Value)) (k : String) (length : ℕ) :
    Option Bytes := do
  let t ← stringMember fields k
  let bytes ← strictB64 t
  if t ≠ [] ∧ bytes.length = length then return bytes else none

/-- `_provider_for_wrapped_dek`. -/
def ArtifactProvider.providerForWrappedDek (E : ArtifactProvider) (w : WrappedDek) :
    Except EncryptionError KeyProvider :=
  raising .validation <|
    match E.keyProviderRegistry with
    | some registry => registry.resolve w
    | none => do
      refuseUnless (E.kekProvider.canUnwrap w = true) .keyProviderConfiguration
      return E.kekProvider

/-- An artifact that was opened: its header, and what the decryption context is made of. -/
structure Opened where
  headerBytes : Bytes
  fields : List (Text × JsonText.Value)
  wrapped : WrappedDek
  aead : Aead
  tag : Bytes
  ciphertextOffset : ℕ
  ciphertextCount : ℕ
  plaintextSha256 : Text

/-- The data key is unwrapped and the tag read; the file stands at the ciphertext. -/
def ArtifactProvider.openCiphertext (C : Crypto) (E : ArtifactProvider) (file headerBytes : Bytes)
    (fields : List (Text × JsonText.Value)) (dataNonce : Bytes) (wrapped : WrappedDek)
    (ciphertextCount : ℕ) (plaintextSha256 : Text) : Except EncryptionError Opened := do
  let provider ← E.providerForWrappedDek wrapped
  let dek ← provider.unwrapDek C.gcm wrapped
  let ciphertextOffset := prefixSize + headerBytes.length
  let tag := slice file (ciphertextOffset + ciphertextCount) tagBytes
  refuseUnless (tag.length = tagBytes) .validation
  return {
    headerBytes := headerBytes
    fields := fields
    wrapped := wrapped
    aead := C.gcm dek dataNonce headerBytes
    tag := tag
    ciphertextOffset := ciphertextOffset
    ciphertextCount := ciphertextCount
    plaintextSha256 := plaintextSha256 }

/-- `_parse_header`: the header has to say what the artifact was made of. -/
def ArtifactProvider.parseHeader (C : Crypto) (E : ArtifactProvider) (file : Bytes)
    (context : Context) (package : Package) (verification : Verification)
    (result : ArtifactResult) : Except EncryptionError Opened :=
  raising .validation do
    let (headerBytes, fields) ← orRefuse (readHeader E.policy file) .validation
    let wrappedDocument ← orRefuse (member fields "wrapped_dek".toList) .validation
    let dataNonce ← orRefuse (exactBytesMember fields "nonce_b64" nonceBytes) .validation
    let wrapped ← wrappedDekFromDocument wrappedDocument
    let plaintextCount ← orRefuse (countMember fields "plaintext_byte_count"
      E.policy.maximumPlaintextBytes) .validation
    let ciphertextCount ← orRefuse (countMember fields "ciphertext_byte_count"
      E.policy.maximumPlaintextBytes) .validation
    let plaintextSha256 ← orRefuse (stringMember fields "plaintext_sha256") .validation
    refuseUnless (isSha256 plaintextSha256 = true) .validation
    refuseUnless (stringMember fields "schema" = some encryptedArtifactFormatIdentifier ∧
      stringMember fields "format_version" = some encryptedArtifactFormatVersion ∧
      stringMember fields "encryption_algorithm" = some encryptionAlgorithm ∧
      plaintextCount = package.byteCount ∧
      ciphertextCount = package.byteCount ∧
      plaintextSha256 = package.plaintextSha256 ∧
      stringMember fields "verified_package_format" = some package.formatIdentifier ∧
      stringMember fields "backup_public_id" = some context.backupPublicId ∧
      stringMember fields "tenant_public_id" = some context.businessPublicId ∧
      stringMember fields "verification_schema" = some verification.verificationSchema ∧
      stringMember fields "verification_version" = some verificationVersion ∧
      stringMember fields "verification_provider" = some verification.providerIdentifier ∧
      stringMember fields "created_timestamp" = some (timestamp result.createdAt) ∧
      wrapped.providerIdentifier = result.kekProviderIdentifier ∧
      wrapped.keyIdentifier = result.kekKeyIdentifier ∧
      wrapped.keyVersion = result.kekVersion ∧
      C.sha256 headerBytes = result.headerSha256) .validation
    refuseUnless (file.length = prefixSize + headerBytes.length + ciphertextCount + tagBytes ∧
      file.length = result.encryptedByteCount) .validation
    E.openCiphertext C file headerBytes fields dataNonce wrapped ciphertextCount plaintextSha256

/-- The wrapped key that counts: the one of the envelope, if there is one. -/
def currentDek (embedded : WrappedDek) (envelope : Text) : Except EncryptionError WrappedDek :=
  if envelope ≠ [] then deserializeWrappedDek envelope else .ok embedded

/-- `_parse_restored_header`: the header has to say what the code that restores knows, and the
wrapped key, of the envelope if there is one, has to be the key of the database. -/
def ArtifactProvider.parseRestoredHeader (C : Crypto) (E : ArtifactProvider) (file : Bytes)
    (context : Context) (expectedKeyIdentifier encryptedDataKeyEnvelope : Text) :
    Except EncryptionError Opened :=
  raising .validation do
    refuseUnless (expectedKeyIdentifier ≠ [] ∧ expectedKeyIdentifier.length ≤ 255) .validation
    let (headerBytes, fields) ← orRefuse (readHeader E.policy file) .validation
    let wrappedDocument ← orRefuse (member fields "wrapped_dek".toList) .validation
    let dataNonce ← orRefuse (exactBytesMember fields "nonce_b64" nonceBytes) .validation
    let embedded ← wrappedDekFromDocument wrappedDocument
    let wrapped ← currentDek embedded encryptedDataKeyEnvelope
    let plaintextCount ← orRefuse (countMember fields "plaintext_byte_count"
      E.policy.maximumPlaintextBytes) .validation
    let ciphertextCount ← orRefuse (countMember fields "ciphertext_byte_count"
      E.policy.maximumPlaintextBytes) .validation
    let plaintextSha256 ← orRefuse (stringMember fields "plaintext_sha256") .validation
    refuseUnless (isSha256 plaintextSha256 = true) .validation
    let createdTimestamp ← orRefuse (stringMember fields "created_timestamp") .validation
    let _ ← orRefuse (ofTimestamp createdTimestamp) .validation
    let persistedKeyIdentifier ← wrappedDekKeyIdentifier wrapped
    refuseUnless (stringMember fields "schema" = some encryptedArtifactFormatIdentifier ∧
      stringMember fields "format_version" = some encryptedArtifactFormatVersion ∧
      stringMember fields "encryption_algorithm" = some encryptionAlgorithm ∧
      plaintextCount = ciphertextCount ∧
      stringMember fields "verified_package_format" = some packageFormatIdentifier ∧
      stringMember fields "backup_public_id" = some context.backupPublicId ∧
      stringMember fields "tenant_public_id" = some context.businessPublicId ∧
      stringMember fields "verification_schema" = some verificationSchemaIdentifier ∧
      stringMember fields "verification_version" = some verificationVersion ∧
      stringMember fields "verification_provider" = some independentPackageVerifierIdentifier ∧
      persistedKeyIdentifier = expectedKeyIdentifier) .validation
    refuseUnless (file.length = prefixSize + headerBytes.length + ciphertextCount + tagBytes)
      .validation
    E.openCiphertext C file headerBytes fields dataNonce wrapped ciphertextCount plaintextSha256

/-! ## Reading the plaintext -/

/-- A file that is read from a position on. -/
def fileSource (file : Bytes) : Source ℕ where
  read size position :=
    let chunk := (file.drop position).take size
    (.bytes chunk, position + chunk.length)

/-- The reader of an opened artifact; its deadline is not reached. -/
def Opened.setting (C : Crypto) (P : EncryptionPolicy) (o : Opened) : Setting where
  aead := o.aead
  tag := o.tag
  sha256 := C.sha256
  chunkBytes := P.chunkBytes
  chunkBytes_pos := Nat.lt_of_lt_of_le (by decide) P.chunk_range.1
  ciphertextBytes := o.ciphertextCount
  expectedCount := o.ciphertextCount
  expectedSha256 := o.plaintextSha256
  expired _ := false
  expired_mono _ h := h

/-- `while reader.read(chunk_bytes): ...`, with what was read before. -/
def drain {σ : Type} (S : Setting) (source : Source σ) :
    ℕ → Artifacts.Reader σ → Bytes → Except Failure Bytes
  | 0, _, _ => .error .rejected
  | fuel + 1, r, out =>
    match r.read S source (some S.chunkBytes) with
    | (.error e, _) => .error e
    | (.ok [], _) => .ok out
    | (.ok (b :: bs), r') => drain S source fuel r' (out ++ b :: bs)

/-- The plaintext of an opened artifact. -/
def Opened.plaintext (C : Crypto) (P : EncryptionPolicy) (file : Bytes) (o : Opened) :
    Except EncryptionError Bytes :=
  match drain (o.setting C P) (fileSource file) (o.ciphertextCount + 1)
      (Artifacts.Reader.new (o.setting C P) o.ciphertextOffset) [] with
  | .ok plaintext => .ok plaintext
  | .error _ => .error .validation

/-! ## Framing -/

/-- `_validate_request`.  The evidence of the package is the one that building it left, which
names its format. -/
def ArtifactProvider.validateRequest (E : ArtifactProvider) (r : Request) :
    Except EncryptionError Unit :=
  refuseUnless (r.verification.providerIdentifier = independentPackageVerifierIdentifier ∧
    r.verification.verificationSchema = verificationSchemaIdentifier ∧
    0 < r.package.byteCount ∧ r.package.byteCount ≤ E.policy.maximumPlaintextBytes ∧
    isSha256 r.package.plaintextSha256 = true ∧
    r.package.formatIdentifier = packageFormatIdentifier) .coordination

/-- `_new_material`: what it checks of the random bytes. -/
def validateMaterial (m : Material) : Except EncryptionError Unit :=
  refuseUnless (m.dek.length = keyBytes ∧ m.dataNonce.length = nonceBytes ∧
    m.wrapNonce.length = nonceBytes ∧ m.dataNonce ≠ m.wrapNonce) .creation

/-- What the loop over the package has done so far. -/
structure Sealing where
  plaintext : Bytes
  ciphertext : Bytes

/-- One round of the loop. -/
def sealPiece (A : Aead) (chunkBytes byteCount : ℕ) (s : Sealing) (piece : Bytes) :
    Except EncryptionError Sealing := do
  refuseUnless (piece.length ≤ chunkBytes) .creation
  refuseUnless (s.plaintext.length + piece.length ≤ byteCount) .validation
  let sealed := combine A.keystream s.plaintext.length piece
  refuseUnless (sealed.length = piece.length) .creation
  return { plaintext := s.plaintext ++ piece, ciphertext := s.ciphertext ++ sealed }

/-- The pieces up to the first empty one. -/
def Request.read (r : Request) : List Bytes := r.pieces.takeWhile (!·.isEmpty)

/-- A framed artifact that was not authenticated yet. -/
structure Framed where
  artifact : Bytes
  headerBytes : Bytes
  wrapped : WrappedDek
  result : ArtifactResult

/-- `encrypt_verified_package` up to the artifact and its candidate result. -/
def ArtifactProvider.frame (C : Crypto) (E : ArtifactProvider) (r : Request) (m : Material)
    (kmsRequest : ℕ) : Except EncryptionError Framed := do
  E.validateRequest r
  validateMaterial m
  let wrapped ← E.kekProvider.wrapDek C.gcm kmsRequest m.dek m.wrapNonce
  let document ← headerDocument r m.dataNonce wrapped
  let headerBytes := encodeUtf8 (encode document)
  refuseUnless (0 < headerBytes.length ∧ headerBytes.length ≤ E.policy.maximumHeaderBytes) .policy
  let head := artifactMagic ++ bigEndian headerBytes.length
  let expected := head.length + headerBytes.length + r.package.byteCount + tagBytes
  refuseUnless (expected ≤ E.policy.maximumArtifactBytes) .policy
  -- `_capacity_check`
  refuseUnless (prefixSize + E.policy.maximumHeaderBytes + r.package.byteCount + tagBytes ≤
    E.policy.maximumArtifactBytes) .policy
  let A := C.gcm m.dek m.dataNonce headerBytes
  let sealing ← r.read.foldlM (sealPiece A E.policy.chunkBytes r.package.byteCount) ⟨[], []⟩
  refuseUnless (sealing.plaintext.length = r.package.byteCount ∧
    C.sha256 sealing.plaintext = r.package.plaintextSha256) .validation
  let tag := A.tag sealing.ciphertext
  refuseUnless (tag.length = tagBytes) .creation
  let artifact := head ++ headerBytes ++ sealing.ciphertext ++ tag
  refuseUnless (artifact.length = expected) .creation
  return {
    artifact := artifact
    headerBytes := headerBytes
    wrapped := wrapped
    result := {
      encryptedByteCount := expected
      ciphertextSha256 := C.sha256 artifact
      plaintextByteCount := r.package.byteCount
      plaintextSha256 := r.package.plaintextSha256
      headerSha256 := C.sha256 headerBytes
      kekProviderIdentifier := wrapped.providerIdentifier
      kekKeyIdentifier := wrapped.keyIdentifier
      kekVersion := wrapped.keyVersion
      createdAt := r.createdAt } }

/-- `_authenticate_path`. -/
def ArtifactProvider.authenticate (C : Crypto) (E : ArtifactProvider) (r : Request) (f : Framed) :
    Except EncryptionError Unit := do
  let opened ← E.parseHeader C f.artifact r.context r.package r.verification f.result
  let _ ← opened.plaintext C E.policy f.artifact
  return ()

/-- `encrypt_verified_package`: the artifact is published once it was authenticated. -/
def ArtifactProvider.encryptVerifiedPackage (C : Crypto) (E : ArtifactProvider) (r : Request)
    (m : Material) (kmsRequest : ℕ) : Except EncryptionError Framed := do
  let framed ← E.frame C r m kmsRequest
  E.authenticate C r framed
  return framed

/-! ## The database row -/

/-- What a `BackupRecord` knows of its artifact. -/
structure ArtifactRow where
  context : Context
  backupSizeBytes : ℕ
  wholeArtifactHash : Text
  encryptionKeyIdentifier : Text
  encryptedDataKeyEnvelope : Text
  deriving DecidableEq

/-- The row of a new artifact. -/
def Framed.row (r : Request) (f : Framed) (keyIdentifier : Text) : ArtifactRow where
  context := r.context
  backupSizeBytes := f.result.encryptedByteCount
  wholeArtifactHash := f.result.ciphertextSha256
  encryptionKeyIdentifier := keyIdentifier
  encryptedDataKeyEnvelope := []

/-- The checks of the size and the digest of a file, which is read to its end before anything
else. -/
def ArtifactProvider.checkFile (C : Crypto) (E : ArtifactProvider) (file : Bytes)
    (row : ArtifactRow) (e : EncryptionError) : Except EncryptionError Unit := do
  refuseUnless (1 ≤ row.backupSizeBytes ∧
    row.backupSizeBytes ≤ E.policy.maximumArtifactBytes) e
  refuseUnless (isSha256 row.wholeArtifactHash = true) e
  refuseUnless (file.length ≤ E.policy.maximumArtifactBytes) e
  refuseUnless (file.length = row.backupSizeBytes ∧ C.sha256 file = row.wholeArtifactHash) e

/-- `open_restored_plaintext`, read to its end. -/
def ArtifactProvider.restore (C : Crypto) (E : ArtifactProvider) (file : Bytes)
    (row : ArtifactRow) : Except EncryptionError Bytes := do
  E.checkFile C file row .validation
  let opened ← E.parseRestoredHeader C file row.context row.encryptionKeyIdentifier
    row.encryptedDataKeyEnvelope
  opened.plaintext C E.policy file

/-! ## Wrapping anew -/

/-- `RewrappedArtifactKeyResult`. -/
structure Rewrapped where
  previousKeyIdentifier : Text
  newKeyIdentifier : Text
  previousEnvelope : Text
  newEnvelope : Text
  deriving DecidableEq

/-- The provider that is asked to wrap: the active provider itself, or another object. -/
inductive RewrapTarget
  | active
  | other (provider : KeyProvider)

/-- The provider of a target. -/
def ArtifactProvider.target (E : ArtifactProvider) : RewrapTarget → KeyProvider
  | .active => E.kekProvider
  | .other provider => provider

/-- With a registry only its active provider is a target. -/
def ArtifactProvider.admits (E : ArtifactProvider) : RewrapTarget → Bool
  | .active => true
  | .other _ => E.keyProviderRegistry.isNone

/-- `rewrap_encrypted_artifact_key`. -/
def ArtifactProvider.rewrap (C : Crypto) (E : ArtifactProvider) (file : Bytes) (row : ArtifactRow)
    (target : RewrapTarget) (wrapNonce : Bytes) (kmsRequest : ℕ) :
    Except EncryptionError Rewrapped :=
  raising .keyRewrap do
    refuseUnless (row.encryptionKeyIdentifier ≠ [] ∧ E.admits target = true) .keyRewrap
    E.checkFile C file row .keyRewrap
    let (headerBytes, fields) ← orRefuse (readHeader E.policy file) .keyRewrap
    let wrappedDocument ← orRefuse (member fields "wrapped_dek".toList) .keyRewrap
    let embedded ← wrappedDekFromDocument wrappedDocument
    let ciphertextCount ← orRefuse (countMember fields "ciphertext_byte_count"
      E.policy.maximumPlaintextBytes) .keyRewrap
    refuseUnless (stringMember fields "schema" = some encryptedArtifactFormatIdentifier ∧
      stringMember fields "format_version" = some encryptedArtifactFormatVersion ∧
      stringMember fields "encryption_algorithm" = some encryptionAlgorithm ∧
      stringMember fields "backup_public_id" = some row.context.backupPublicId ∧
      stringMember fields "tenant_public_id" = some row.context.businessPublicId ∧
      prefixSize + headerBytes.length + ciphertextCount + tagBytes = row.backupSizeBytes)
      .keyRewrap
    let current ← currentDek embedded row.encryptedDataKeyEnvelope
    let currentIdentifier ← wrappedDekKeyIdentifier current
    refuseUnless (currentIdentifier = row.encryptionKeyIdentifier) .keyRewrap
    let source ← E.providerForWrappedDek current
    let dek ← source.unwrapDek C.gcm current
    refuseUnless (wrapNonce.length = nonceBytes) .keyRewrap
    let wrapped ← (E.target target).wrapDek C.gcm kmsRequest dek wrapNonce
    refuseUnless ((E.target target).canUnwrap wrapped = true) .keyRewrap
    let verified ← (E.target target).unwrapDek C.gcm wrapped
    refuseUnless (dek = verified) .keyRewrap
    let newIdentifier ← wrappedDekKeyIdentifier wrapped
    let newEnvelope ← serializeWrappedDek wrapped
    return {
      previousKeyIdentifier := row.encryptionKeyIdentifier
      newKeyIdentifier := newIdentifier
      previousEnvelope := row.encryptedDataKeyEnvelope
      newEnvelope := newEnvelope }

/-- `publish_rewrapped_key_metadata`: the row that still has what was read. -/
def ArtifactRow.publish (row : ArtifactRow) (x : Rewrapped) : ArtifactRow :=
  if x.previousKeyIdentifier = row.encryptionKeyIdentifier ∧
      x.previousEnvelope = row.encryptedDataKeyEnvelope then
    { row with
      encryptionKeyIdentifier := x.newKeyIdentifier
      encryptedDataKeyEnvelope := x.newEnvelope }
  else row

end NexaPos.Backups.Encryption
