import NexaPos.Backups.EncryptedArtifact

/-!
# Uploads to S3-compatible storage

An encrypted artifact becomes an object by one put, or, from a configured size on, by parts that
the service puts together.  The configuration is validated once; an artifact is admitted by its
size, its digest and its key; and the size of a part is the configured one, or a larger one where
the configured size would take more parts than the service allows.

The object is a new one, the calls of the client succeed, and the reading of URLs and SHA-256 are
given.
-/

namespace NexaPos.Backups.S3Storage

open StreamCipher Encryption

/-! ## Errors -/

/-- The errors of the provider, as far as a new upload raises them. -/
inductive DurableStorageError
  | policy
  | creation
  | validation
  deriving DecidableEq, Repr

/-- A check that raises an error. -/
def refuseIf (p : Prop) [Decidable p] (e : DurableStorageError) :
    Except DurableStorageError Unit :=
  if p then .error e else .ok ()

@[simp] lemma refuseIf_eq_ok {p : Prop} [Decidable p] {e : DurableStorageError} {u : Unit} :
    refuseIf p e = .ok u ↔ ¬ p := by
  rw [refuseIf]
  split <;> simp_all

/-! ## Limits -/

/-- `_MIN_PART_BYTES`. -/
def minPartBytes : ℕ := 5 * 1024 ^ 2

/-- `_MAX_PART_BYTES`. -/
def maxPartBytes : ℕ := 512 * 1024 ^ 2

/-- `_MAX_S3_OBJECT_BYTES`. -/
def maxS3ObjectBytes : ℕ := 5 * 1024 ^ 4

/-- `_MAX_MULTIPART_PARTS`. -/
def maxMultipartParts : ℕ := 10000

/-! ## Texts of a configuration -/

/-- `_safe_text`. -/
def safeText (value : Text) (maximum : ℕ) (allowEmpty : Bool) :
    Except DurableStorageError Text := do
  let candidate := Text.strip value
  refuseIf (candidate = [] ∧ ¬ allowEmpty ∨ maximum < candidate.length) .policy
  refuseIf (candidate.any fun c => c = '\x00' || c = '\r' || c = '\n') .policy
  return candidate

def isLowerOrDigit (c : Char) : Bool := c.isLower || c.isDigit

/-- `_BUCKET`. -/
def isBucket (t : Text) : Bool :=
  3 ≤ t.length && t.length ≤ 255 && t.head?.any isLowerOrDigit && t.getLast?.any isLowerOrDigit &&
    t.all fun c => isLowerOrDigit c || c = '.' || c = '-'

/-- `_SAFE_COMPONENT`. -/
def isSafeComponent (t : Text) : Bool :=
  t.head?.any Char.isAlphanum && t.tail.all fun c => c.isAlphanum || c ∈ "._-".toList

/-- Two dots in a row. -/
def hasDoubleDot : Text → Bool
  | [] => false
  | c :: t => c = '.' && t.head? = some '.' || hasDoubleDot t

/-- `rstrip("/")`. -/
def withoutTrailingSlashes (t : Text) : Text := (t.reverse.dropWhile (· = '/')).reverse

/-- The characters that no key has. -/
def hasUnsafeChar (t : Text) : Bool := t.any (· ∈ "\\?#".toList)

/-- `normalize_s3_prefix`. -/
def normalizeS3Prefix (value : Text) : Except DurableStorageError Text := do
  let raw ← safeText value 200 true
  refuseIf (raw.head? = some '/') .policy
  let stripped := withoutTrailingSlashes raw
  if stripped = [] then return []
  refuseIf (hasUnsafeChar stripped) .policy
  let components := stripped.splitOn '/'
  refuseIf (components.any fun t =>
    t = [] || t = ".".toList || t = "..".toList || !isSafeComponent t) .policy
  return ['/'].intercalate components

/-- What `urlsplit` reads off a URL, with `None` as an empty text. -/
structure SplitUrl where
  scheme : Text
  hostname : Text
  username : Text
  password : Text
  path : Text
  query : Text
  fragment : Text

/-- `_endpoint`. -/
def endpoint (urlsplit : Text → SplitUrl) (value : Text) : Except DurableStorageError Text := do
  let candidate ← safeText value 500 false
  let parsed := urlsplit candidate
  refuseIf (parsed.scheme ≠ "https".toList ∨ parsed.hostname = [] ∨ parsed.username ≠ [] ∨
    parsed.password ≠ [] ∨ parsed.query ≠ [] ∨ parsed.fragment ≠ [] ∨
    parsed.path ≠ [] ∧ parsed.path ≠ ['/']) .policy
  return withoutTrailingSlashes candidate

/-- `_credential`. -/
def credential (value : Text) (maximum : ℕ) : Except DurableStorageError Text := do
  refuseIf (value = [] ∨ maximum < value.length ∨ value ≠ Text.strip value ∨
    value.any fun c => Text.isSpace c || c = '\x00') .policy
  return value

/-! ## The configuration -/

/-- `S3StorageConfiguration`, as the settings give it or validated. -/
structure S3StorageConfiguration where
  bucket : Text
  region : Text
  endpointUrl : Text
  accessKeyId : Text
  secretAccessKey : Text
  keyPrefix : Text
  addressingStyle : Text
  multipartThresholdBytes : ℤ
  multipartPartBytes : ℤ
  connectTimeoutSeconds : ℚ
  readTimeoutSeconds : ℚ
  maximumObjectBytes : ℤ
  chunkBytes : ℤ
  deriving DecidableEq

namespace S3StorageConfiguration

/-- `numeric`. -/
def Numeric (c : S3StorageConfiguration) : Prop :=
  (5 * 1024 ^ 2 ≤ c.multipartThresholdBytes ∧ c.multipartThresholdBytes ≤ 5 * 1024 ^ 4) ∧
  ((minPartBytes : ℤ) ≤ c.multipartPartBytes ∧ c.multipartPartBytes ≤ maxPartBytes) ∧
  (1 ≤ c.maximumObjectBytes ∧ c.maximumObjectBytes ≤ 10 * 1024 ^ 4 + 16 * 1024 ^ 2) ∧
  (4096 ≤ c.chunkBytes ∧ c.chunkBytes ≤ 16 * 1024 ^ 2)

instance decidableNumeric (c : S3StorageConfiguration) : Decidable c.Numeric :=
  inferInstanceAs (Decidable (_ ∧ _))

/-- `bounded_timeouts`. -/
def BoundedTimeouts (c : S3StorageConfiguration) : Prop :=
  ∀ value ∈ [c.connectTimeoutSeconds, c.readTimeoutSeconds], 1 ≤ value ∧ value ≤ 300

instance decidableBoundedTimeouts (c : S3StorageConfiguration) : Decidable c.BoundedTimeouts :=
  inferInstanceAs (Decidable (∀ _ ∈ _, _))

/-- `S3StorageConfiguration.validated`. -/
def validated (urlsplit : Text → SplitUrl) (c : S3StorageConfiguration) :
    Except DurableStorageError S3StorageConfiguration := do
  let bucket ← safeText c.bucket 255 false
  let region ← safeText c.region 64 false
  refuseIf (63 < bucket.length ∨ hasDoubleDot bucket ∨ ¬ isBucket bucket ∨
    ¬ isSafeComponent region) .policy
  let endpointUrl ← endpoint urlsplit c.endpointUrl
  let accessKeyId ← credential c.accessKeyId 255
  let secretAccessKey ← credential c.secretAccessKey 1024
  let keyPrefix ← normalizeS3Prefix c.keyPrefix
  refuseIf (c.addressingStyle ∉ ["auto".toList, "path".toList, "virtual".toList]) .policy
  refuseIf (¬ c.Numeric ∨ ¬ c.BoundedTimeouts) .policy
  return { c with
    bucket, region, endpointUrl, accessKeyId, secretAccessKey, keyPrefix
    maximumObjectBytes := min c.maximumObjectBytes maxS3ObjectBytes }

end S3StorageConfiguration

/-! ## Admission -/

/-- `_object_key`. -/
def objectKey (c : S3StorageConfiguration) (context : Context) :
    Except DurableStorageError Text := do
  let base := context.businessPublicId ++ '/' :: context.backupPublicId ++ "/artifact.bin".toList
  let key := if c.keyPrefix = [] then base else c.keyPrefix ++ '/' :: base
  refuseIf (500 < key.length ∨ hasDoubleDot key ∨ hasUnsafeChar key) .creation
  return key

/-- The checks of `store_encrypted_artifact` before anything is sent; the key of the object. -/
def admittedKey (c : S3StorageConfiguration) (context : Context) (source : ArtifactResult) :
    Except DurableStorageError Text := do
  let key ← objectKey c context
  refuseIf (source.encryptedByteCount < 1 ∨ c.maximumObjectBytes < source.encryptedByteCount ∨
    ¬ isSha256 source.ciphertextSha256) .validation
  return key

/-! ## Uploads -/

/-- An encrypted artifact in its staging directory.  That the file is the one that was published,
with its size and digest, is checked whenever it is opened. -/
structure StagedArtifact (sha256 : Bytes → Text) where
  source : ArtifactResult
  content : Bytes
  length_content : content.length = source.encryptedByteCount
  sha256_content : sha256 content = source.ciphertextSha256

/-- The arguments of `upload_part`. -/
structure Part where
  partNumber : ℕ
  body : Bytes
  deriving DecidableEq

/-- What is sent to the service for one artifact. -/
inductive Upload
  | putObject (bucket key : Text) (body : Bytes)
  | multipart (bucket key : Text) (parts : List Part)

variable {sha256 : Bytes → Text}

/-- `_put_single`. -/
def putSingle (c : S3StorageConfiguration) (a : StagedArtifact sha256) (key : Text) :
    Except DurableStorageError Upload := do
  refuseIf (a.content.length ≠ a.source.encryptedByteCount ∨
    sha256 a.content ≠ a.source.ciphertextSha256) .validation
  return .putObject c.bucket key a.content

/-- The size of a part. -/
def partBytes (c : S3StorageConfiguration) (encryptedByteCount : ℕ) : ℤ :=
  max c.multipartPartBytes ((encryptedByteCount + maxMultipartParts - 1) / maxMultipartParts)

/-- The loop of `_put_multipart`: the parts from `partNumber` on, where `rest` is what the reader
has left and `byteCount` what it has delivered. -/
def uploadParts (size declared partNumber byteCount : ℕ) (rest : Bytes) :
    Except DurableStorageError (List Part) :=
  if rest.take size = [] then .ok []
  else do
    let chunk := rest.take size
    refuseIf (declared < byteCount + chunk.length) .validation
    let parts ←
      uploadParts size declared (partNumber + 1) (byteCount + chunk.length) (rest.drop size)
    return ⟨partNumber, chunk⟩ :: parts
termination_by rest.length
decreasing_by
  rename_i h
  obtain ⟨hsize, hrest⟩ := not_or.mp (mt List.take_eq_nil_iff.mpr h)
  have hpos : 0 < rest.length := List.length_pos_iff.mpr hrest
  rw [List.length_drop]
  omega

/-- `_put_multipart`. -/
def putMultipart (c : S3StorageConfiguration) (a : StagedArtifact sha256) (key : Text) :
    Except DurableStorageError Upload := do
  let size := partBytes c a.source.encryptedByteCount
  refuseIf (maxPartBytes < size) .policy
  let parts ← uploadParts size.toNat a.source.encryptedByteCount 1 0 a.content
  let sent := (parts.map Part.body).flatten
  refuseIf (sent.length ≠ a.source.encryptedByteCount ∨ sha256 sent ≠ a.source.ciphertextSha256)
    .validation
  return .multipart c.bucket key parts

/-- The upload of `store_encrypted_artifact`. -/
def uploadArtifact (c : S3StorageConfiguration) (a : StagedArtifact sha256) (key : Text) :
    Except DurableStorageError Upload :=
  if c.multipartThresholdBytes ≤ a.source.encryptedByteCount then putMultipart c a key
  else putSingle c a key

/-- `store_encrypted_artifact`, of an artifact that has no object yet. -/
def storeEncryptedArtifact (c : S3StorageConfiguration) (context : Context)
    (a : StagedArtifact sha256) : Except DurableStorageError Upload := do
  let key ← admittedKey c context a.source
  uploadArtifact c a key

end NexaPos.Backups.S3Storage
