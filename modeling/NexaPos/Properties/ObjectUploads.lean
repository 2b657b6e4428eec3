import NexaPos.Backups.S3Upload

/-!
# Uploads within the limits of the service

The parts of an upload are cut from the artifact one after the other: all but the last have the
whole size, so that their number follows from the size.  A part of the configured size is large
enough, and a larger one is only taken where there would be too many parts.

An artifact that is admitted can still be too large for a legal upload: a single put below a
threshold of more than 5 GiB, and a multipart upload whose parts would have to be larger than
512 MiB.
-/

namespace NexaPos.Backups.S3Storage

open StreamCipher Encryption

/-! ## Limits of the service -/

/-- The limits that the service documents for a single put and for a multipart upload. -/
def Upload.Legal : Upload → Prop
  | .putObject _ _ body => body.length ≤ 5 * 1024 ^ 3
  | .multipart _ _ parts =>
    parts.map Part.partNumber = List.range' 1 parts.length ∧ parts.length ≤ 10000 ∧
    (∀ p ∈ parts, p.body.length ≤ 5 * 1024 ^ 3) ∧
    ∀ p ∈ parts.dropLast, 5 * 1024 ^ 2 ≤ p.body.length

/-- The bytes of the object that an upload makes. -/
def Upload.bytes : Upload → Bytes
  | .putObject _ _ body => body
  | .multipart _ _ parts => (parts.map Part.body).flatten

/-- The sizes for which there is a legal upload. -/
def S3StorageConfiguration.Uploads (c : S3StorageConfiguration) (size : ℕ) : Prop :=
  (c.multipartThresholdBytes ≤ size → size ≤ maxMultipartParts * maxPartBytes) ∧
  (size < c.multipartThresholdBytes → size ≤ 5 * 1024 ^ 3)

/-! ## Parts -/

/-- Parts of a size, numbered from `n` on, that make up a byte string. -/
structure Cut (size n : ℕ) (content : Bytes) (parts : List Part) : Prop where
  joined : (parts.map Part.body).flatten = content
  numbered : parts.map Part.partNumber = List.range' n parts.length
  bounded : ∀ p ∈ parts, p.body.length ≤ size
  full : ∀ p ∈ parts.dropLast, p.body.length = size
  counted : parts.length * size < content.length + size

lemma Cut.nil {size n : ℕ} (h : 0 < size) : Cut size n [] [] where
  joined := List.flatten_nil
  numbered := List.range'_zero.symm
  bounded := fun _ hp => nomatch hp
  full := fun _ hp => nomatch hp
  counted := by simpa using h

lemma Cut.cons {size n : ℕ} {content : Bytes} {parts : List Part} (hne : content ≠ [])
    (h : Cut size (n + 1) (content.drop size) parts) :
    Cut size n content (⟨n, content.take size⟩ :: parts) where
  joined := by
    rw [List.map_cons, List.flatten_cons, h.joined, List.take_append_drop]
  numbered := by
    rw [List.map_cons, h.numbered, List.length_cons, List.range'_succ]
  bounded := by
    intro p hp
    rcases List.mem_cons.mp hp with rfl | hp
    · exact List.length_take_le _ _
    · exact h.bounded p hp
  full := by
    cases parts with
    | nil => exact fun _ hp => nomatch hp
    | cons q parts =>
      have hlong : size ≤ content.length := by
        have hcounted := h.counted
        rw [List.length_drop, List.length_cons, Nat.succ_mul] at hcounted
        omega
      intro p hp
      rw [List.dropLast_cons_cons] at hp
      rcases List.mem_cons.mp hp with rfl | hp
      · exact List.length_take_of_le hlong
      · exact h.full p hp
  counted := by
    have hpos := List.length_pos_iff.mpr hne
    cases parts with
    | nil => simpa using hpos
    | cons q parts =>
      have hcounted := h.counted
      rw [List.length_drop, List.length_cons, Nat.succ_mul] at hcounted
      simp only [List.length_cons, Nat.succ_mul]
      omega

/-- As long as no more bytes come than were declared, the loop cuts up what is left. -/
lemma uploadParts_ok {size declared : ℕ} (n byteCount : ℕ) (rest : Bytes) (hsize : 0 < size)
    (h : byteCount + rest.length ≤ declared) :
    ∃ parts, uploadParts size declared n byteCount rest = .ok parts ∧ Cut size n rest parts := by
  induction n, byteCount, rest using uploadParts.induct size with
  | case1 n byteCount rest hend =>
    obtain rfl : rest = [] := (List.take_eq_nil_iff.mp hend).resolve_left hsize.ne'
    rw [uploadParts, if_pos hend]
    exact ⟨[], rfl, Cut.nil hsize⟩
  | case2 n byteCount rest hmore chunk ih =>
    have hne : rest ≠ [] := fun hnil => hmore (List.take_eq_nil_iff.mpr (.inr hnil))
    have hlength : chunk.length + (rest.drop size).length = rest.length := by
      rw [← List.length_append, List.take_append_drop]
    obtain ⟨parts, hparts, hcut⟩ := ih (by omega)
    have hfits : ¬ declared < byteCount + chunk.length := by omega
    refine ⟨⟨n, chunk⟩ :: parts, ?_, hcut.cons hne⟩
    rw [uploadParts, if_neg hmore]
    simp only [except_bind_eq_ok, refuseIf_eq_ok]
    exact ⟨(), hfits, parts, hparts, rfl⟩

lemma Cut.legal {size : ℕ} {content : Bytes} {parts : List Part} (bucket key : Text)
    (h : Cut size 1 content parts) (hmin : minPartBytes ≤ size) (hmax : size ≤ maxPartBytes)
    (hcount : content.length ≤ maxMultipartParts * size) :
    (Upload.multipart bucket key parts).Legal := by
  refine ⟨h.numbered, ?_, fun p hp => ?_, fun p hp => ?_⟩
  · have hcounted := h.counted
    have hlt : parts.length * size < (maxMultipartParts + 1) * size := by
      rw [Nat.succ_mul]
      omega
    exact Nat.lt_succ_iff.mp (Nat.lt_of_mul_lt_mul_right hlt)
  · have hle := h.bounded p hp
    norm_num [maxPartBytes] at hmax ⊢
    omega
  · rw [h.full p hp]
    exact hmin

/-! ## Configurations -/

/-- What a validated configuration keeps of the settings. -/
structure S3StorageConfiguration.Valid (c : S3StorageConfiguration) : Prop where
  part_ge : (minPartBytes : ℤ) ≤ c.multipartPartBytes
  part_le : c.multipartPartBytes ≤ maxPartBytes

lemma S3StorageConfiguration.valid_of_validated {urlsplit : Text → SplitUrl}
    {settings c : S3StorageConfiguration} (h : settings.validated urlsplit = .ok c) : c.Valid := by
  simp only [S3StorageConfiguration.validated, except_bind_eq_ok, refuseIf_eq_ok, not_or,
    not_not] at h
  obtain ⟨_, -, _, -, -, -, _, -, _, -, _, -, _, -, -, -, -, ⟨hnumeric, -⟩, hc⟩ := h
  obtain rfl := Except.ok.inj hc
  exact ⟨hnumeric.2.1.1, hnumeric.2.1.2⟩

/-- Settings that are as validation leaves them. -/
lemma S3StorageConfiguration.validated_eq_self {urlsplit : Text → SplitUrl}
    {c : S3StorageConfiguration} (hbucket : safeText c.bucket 255 false = .ok c.bucket)
    (hregion : safeText c.region 64 false = .ok c.region)
    (hnames : ¬ (63 < c.bucket.length ∨ hasDoubleDot c.bucket ∨ ¬ isBucket c.bucket ∨
      ¬ isSafeComponent c.region))
    (hendpoint : endpoint urlsplit c.endpointUrl = .ok c.endpointUrl)
    (haccess : credential c.accessKeyId 255 = .ok c.accessKeyId)
    (hsecret : credential c.secretAccessKey 1024 = .ok c.secretAccessKey)
    (hkeyPre : normalizeS3Prefix c.keyPrefix = .ok c.keyPrefix)
    (hstyle : c.addressingStyle ∈ ["auto".toList, "path".toList, "virtual".toList])
    (hnumeric : c.Numeric) (htimeouts : c.BoundedTimeouts)
    (hmaximum : c.maximumObjectBytes ≤ maxS3ObjectBytes) : c.validated urlsplit = .ok c := by
  simp only [S3StorageConfiguration.validated, hbucket, hregion, hendpoint, haccess, hsecret,
    hkeyPre, except_bind_eq_ok, refuseIf_eq_ok]
  refine ⟨_, rfl, _, rfl, (), hnames, _, rfl, _, rfl, _, rfl, _, rfl, (), not_not.mpr hstyle, (),
    not_or.mpr ⟨not_not.mpr hnumeric, not_not.mpr htimeouts⟩, ?_⟩
  rw [min_eq_left hmaximum]
  rfl

/-! ## Sizes of parts -/

lemma partBytes_le_iff {c : S3StorageConfiguration} (h : c.Valid) (n : ℕ) :
    partBytes c n ≤ maxPartBytes ↔ n ≤ maxMultipartParts * maxPartBytes := by
  have hpart := h.part_le
  simp only [partBytes, maxMultipartParts, maxPartBytes] at hpart ⊢
  omega

lemma minPartBytes_le {c : S3StorageConfiguration} (h : c.Valid) (n : ℕ) :
    minPartBytes ≤ (partBytes c n).toNat := by
  have hpart := h.part_ge
  simp only [partBytes, maxMultipartParts, minPartBytes] at hpart ⊢
  omega

/-- There are never more parts than the service allows. -/
lemma le_mul_partBytes (c : S3StorageConfiguration) (n : ℕ) :
    n ≤ maxMultipartParts * (partBytes c n).toNat := by
  simp only [partBytes, maxMultipartParts]
  omega

/-! ## Uploads -/

variable {sha256 : Bytes → Text}

/-- The upload is sent, within the limits, and makes the artifact. -/
def Succeeds (a : StagedArtifact sha256) (result : Except DurableStorageError Upload) : Prop :=
  ∃ upload, result = .ok upload ∧ upload.Legal ∧ upload.bytes = a.content

lemma putSingle_succeeds_iff (c : S3StorageConfiguration) (a : StagedArtifact sha256)
    (key : Text) :
    Succeeds a (putSingle c a key) ↔ a.source.encryptedByteCount ≤ 5 * 1024 ^ 3 := by
  have hput : putSingle c a key = .ok (.putObject c.bucket key a.content) := by
    simp only [putSingle, except_bind_eq_ok, refuseIf_eq_ok]
    exact ⟨(), by simp [a.length_content, a.sha256_content], rfl⟩
  rw [hput, ← a.length_content]
  constructor
  · rintro ⟨upload, hupload, hlegal, -⟩
    obtain rfl := Except.ok.inj hupload
    exact hlegal
  · exact fun hlegal => ⟨_, rfl, hlegal, rfl⟩

lemma putMultipart_succeeds_iff {c : S3StorageConfiguration} (hvalid : c.Valid)
    (a : StagedArtifact sha256) (key : Text) :
    Succeeds a (putMultipart c a key) ↔
      a.source.encryptedByteCount ≤ maxMultipartParts * maxPartBytes := by
  rw [← partBytes_le_iff hvalid]
  constructor
  · rintro ⟨upload, hupload, -⟩
    simp only [putMultipart, except_bind_eq_ok, refuseIf_eq_ok] at hupload
    obtain ⟨_, hcap, -⟩ := hupload
    exact not_lt.mp hcap
  · intro hcap
    have hmin := minPartBytes_le hvalid a.source.encryptedByteCount
    have hpos : 0 < (partBytes c a.source.encryptedByteCount).toNat :=
      lt_of_lt_of_le (by norm_num [minPartBytes]) hmin
    obtain ⟨parts, hparts, hcut⟩ :=
      uploadParts_ok 1 0 a.content hpos ((Nat.zero_add _).trans_le a.length_content.le)
    refine ⟨.multipart c.bucket key parts, ?_, ?_, hcut.joined⟩
    · simp only [putMultipart, except_bind_eq_ok, refuseIf_eq_ok]
      refine ⟨(), not_lt.mpr hcap, parts, hparts, (), ?_, rfl⟩
      rw [hcut.joined]
      simp [a.length_content, a.sha256_content]
    · refine hcut.legal c.bucket key hmin (Int.toNat_le.mpr hcap) ?_
      rw [a.length_content]
      exact le_mul_partBytes c _

lemma storeEncryptedArtifact_eq {c : S3StorageConfiguration} {context : Context}
    {a : StagedArtifact sha256} {key : Text} (h : admittedKey c context a.source = .ok key) :
    storeEncryptedArtifact c context a = uploadArtifact c a key := by
  rw [storeEncryptedArtifact, h]
  rfl

/-- An artifact that is admitted is uploaded within the limits of the service, as it is, exactly
if its size is at most 5 GiB below the threshold, and at most 10,000 parts of 512 MiB from the
threshold on. -/
theorem object_upload {urlsplit : Text → SplitUrl} {settings c : S3StorageConfiguration}
    (hvalid : settings.validated urlsplit = .ok c) {context : Context}
    {a : StagedArtifact sha256} (hadmitted : ∃ key, admittedKey c context a.source = .ok key) :
    Succeeds a (storeEncryptedArtifact c context a) ↔ c.Uploads a.source.encryptedByteCount := by
  obtain ⟨key, hkey⟩ := hadmitted
  have hvalid := S3StorageConfiguration.valid_of_validated hvalid
  rw [storeEncryptedArtifact_eq hkey, uploadArtifact]
  unfold S3StorageConfiguration.Uploads
  split_ifs with hthreshold
  · rw [putMultipart_succeeds_iff hvalid]
    constructor
    · exact fun h => ⟨fun _ => h, fun hlt => absurd hthreshold (not_le.mpr hlt)⟩
    · exact fun h => h.1 hthreshold
  · rw [putSingle_succeeds_iff]
    constructor
    · exact fun h => ⟨fun hle => absurd hle hthreshold, fun _ => h⟩
    · exact fun h => h.2 (not_le.mp hthreshold)

/-! ## Examples -/

/-- `https://objects.test`, taken apart. -/
def objectsUrl (_ : Text) : SplitUrl where
  scheme := "https".toList
  hostname := "objects.test".toList
  username := []
  password := []
  path := []
  query := []
  fragment := []

/-- The settings of a deployment, with a threshold. -/
def deployment (threshold : ℤ) : S3StorageConfiguration where
  bucket := "backups".toList
  region := "us-east-1".toList
  endpointUrl := "https://objects.test".toList
  accessKeyId := "key".toList
  secretAccessKey := "secret".toList
  keyPrefix := "nexa/backups".toList
  addressingStyle := "virtual".toList
  multipartThresholdBytes := threshold
  multipartPartBytes := 16 * 1024 ^ 2
  connectTimeoutSeconds := 10
  readTimeoutSeconds := 60
  maximumObjectBytes := 5 * 1024 ^ 4
  chunkBytes := 1024 ^ 2

lemma validated_deployment (threshold : ℤ) (hle : 5 * 1024 ^ 2 ≤ threshold)
    (hge : threshold ≤ 5 * 1024 ^ 4) :
    (deployment threshold).validated objectsUrl = .ok (deployment threshold) := by
  refine S3StorageConfiguration.validated_eq_self ?_ ?_ ?_ ?_ ?_ ?_ ?_ ?_ ⟨⟨hle, hge⟩, ?_⟩ ?_ ?_
  all_goals dsimp only [deployment, S3StorageConfiguration.BoundedTimeouts]
  case refine_9 => norm_num [minPartBytes, maxPartBytes]
  case refine_10 => norm_num
  case refine_11 => norm_num [maxS3ObjectBytes]
  all_goals decide +kernel

def backup : Context where
  backupPublicId := "0b0e7a52-44d5-4c1f-8e1b-6f0d3d8a9c11".toList
  businessPublicId := "5d3b5f7e-9f58-4a61-9d0a-2f6f7c1e4b22".toList

/-- As many zero bytes as given, with their digest. -/
def zeros (n : ℕ) (digest : Text) : StagedArtifact fun _ => digest where
  source :=
    { encryptedByteCount := n
      ciphertextSha256 := digest
      plaintextByteCount := n
      plaintextSha256 := digest
      headerSha256 := digest
      kekProviderIdentifier := localKekProviderIdentifier
      kekKeyIdentifier := "kek".toList
      kekVersion := "1".toList
      createdAt := ⟨⟨2024, 3, 1, 9, 0, 0, 0⟩, by decide⟩ }
  content := List.replicate n 0
  length_content := List.length_replicate
  sha256_content := rfl

/-- The digest of 100 MiB. -/
def digestOfMebibytes : Text :=
  "20492a4d0d84f8beb1767f6616229f85d44c2827b64bdbfb260ee12fa1109e0e".toList

/-- The digest of 5 GiB and a byte. -/
def digestOfGibibytes : Text :=
  "edcddf01fc829bf06be2b5393a9793cdd43598a0fd483c57f41a9b58183f6e33".toList

def keyOfBackup : Text :=
  ("nexa/backups/5d3b5f7e-9f58-4a61-9d0a-2f6f7c1e4b22/" ++
    "0b0e7a52-44d5-4c1f-8e1b-6f0d3d8a9c11/artifact.bin").toList

/-- 100 MiB are uploaded in parts. -/
theorem object_upload_parts :
    (deployment (64 * 1024 ^ 2)).multipartThresholdBytes ≤ 100 * 1024 ^ 2 ∧
    Succeeds (zeros (100 * 1024 ^ 2) digestOfMebibytes)
      (storeEncryptedArtifact (deployment (64 * 1024 ^ 2)) backup
        (zeros (100 * 1024 ^ 2) digestOfMebibytes)) := by
  have hvalid := validated_deployment (64 * 1024 ^ 2) (by norm_num) (by norm_num)
  have hkey : admittedKey (deployment (64 * 1024 ^ 2)) backup
      (zeros (100 * 1024 ^ 2) digestOfMebibytes).source = .ok keyOfBackup := by decide +kernel
  have hparts : (deployment (64 * 1024 ^ 2)).multipartThresholdBytes ≤ 100 * 1024 ^ 2 := by
    show (64 * 1024 ^ 2 : ℤ) ≤ 100 * 1024 ^ 2
    norm_num
  have hlimits : (deployment (64 * 1024 ^ 2)).Uploads (100 * 1024 ^ 2) := by
    refine ⟨fun _ => by norm_num [maxMultipartParts, maxPartBytes], fun hless => ?_⟩
    exact absurd hless (not_lt.mpr (by exact_mod_cast hparts))
  exact ⟨hparts, (object_upload hvalid ⟨keyOfBackup, hkey⟩).mpr hlimits⟩

/-- Below a threshold of 5 TiB, an artifact of more than 5 GiB is put at once. -/
theorem object_upload_oversized :
    (deployment (5 * 1024 ^ 4)).validated objectsUrl = .ok (deployment (5 * 1024 ^ 4)) ∧
    admittedKey (deployment (5 * 1024 ^ 4)) backup (zeros 5368709121 digestOfGibibytes).source =
      .ok keyOfBackup ∧
    ¬ Succeeds (zeros 5368709121 digestOfGibibytes)
      (storeEncryptedArtifact (deployment (5 * 1024 ^ 4)) backup
        (zeros 5368709121 digestOfGibibytes)) := by
  have hkey : admittedKey (deployment (5 * 1024 ^ 4)) backup
      (zeros 5368709121 digestOfGibibytes).source = .ok keyOfBackup := by decide +kernel
  refine ⟨validated_deployment _ (by norm_num) le_rfl, hkey, ?_⟩
  have hstore : storeEncryptedArtifact (deployment (5 * 1024 ^ 4)) backup
      (zeros 5368709121 digestOfGibibytes) =
      putSingle (deployment (5 * 1024 ^ 4)) (zeros 5368709121 digestOfGibibytes) keyOfBackup := by
    have hbelow : ¬ (deployment (5 * 1024 ^ 4)).multipartThresholdBytes ≤
        ((zeros 5368709121 digestOfGibibytes).source.encryptedByteCount : ℤ) := by
      decide +kernel
    rw [storeEncryptedArtifact_eq hkey, uploadArtifact, if_neg hbelow]
  rw [hstore, putSingle_succeeds_iff]
  decide +kernel

end NexaPos.Backups.S3Storage
