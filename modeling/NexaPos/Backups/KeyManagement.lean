import NexaPos.Lib.Base64
import NexaPos.Lib.Json
import NexaPos.Lib.StreamCipher
import NexaPos.Core.Access

/-!
# Keys of encrypted artifacts

Every artifact is encrypted under a data key of its own, and the data key is kept wrapped by a key
provider: the configured local key, or a key of the key service.  A wrapped key is written as a
document, inside the header of the artifact or in an envelope beside it, and read back only if it
is written the one canonical way.

AES-GCM is a keystream and a tag for every key, nonce and associated data, and the key service a
client whose answers are given; that it unwraps what it wrapped is a law of the client.
-/

namespace NexaPos.Backups.Encryption

open JsonText StreamCipher

/-! ## Errors -/

/-- The errors of the encryption layer.  `KeyProviderUnavailableError` is a `KeyWrapError`. -/
inductive EncryptionError
  | keyProviderConfiguration
  | keyWrap
  | keyRewrap
  | policy
  | coordination
  | creation
  | validation
  deriving DecidableEq, Repr

/-- A check that raises an error. -/
def refuseUnless (p : Prop) [Decidable p] (e : EncryptionError) : Except EncryptionError Unit :=
  if p then .ok () else .error e

@[simp] lemma refuseUnless_eq_ok {p : Prop} [Decidable p] {e : EncryptionError} {u : Unit} :
    refuseUnless p e = .ok u ↔ p := by
  unfold refuseUnless
  split <;> simp_all

/-- A value that has to be there. -/
def orRefuse {α : Type} (x : Option α) (e : EncryptionError) : Except EncryptionError α :=
  x.elim (.error e) .ok

@[simp] lemma orRefuse_eq_ok {α : Type} {x : Option α} {e : EncryptionError} {a : α} :
    orRefuse x e = .ok a ↔ x = some a := by
  cases x <;> simp [orRefuse]

/-- `except ...: raise`: every error becomes the one given. -/
def raising {α : Type} (e : EncryptionError) : Except EncryptionError α → Except EncryptionError α
  | .ok a => .ok a
  | .error _ => .error e

@[simp] lemma raising_eq_ok {α : Type} {e : EncryptionError} {x : Except EncryptionError α}
    {a : α} : raising e x = .ok a ↔ x = .ok a := by
  cases x <;> simp [raising]

/-! ## Wrapped keys -/

def localKekProviderIdentifier : Text := "local-configured-kek-v1".toList
def awsKmsProviderIdentifier : Text := "aws-kms-v1".toList
def keyWrapAlgorithm : Text := "AES-256-GCM".toList
def awsKmsWrapAlgorithm : Text := "AWS-KMS-SYMMETRIC-DEFAULT".toList
def keyWrapAadSchema : Text := "nexa.dek-wrap-aad.v1".toList
def wrappedDekEnvelopeSchema : Text := "nexa.wrapped-dek-envelope.v1".toList

def keyBytes : ℕ := 32
def nonceBytes : ℕ := 12
def tagBytes : ℕ := 16
def maxKmsCiphertextBytes : ℕ := 8192
def maxReferenceLength : ℕ := 512

/-- The characters of a key reference behind its first one. -/
def isReferenceChar (c : Char) : Bool := c.isAlphanum || c ∈ "._:/+=,@-".toList

/-- `_valid_reference`. -/
def validReference (t : Text) : Bool :=
  t.length ≤ maxReferenceLength && (t.head?).any Char.isAlphanum && t.tail.all isReferenceChar

/-- `WrappedDek`. -/
structure WrappedDek where
  providerIdentifier : Text
  keyIdentifier : Text
  keyVersion : Text
  algorithm : Text
  nonce : Bytes
  wrappedKey : Bytes
  tag : Bytes
  deriving DecidableEq

/-- `_valid_local_wrapped_dek`. -/
def validLocalWrappedDek (w : WrappedDek) : Bool :=
  w.algorithm = keyWrapAlgorithm && w.nonce.length = nonceBytes &&
    w.wrappedKey.length = keyBytes && w.tag.length = tagBytes

/-- `_valid_aws_wrapped_dek`. -/
def validAwsWrappedDek (w : WrappedDek) : Bool :=
  w.algorithm = awsKmsWrapAlgorithm && w.nonce = [] &&
    (1 ≤ w.wrappedKey.length && w.wrappedKey.length ≤ maxKmsCiphertextBytes) && w.tag = []

/-- What `validate_wrapped_dek` asks for. -/
def WrappedDek.isValid (w : WrappedDek) : Bool :=
  validReference w.providerIdentifier && validReference w.keyIdentifier &&
    validReference w.keyVersion &&
    (w.providerIdentifier = localKekProviderIdentifier && validLocalWrappedDek w ||
      w.providerIdentifier = awsKmsProviderIdentifier && validAwsWrappedDek w)

/-- `validate_wrapped_dek`. -/
def validateWrappedDek (w : WrappedDek) : Except EncryptionError WrappedDek := do
  refuseUnless (w.isValid = true) .keyWrap
  return w

/-! ## Documents -/

/-- A member of a document. -/
def text (t : String) (v : JsonText.Value) : Text × JsonText.Value := (t.toList, v)

/-- `_b64`. -/
def b64 (bytes : Bytes) : JsonText.Value := .str (Base64.encode bytes)

/-- `wrapped_dek_document`, of a key that is valid. -/
def wrappedDekFields (w : WrappedDek) : List (Text × JsonText.Value) := [
  text "kek_provider_identifier" (.str w.providerIdentifier),
  text "kek_key_identifier" (.str w.keyIdentifier),
  text "kek_version" (.str w.keyVersion),
  text "wrapping_algorithm" (.str w.algorithm),
  text "nonce_b64" (b64 w.nonce),
  text "wrapped_key_b64" (b64 w.wrappedKey),
  text "tag_b64" (b64 w.tag)]

/-- `wrapped_dek_document`. -/
def wrappedDekDocument (w : WrappedDek) : Except EncryptionError JsonText.Value := do
  let w ← validateWrappedDek w
  return .obj (wrappedDekFields w)

/-- `_WRAPPED_DOCUMENT_KEYS`. -/
def wrappedDocumentKeys : List Text := [
  "kek_provider_identifier".toList, "kek_key_identifier".toList, "kek_version".toList,
  "wrapping_algorithm".toList, "nonce_b64".toList, "wrapped_key_b64".toList, "tag_b64".toList]

/-- The members of a document that has exactly the given names. -/
def exactMembers (names : List Text) : JsonText.Value → Option (List (Text × JsonText.Value))
  | .obj fields =>
    if (∀ f ∈ fields, f.1 ∈ names) ∧ ∀ k ∈ names, k ∈ fields.map Prod.fst then some fields
    else none
  | _ => none

/-- A member that is a string. -/
def stringMember (fields : List (Text × JsonText.Value)) (k : String) : Option Text :=
  match member fields k.toList with
  | some (.str t) => some t
  | _ => none

/-- A member that is a whole number. -/
def intMember (fields : List (Text × JsonText.Value)) (k : String) : Option ℤ :=
  match member fields k.toList with
  | some (.int n) => some n
  | _ => none

/-- `_strict_b64`: the text has to be the one text of its bytes. -/
def strictB64 (t : Text) : Option Bytes :=
  (Base64.decode t).bind fun bytes => if Base64.encode bytes = t then some bytes else none

/-- A member that writes bytes, up to a number of them. -/
def bytesMember (fields : List (Text × JsonText.Value)) (k : String) (maximum : ℕ) :
    Option Bytes := do
  let t ← stringMember fields k
  let bytes ← strictB64 t
  if bytes.length ≤ maximum then return bytes else none

/-- The fields of a wrapped key, as a document has them. -/
def readWrappedDek (document : JsonText.Value) : Option WrappedDek := do
  let fields ← exactMembers wrappedDocumentKeys document
  return {
    providerIdentifier := ← stringMember fields "kek_provider_identifier"
    keyIdentifier := ← stringMember fields "kek_key_identifier"
    keyVersion := ← stringMember fields "kek_version"
    algorithm := ← stringMember fields "wrapping_algorithm"
    nonce := ← bytesMember fields "nonce_b64" nonceBytes
    wrappedKey := ← bytesMember fields "wrapped_key_b64" maxKmsCiphertextBytes
    tag := ← bytesMember fields "tag_b64" tagBytes }

/-- `wrapped_dek_from_document`. -/
def wrappedDekFromDocument (document : JsonText.Value) : Except EncryptionError WrappedDek := do
  let w ← orRefuse (readWrappedDek document) .keyWrap
  validateWrappedDek w

/-- The envelope of a wrapped key. -/
def envelope (document : JsonText.Value) : JsonText.Value :=
  .obj [text "schema" (.str wrappedDekEnvelopeSchema), text "wrapped_dek" document]

/-- `serialize_wrapped_dek`. -/
def serializeWrappedDek (w : WrappedDek) : Except EncryptionError Text := do
  let document ← wrappedDekDocument w
  return encode (envelope document)

/-- The document in an envelope. -/
def readEnvelope (value : Text) : Option JsonText.Value := do
  if value = [] ∨ 32768 < value.length then none
  else
    let document ← loads value
    let fields ← exactMembers ["schema".toList, "wrapped_dek".toList] document
    if stringMember fields "schema" = some wrappedDekEnvelopeSchema then
      member fields "wrapped_dek".toList
    else none

/-- `deserialize_wrapped_dek`. -/
def deserializeWrappedDek (value : Text) : Except EncryptionError WrappedDek := do
  let document ← orRefuse (readEnvelope value) .keyWrap
  let w ← wrappedDekFromDocument document
  let again ← serializeWrappedDek w
  refuseUnless (again = value) .keyWrap
  return w

/-- `key_metadata_identifier`. -/
def keyMetadataIdentifier (providerIdentifier keyIdentifier keyVersion : Text) :
    Except EncryptionError Text := do
  refuseUnless (validReference providerIdentifier = true ∧ validReference keyIdentifier = true ∧
    validReference keyVersion = true) .keyProviderConfiguration
  let value := providerIdentifier ++ ':' :: (keyIdentifier ++ ':' :: keyVersion)
  refuseUnless (value.length ≤ 255) .keyProviderConfiguration
  return value

/-- `wrapped_dek_key_identifier`. -/
def wrappedDekKeyIdentifier (w : WrappedDek) : Except EncryptionError Text := do
  let w ← validateWrappedDek w
  keyMetadataIdentifier w.providerIdentifier w.keyIdentifier w.keyVersion

/-! ## Providers -/

/-- A client of the key service.  A request to encrypt may be answered differently each time; it
names the key, and the answer names the key that was used.  The encryption context differs only in
the reference of the key. -/
structure KmsClient where
  encrypt : ℕ → Text → Bytes → Option (Bytes × Text)
  decrypt : Bytes → Text → Text → Option (Bytes × Option Text)
  /-- What was encrypted is decrypted, with the key that the answer named. -/
  correct : ∀ {request keyId dek blob used}, encrypt request keyId dek = some (blob, used) →
    decrypt blob used keyId = some (dek, some used)

/-- `LocalConfiguredKekProvider` and `AwsKmsKeyEncryptionProvider`. -/
inductive KeyProvider
  | localConfigured (key : Bytes) (keyIdentifier keyVersion : Text)
  | awsKms (keyIdentifier : Text) (client : KmsClient)

namespace KeyProvider

def providerIdentifier : KeyProvider → Text
  | localConfigured .. => localKekProviderIdentifier
  | awsKms .. => awsKmsProviderIdentifier

def keyIdentifier : KeyProvider → Text
  | localConfigured _ keyIdentifier _ => keyIdentifier
  | awsKms keyIdentifier _ => keyIdentifier

/-- The version of a key of the service is named by each answer; the provider has no other name
for it than the key. -/
def keyVersion : KeyProvider → Text
  | localConfigured _ _ keyVersion => keyVersion
  | awsKms keyIdentifier _ => keyIdentifier

/-- The three references of a provider. -/
def identity (p : KeyProvider) : Text × Text × Text :=
  (p.providerIdentifier, p.keyIdentifier, p.keyVersion)

/-- `can_unwrap`. -/
def canUnwrap (p : KeyProvider) (w : WrappedDek) : Bool :=
  match p with
  | localConfigured .. => (w.providerIdentifier, w.keyIdentifier, w.keyVersion) = p.identity
  | awsKms .. => w.providerIdentifier = awsKmsProviderIdentifier && validAwsWrappedDek w

end KeyProvider

/-- AES-GCM: the cipher of a key, a nonce and associated data. -/
abbrev Gcm := Bytes → Bytes → Bytes → Aead

/-- `_aad` of the local provider. -/
def wrapAad (p : KeyProvider) : Bytes :=
  encodeUtf8 (encode (.obj [
    text "schema" (.str keyWrapAadSchema),
    text "kek_provider_identifier" (.str p.providerIdentifier),
    text "kek_key_identifier" (.str p.keyIdentifier),
    text "kek_version" (.str p.keyVersion),
    text "wrapping_algorithm" (.str keyWrapAlgorithm)]))

/-- `wrap_dek`, with the number of the request for the key service. -/
def KeyProvider.wrapDek (gcm : Gcm) (p : KeyProvider) (request : ℕ) (dek nonce : Bytes) :
    Except EncryptionError WrappedDek :=
  match p with
  | localConfigured key keyIdentifier keyVersion => do
    refuseUnless (dek.length = keyBytes ∧ nonce.length = nonceBytes) .keyWrap
    let A := gcm key nonce (wrapAad p)
    let ciphertext := A.encrypt dek
    let combined := ciphertext ++ A.tag ciphertext
    refuseUnless (combined.length = keyBytes + tagBytes) .keyWrap
    return {
      providerIdentifier := localKekProviderIdentifier
      keyIdentifier := keyIdentifier
      keyVersion := keyVersion
      algorithm := keyWrapAlgorithm
      nonce := nonce
      wrappedKey := combined.take (combined.length - tagBytes)
      tag := combined.drop (combined.length - tagBytes) }
  | awsKms keyIdentifier client => do
    refuseUnless (dek.length = keyBytes) .keyWrap
    let (blob, used) ← orRefuse (client.encrypt request keyIdentifier dek) .keyWrap
    let w : WrappedDek := {
      providerIdentifier := awsKmsProviderIdentifier
      keyIdentifier := keyIdentifier
      keyVersion := used
      algorithm := awsKmsWrapAlgorithm
      nonce := []
      wrappedKey := blob
      tag := [] }
    refuseUnless (validAwsWrappedDek w = true) .keyWrap
    return w

/-- `unwrap_dek`. -/
def KeyProvider.unwrapDek (gcm : Gcm) (p : KeyProvider) (w : WrappedDek) :
    Except EncryptionError Bytes :=
  match p with
  | localConfigured key .. => do
    refuseUnless (p.canUnwrap w = true ∧ validLocalWrappedDek w = true) .keyWrap
    let A := gcm key w.nonce (wrapAad p)
    refuseUnless (A.tag w.wrappedKey = w.tag) .keyWrap
    let dek := A.decrypt w.wrappedKey
    refuseUnless (dek.length = keyBytes) .keyWrap
    return dek
  | awsKms _ client => do
    refuseUnless (p.canUnwrap w = true) .keyWrap
    let (dek, answered) ← orRefuse (client.decrypt w.wrappedKey w.keyVersion w.keyIdentifier)
      .keyWrap
    refuseUnless (dek.length = keyBytes ∧ answered.getD w.keyVersion = w.keyVersion) .keyWrap
    return dek

/-! ## The registry -/

/-- `KeyEncryptionProviderRegistry`. -/
structure Registry where
  active : KeyProvider
  historical : List KeyProvider
  nodup : ((active :: historical).map KeyProvider.identity).Nodup

/-- The providers of a registry. -/
def Registry.providers (r : Registry) : List KeyProvider := r.active :: r.historical

/-- The providers that `resolve` chooses from. -/
def Registry.candidates (r : Registry) (w : WrappedDek) : List KeyProvider :=
  let exact := r.providers.filter fun p =>
    p.identity = (w.providerIdentifier, w.keyIdentifier, w.keyVersion)
  if exact.isEmpty then
    r.providers.filter fun p => p.providerIdentifier = w.providerIdentifier && p.canUnwrap w
  else exact

/-- `resolve`. -/
def Registry.resolve (r : Registry) (w : WrappedDek) : Except EncryptionError KeyProvider := do
  let w ← validateWrappedDek w
  match r.candidates w with
  | [p] => return p
  | _ => .error .keyProviderConfiguration

/-! ## Reading documents -/

section Members

variable {fields : List (Text × JsonText.Value)}

lemma stringMember_canonical (h : (fields.map Prod.fst).Nodup) (k : String) :
    stringMember (sortFields (canonicalFields fields)) k = stringMember fields k := by
  unfold stringMember
  rw [member_canonical h]
  cases member fields k.toList with
  | none => rfl
  | some v => cases v <;> rfl

lemma intMember_canonical (h : (fields.map Prod.fst).Nodup) (k : String) :
    intMember (sortFields (canonicalFields fields)) k = intMember fields k := by
  unfold intMember
  rw [member_canonical h]
  cases member fields k.toList with
  | none => rfl
  | some v => cases v <;> rfl

lemma bytesMember_canonical (h : (fields.map Prod.fst).Nodup) (k : String) (maximum : ℕ) :
    bytesMember (sortFields (canonicalFields fields)) k maximum = bytesMember fields k maximum := by
  unfold bytesMember
  rw [stringMember_canonical h]

/-- The names of a document are the given ones, whatever their order. -/
lemma exactMembers_canonical {names : List Text} (h : fields.map Prod.fst = names) :
    exactMembers names (canonical (.obj fields)) =
      some (sortFields (canonicalFields fields)) := by
  have hperm := perm_names_canonical fields
  rw [h] at hperm
  unfold exactMembers canonical
  refine if_pos ⟨fun f hf => ?_, fun k hk => hperm.mem_iff.mpr hk⟩
  exact hperm.mem_iff.mp (List.mem_map_of_mem hf)

lemma strictB64_encode (bytes : Bytes) : strictB64 (Base64.encode bytes) = some bytes := by
  unfold strictB64
  rw [Base64.decode_encode, Option.bind_some, if_pos rfl]

lemma bytesMember_b64 {k : String} {bytes : Bytes} {maximum : ℕ}
    (h : stringMember fields k = some (Base64.encode bytes)) (hlength : bytes.length ≤ maximum) :
    bytesMember fields k maximum = some bytes := by
  unfold bytesMember
  rw [h]
  simp only [Option.bind_eq_bind, Option.bind_some, strictB64_encode, if_pos hlength]
  rfl

end Members

section Wrapped

variable {w : WrappedDek}

lemma validateWrappedDek_of_isValid (h : w.isValid = true) : validateWrappedDek w = .ok w := by
  unfold validateWrappedDek
  rw [(refuseUnless_eq_ok (u := ())).mpr h]
  rfl

lemma validateWrappedDek_eq_ok {x : WrappedDek} :
    validateWrappedDek w = .ok x ↔ w.isValid = true ∧ x = w := by
  unfold validateWrappedDek
  rw [except_bind_eq_ok]
  constructor
  · rintro ⟨_, h, hx⟩
    exact ⟨refuseUnless_eq_ok.mp h, (Except.ok.inj hx).symm⟩
  · rintro ⟨h, rfl⟩
    exact ⟨(), refuseUnless_eq_ok.mpr h, rfl⟩

/-- The parts of a valid wrapped key fit their limits. -/
lemma WrappedDek.lengths (h : w.isValid = true) : w.nonce.length ≤ nonceBytes ∧
    w.wrappedKey.length ≤ maxKmsCiphertextBytes ∧ w.tag.length ≤ tagBytes := by
  unfold WrappedDek.isValid at h
  rcases Bool.or_eq_true_iff.mp (Bool.and_eq_true_iff.mp h).2 with h | h
  · have hlocal := (Bool.and_eq_true_iff.mp h).2
    simp only [validLocalWrappedDek, Bool.and_eq_true, decide_eq_true_eq] at hlocal
    obtain ⟨⟨⟨-, hnonce⟩, hkey⟩, htag⟩ := hlocal
    rw [hnonce, hkey, htag]
    decide
  · have haws := (Bool.and_eq_true_iff.mp h).2
    simp only [validAwsWrappedDek, Bool.and_eq_true, decide_eq_true_eq] at haws
    obtain ⟨⟨⟨-, hnonce⟩, hkey⟩, htag⟩ := haws
    rw [hnonce, htag]
    exact ⟨Nat.zero_le _, hkey.2, Nat.zero_le _⟩

lemma nodup_wrappedDekFields (w : WrappedDek) : ((wrappedDekFields w).map Prod.fst).Nodup := by
  have hnames : (wrappedDekFields w).map Prod.fst = wrappedDocumentKeys := rfl
  rw [hnames]
  decide

/-- The document of a valid key is read back. -/
lemma readWrappedDek_canonical (h : w.isValid = true) :
    readWrappedDek (canonical (.obj (wrappedDekFields w))) = some w := by
  obtain ⟨hnonce, hkey, htag⟩ := WrappedDek.lengths h
  have hnodup := nodup_wrappedDekFields w
  have hbytes {k : String} {bytes : Bytes} {maximum : ℕ}
      (hk : stringMember (wrappedDekFields w) k = some (Base64.encode bytes))
      (hlength : bytes.length ≤ maximum) :
      bytesMember (sortFields (canonicalFields (wrappedDekFields w))) k maximum = some bytes := by
    rw [bytesMember_canonical hnodup]
    exact bytesMember_b64 hk hlength
  have hstring {k : String} {t : Text} (hk : stringMember (wrappedDekFields w) k = some t) :
      stringMember (sortFields (canonicalFields (wrappedDekFields w))) k = some t := by
    rw [stringMember_canonical hnodup]
    exact hk
  unfold readWrappedDek
  have hmembers : (wrappedDekFields w).map Prod.fst = wrappedDocumentKeys := rfl
  rw [exactMembers_canonical hmembers]
  simp only [Option.bind_eq_bind, Option.bind_some,
    hstring (k := "kek_provider_identifier") rfl, hstring (k := "kek_key_identifier") rfl,
    hstring (k := "kek_version") rfl, hstring (k := "wrapping_algorithm") rfl,
    hbytes (k := "nonce_b64") rfl hnonce, hbytes (k := "wrapped_key_b64") rfl hkey,
    hbytes (k := "tag_b64") rfl htag]
  rfl

lemma wrappedDekFromDocument_canonical (h : w.isValid = true) :
    wrappedDekFromDocument (canonical (.obj (wrappedDekFields w))) = .ok w := by
  unfold wrappedDekFromDocument
  rw [readWrappedDek_canonical h]
  exact validateWrappedDek_of_isValid h

lemma wrappedDekDocument_eq_ok {document : JsonText.Value} :
    wrappedDekDocument w = .ok document ↔
      w.isValid = true ∧ document = .obj (wrappedDekFields w) := by
  unfold wrappedDekDocument
  rw [except_bind_eq_ok]
  constructor
  · rintro ⟨x, hx, hdocument⟩
    obtain ⟨hvalid, rfl⟩ := validateWrappedDek_eq_ok.mp hx
    exact ⟨hvalid, (Except.ok.inj hdocument).symm⟩
  · rintro ⟨hvalid, rfl⟩
    exact ⟨w, validateWrappedDek_of_isValid hvalid, rfl⟩

end Wrapped

/-! ## Envelopes -/

lemma escape_of_isReferenceChar {c : Char} (h : isReferenceChar c = true) : escape c = [c] := by
  have hne : ∀ d : Char, isReferenceChar d = false → c ≠ d := by
    rintro d hd rfl
    rw [h] at hd
    exact nomatch hd
  have hlarge : ¬ c.toNat < 32 := by
    intro hsmall
    have hof : c = Char.ofNat c.toNat := (Char.ofNat_toNat c).symm
    generalize c.toNat = n at hof hsmall
    subst hof
    interval_cases n <;> exact absurd h (by decide)
  unfold escape
  rw [if_neg (hne _ (by decide)), if_neg (hne _ (by decide)), if_neg (hne _ (by decide)),
    if_neg (hne _ (by decide)), if_neg (hne _ (by decide)), if_neg (hne _ (by decide)),
    if_neg (hne _ (by decide)), if_neg hlarge]

lemma isReferenceChar_of_isLetter {c : Char} (h : Base64.IsLetter c) :
    isReferenceChar c = true := by
  rcases h with rfl | ⟨n, hn, rfl⟩
  · decide
  · interval_cases n <;> decide

lemma length_renderString_reference {t : Text} (h : validReference t = true) :
    (renderString t).length ≤ maxReferenceLength + 2 := by
  unfold validReference at h
  simp only [Bool.and_eq_true, decide_eq_true_eq] at h
  obtain ⟨⟨hlength, hhead⟩, htail⟩ := h
  rw [length_renderString]
  · omega
  · intro c hc
    refine escape_of_isReferenceChar ?_
    cases t with
    | nil => exact nomatch hc
    | cons d t =>
      rcases List.mem_cons.mp hc with rfl | hc
      · unfold isReferenceChar
        rw [show c.isAlphanum = true from hhead]
        rfl
      · exact List.all_eq_true.mp htail c hc

lemma length_render_b64 (bytes : Bytes) :
    (render (b64 bytes)).length = 4 * ((bytes.length + 2) / 3) + 2 := by
  unfold b64
  rw [render, length_renderString, Base64.length_encode]
  exact fun c hc => escape_of_isReferenceChar
    (isReferenceChar_of_isLetter (Base64.isLetter_encode bytes c hc))

section Envelope

variable {w : WrappedDek} {t : Text}

/-- The envelope of a valid key is short. -/
lemma length_envelope (h : w.isValid = true) :
    (encode (envelope (.obj (wrappedDekFields w)))).length ≤ 32768 := by
  obtain ⟨hnonce, hkey, htag⟩ := WrappedDek.lengths h
  unfold WrappedDek.isValid at h
  simp only [Bool.and_eq_true] at h
  obtain ⟨⟨⟨hprovider, hidentifier⟩, hversion⟩, hkind⟩ := h
  have halgorithm : (renderString w.algorithm).length ≤ 30 := by
    rcases Bool.or_eq_true_iff.mp hkind with h | h
    · have hlocal := (Bool.and_eq_true_iff.mp h).2
      simp only [validLocalWrappedDek, Bool.and_eq_true, decide_eq_true_eq] at hlocal
      rw [hlocal.1.1.1]
      decide
    · have haws := (Bool.and_eq_true_iff.mp h).2
      simp only [validAwsWrappedDek, Bool.and_eq_true, decide_eq_true_eq] at haws
      rw [haws.1.1.1]
      decide
  have hp := length_renderString_reference hprovider
  have hi := length_renderString_reference hidentifier
  have hv := length_renderString_reference hversion
  have hnames : (renderString "schema".toList).length +
      (render (.str wrappedDekEnvelopeSchema)).length +
      (renderString "wrapped_dek".toList).length +
      ((wrappedDocumentKeys.map fun k => (renderString k).length).sum) ≤ 300 := by decide
  have hfields : (render (.obj (wrappedDekFields w))).length ≤
      1 + (wrappedDocumentKeys.map fun k => (renderString k).length).sum + 14 +
        (3 * (maxReferenceLength + 2) + 30 + (4 * ((nonceBytes + 2) / 3) + 2) +
          (4 * ((maxKmsCiphertextBytes + 2) / 3) + 2) + (4 * ((tagBytes + 2) / 3) + 2)) := by
    rw [length_render_obj]
    simp only [wrappedDekFields, text, List.map_cons, List.map_nil, List.sum_cons, List.sum_nil,
      wrappedDocumentKeys, length_render_b64, render]
    simp only [nonceBytes, maxKmsCiphertextBytes, tagBytes] at *
    omega
  rw [length_encode, envelope, length_render_obj]
  simp only [text, List.map_cons, List.map_nil, List.sum_cons, List.sum_nil]
  simp only [maxReferenceLength, nonceBytes, maxKmsCiphertextBytes, tagBytes] at hfields
  omega

lemma serializeWrappedDek_eq_ok : serializeWrappedDek w = .ok t ↔
    w.isValid = true ∧ t = encode (envelope (.obj (wrappedDekFields w))) := by
  unfold serializeWrappedDek
  rw [except_bind_eq_ok]
  constructor
  · rintro ⟨document, hdocument, ht⟩
    obtain ⟨hvalid, rfl⟩ := wrappedDekDocument_eq_ok.mp hdocument
    exact ⟨hvalid, (Except.ok.inj ht).symm⟩
  · rintro ⟨hvalid, rfl⟩
    exact ⟨_, wrappedDekDocument_eq_ok.mpr ⟨hvalid, rfl⟩, rfl⟩

/-- An envelope is read back. -/
theorem deserialize_serialize (h : serializeWrappedDek w = .ok t) :
    t ≠ [] ∧ deserializeWrappedDek t = .ok w := by
  obtain ⟨hvalid, rfl⟩ := serializeWrappedDek_eq_ok.mp h
  set document := envelope (.obj (wrappedDekFields w)) with hdocument
  have hexact : document.all JsonText.Value.isExact = true := rfl
  have hnodup : ((text "schema" (.str wrappedDekEnvelopeSchema) ::
      [text "wrapped_dek" (.obj (wrappedDekFields w))]).map Prod.fst).Nodup := by
    show ["schema".toList, "wrapped_dek".toList].Nodup
    decide
  have hne : encode document ≠ [] := by
    obtain ⟨c, cs, hrender, -⟩ := head_render (v := canonical document) (by
      rw [all_isReadable_canonical]
      exact all_isReadable_of_isExact hexact)
    unfold encode
    rw [hrender]
    exact List.cons_ne_nil c cs
  have hread : readEnvelope (encode document) =
      some (canonical (.obj (wrappedDekFields w))) := by
    have hnames : ([text "schema" (.str wrappedDekEnvelopeSchema),
        text "wrapped_dek" (.obj (wrappedDekFields w))]).map Prod.fst =
          ["schema".toList, "wrapped_dek".toList] := rfl
    have hlength : ¬ 32768 < (encode document).length := Nat.not_lt.mpr (length_envelope hvalid)
    unfold readEnvelope
    rw [if_neg (not_or.mpr ⟨hne, hlength⟩), loads_encode hexact]
    simp only [Option.bind_eq_bind, Option.bind_some]
    rw [hdocument, envelope, exactMembers_canonical hnames, Option.bind_some,
      stringMember_canonical hnodup, member_canonical hnodup]
    rfl
  refine ⟨hne, ?_⟩
  unfold deserializeWrappedDek
  rw [hread]
  simp only [orRefuse, Option.elim_some, bind, Except.bind, wrappedDekFromDocument_canonical hvalid,
    serializeWrappedDek_eq_ok.mpr ⟨hvalid, rfl⟩]
  rw [(refuseUnless_eq_ok (u := ())).mpr rfl]
  rfl

end Envelope

/-! ## Wrapping -/

section Wrapping

variable {gcm : Gcm} {p : KeyProvider} {request : ℕ} {dek nonce : Bytes} {w : WrappedDek}

/-- What a provider wrapped, names the provider and is unwrapped by it. -/
lemma unwrap_wrap (h : p.wrapDek gcm request dek nonce = .ok w) :
    w.providerIdentifier = p.providerIdentifier ∧ w.keyIdentifier = p.keyIdentifier ∧
      dek.length = keyBytes ∧ p.canUnwrap w = true ∧ p.unwrapDek gcm w = .ok dek := by
  cases p with
  | localConfigured key keyIdentifier keyVersion =>
    simp only [KeyProvider.wrapDek, except_bind_eq_ok, refuseUnless_eq_ok] at h
    obtain ⟨_, ⟨hdek, hnonce⟩, _, hlength, hw⟩ := h
    obtain rfl := Except.ok.inj hw
    set A := gcm key nonce (wrapAad (.localConfigured key keyIdentifier keyVersion))
    have hsealed : (A.encrypt dek).length = keyBytes := by
      rw [← hdek]
      exact length_combine 0 dek
    have hcut : (A.encrypt dek ++ A.tag (A.encrypt dek)).length - tagBytes =
        (A.encrypt dek).length := by
      rw [hlength, hsealed]
      exact Nat.add_sub_cancel keyBytes tagBytes
    have htag : (A.tag (A.encrypt dek)).length = tagBytes := by
      rw [List.length_append, hsealed] at hlength
      exact Nat.add_left_cancel hlength
    rw [hcut, List.take_left, List.drop_left]
    have hcan : (KeyProvider.localConfigured key keyIdentifier keyVersion).canUnwrap
        ⟨localKekProviderIdentifier, keyIdentifier, keyVersion, keyWrapAlgorithm, nonce,
          A.encrypt dek, A.tag (A.encrypt dek)⟩ = true := decide_eq_true rfl
    refine ⟨rfl, rfl, hdek, hcan, ?_⟩
    have hvalid : validLocalWrappedDek ⟨localKekProviderIdentifier, keyIdentifier, keyVersion,
        keyWrapAlgorithm, nonce, A.encrypt dek, A.tag (A.encrypt dek)⟩ = true := by
      simp [validLocalWrappedDek, hnonce, hsealed, htag]
    simp only [KeyProvider.unwrapDek, except_bind_eq_ok, refuseUnless_eq_ok]
    refine ⟨(), ⟨hcan, hvalid⟩, (), rfl, (), ?_, ?_⟩
    · rw [Aead.decrypt_encrypt]
      exact hdek
    · rw [Aead.decrypt_encrypt]
      rfl
  | awsKms keyIdentifier client =>
    simp only [KeyProvider.wrapDek, except_bind_eq_ok, refuseUnless_eq_ok, orRefuse_eq_ok] at h
    obtain ⟨_, hdek, ⟨blob, used⟩, hblob, _, hvalid, hw⟩ := h
    obtain rfl := Except.ok.inj hw
    have hcan : (KeyProvider.awsKms keyIdentifier client).canUnwrap
        ⟨awsKmsProviderIdentifier, keyIdentifier, used, awsKmsWrapAlgorithm, [], blob, []⟩ =
          true := by
      unfold KeyProvider.canUnwrap
      rw [hvalid, Bool.and_true]
      exact decide_eq_true rfl
    refine ⟨rfl, rfl, hdek, hcan, ?_⟩
    simp only [KeyProvider.unwrapDek, except_bind_eq_ok, refuseUnless_eq_ok, orRefuse_eq_ok]
    exact ⟨(), hcan, (dek, some used), client.correct hblob, (), ⟨hdek, rfl⟩, rfl⟩

end Wrapping

end NexaPos.Backups.Encryption
