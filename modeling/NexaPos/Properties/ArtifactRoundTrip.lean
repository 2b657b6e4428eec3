import NexaPos.Backups.EncryptedArtifact

/-!
# An artifact is opened again

Framing writes the members of a header in order and seals the package behind it.  Both parsers
read the same members back, and the reader of an opened artifact returns the package, whatever the
size of its pieces.
-/

namespace NexaPos.Backups.Encryption

open JsonText StreamCipher Artifacts

open ByteLayout (slice number bytes)

open UtcTime (Moment timestamp ofTimestamp)

/-! ## Reading a file to its end -/

section Drain

variable {S : Setting} {file ciphertext rest : Bytes} {offset k : ℕ} {r : Reader ℕ} {out : Bytes}

/-- The reader stands `k` bytes into the ciphertext, and has returned their plaintext. -/
structure Reading (S : Setting) (ciphertext : Bytes) (offset k : ℕ) (r : Reader ℕ) (out : Bytes) :
    Prop where
  inside : k ≤ ciphertext.length
  file : r.file = offset + k
  taken : r.decryptor.taken = ciphertext.take k
  open' : r.decryptor.finalized = false
  remaining : r.remaining = ciphertext.length - k
  count : r.count = k
  hashed : r.hashed = out
  out : out = S.aead.decrypt (ciphertext.take k)
  finalized : r.finalized = false
  closed : r.closed = false

/-- The ciphertext and what the reader expects of it fit each other. -/
structure Fits (S : Setting) (ciphertext : Bytes) : Prop where
  length : S.ciphertextBytes = ciphertext.length
  count : S.expectedCount = ciphertext.length
  tag : S.aead.tag ciphertext = S.tag
  sha256 : S.sha256 (S.aead.decrypt ciphertext) = S.expectedSha256
  inTime : ∀ n, S.expired n = false

lemma reading_new (hfits : Fits S ciphertext) :
    Reading S ciphertext offset 0 (Reader.new S offset) [] where
  inside := Nat.zero_le _
  file := rfl
  taken := rfl
  open' := rfl
  remaining := hfits.length
  count := rfl
  hashed := rfl
  out := rfl
  finalized := rfl
  closed := rfl

/-- A piece of the ciphertext is decrypted, and the last one is released because everything
fits. -/
lemma Reading.accept (h : Reading S ciphertext offset k r out) (hfits : Fits S ciphertext)
    {n : ℕ} (hn : k + n ≤ ciphertext.length) (answer : SourceAnswer) :
    ∃ r' plain, Reader.accept S ((ciphertext.drop k).take n)
        (r.answered answer (offset + k + n)) = (.ok plain, r') ∧
      plain.length = n ∧ r'.remaining = ciphertext.length - (k + n) ∧ r'.closed = false ∧
      (k + n = ciphertext.length → r'.finalized = true ∧
        out ++ plain = S.aead.decrypt ciphertext) ∧
      (k + n < ciphertext.length → Reading S ciphertext offset (k + n) r' (out ++ plain)) := by
  set piece := (ciphertext.drop k).take n with hpiece
  have hlength : piece.length = n := by
    rw [hpiece, List.length_take, List.length_drop]
    omega
  have htaken : ciphertext.take k ++ piece = ciphertext.take (k + n) := by
    rw [hpiece, List.take_add]
  have hout : out ++ combine S.aead.keystream k piece =
      S.aead.decrypt (ciphertext.take (k + n)) := by
    rw [h.out, ← htaken]
    unfold Aead.decrypt
    rw [combine_append, Nat.zero_add, List.length_take, Nat.min_eq_left h.inside]
  have hplace : (ciphertext.take k).length = k := by
    rw [List.length_take, Nat.min_eq_left h.inside]
  have hsmall : ¬ S.expectedCount < k + n := by
    rw [hfits.count]
    omega
  unfold Reader.accept Decryptor.update Reader.answered Reader.checked
  simp only [h.open', Bool.false_eq_true, if_false, hplace, length_combine, ne_eq,
    not_true_eq_false, hlength, h.count, h.remaining, hsmall, h.taken, h.hashed, htaken]
  unfold Reader.release
  by_cases hlast : k + n = ciphertext.length
  · have hzero : ciphertext.length - k - n = 0 := by omega
    have hwhole : ciphertext.take (k + n) = ciphertext := by
      rw [hlast, List.take_length]
    rw [hwhole] at hout ⊢
    simp only [hzero, if_true, Reader.finalize, h.finalized, hfits.inTime, Reader.checked,
      Decryptor.finalize, hfits.tag, Bool.false_eq_true, if_false, List.append_nil,
      List.length_nil, Nat.add_zero, hout, hfits.count, hlast, hfits.sha256, ne_eq,
      not_true_eq_false, or_self]
    refine ⟨_, _, rfl, length_combine k piece ▸ hlength, ?_, h.closed, fun _ => ⟨rfl, hout⟩,
      fun hlt => absurd hlt (lt_irrefl _)⟩
    show 0 = _
    omega
  · have hmore : ¬ ciphertext.length - k - n = 0 := by omega
    simp only [hmore, if_false]
    refine ⟨_, _, rfl, (length_combine k piece).trans hlength, ?_, h.closed,
      fun heq => absurd heq hlast, fun hlt => ?_⟩
    · show ciphertext.length - k - n = _
      omega
    · exact {
        inside := hn
        file := Nat.add_assoc offset k n
        taken := rfl
        open' := rfl
        remaining := by
          show ciphertext.length - k - n = _
          omega
        count := rfl
        hashed := rfl
        out := hout
        finalized := h.finalized
        closed := h.closed }

/-- The loop returns the whole plaintext. -/
lemma Reading.drain (hfits : Fits S ciphertext) (hfile : file.drop offset = ciphertext ++ rest)
    (h : Reading S ciphertext offset k r out) (hmore : k < ciphertext.length) {m : ℕ}
    (hleft' : ciphertext.length - k < m) :
    Encryption.drain S (fileSource file) m r out = .ok (S.aead.decrypt ciphertext) := by
  induction m generalizing k r out with
  | zero => exact absurd hleft' (Nat.not_lt_zero _)
  | succ rounds ih =>
    have hremaining : r.remaining ≠ 0 := by
      rw [h.remaining]
      omega
    have hsize : S.requested S.chunkBytes = S.chunkBytes := by
      unfold Setting.requested
      rw [if_neg (by omega), Int.toNat_natCast, Nat.min_self]
    have hchunk := S.chunkBytes_pos
    set n := min S.chunkBytes r.remaining with hn
    have hpos : 0 < n := by
      rw [hn]
      omega
    have hinside : k + n ≤ ciphertext.length := by
      have hle : n ≤ r.remaining := Nat.min_le_right _ _
      rw [h.remaining] at hle
      have hk := h.inside
      omega
    have hpiece : (file.drop r.file).take n = (ciphertext.drop k).take n := by
      rw [h.file, ← List.drop_drop, hfile, List.drop_append_of_le_length h.inside,
        List.take_append_of_le_length]
      rw [List.length_drop]
      omega
    have hlength : ((ciphertext.drop k).take n).length = n := by
      rw [List.length_take, List.length_drop]
      omega
    obtain ⟨r', plain, haccept, hplain, hleft, hclosed, hlast, hnext⟩ :=
      h.accept hfits hinside (.bytes ((ciphertext.drop k).take n))
    have hread : r.read S (fileSource file) (some S.chunkBytes) = (.ok plain, r') := by
      unfold Reader.read
      rw [h.closed, if_neg Bool.false_ne_true, if_neg hremaining]
      dsimp only
      rw [hsize, if_neg (by omega), ← hn]
      unfold Reader.readPiece fileSource
      rw [hfits.inTime, if_neg Bool.false_ne_true]
      dsimp only
      rw [hpiece, hlength, if_neg (by simp), h.file]
      exact haccept
    obtain ⟨b, bs, rfl⟩ : ∃ b bs, plain = b :: bs := by
      cases plain with
      | nil =>
        rw [List.length_nil] at hplain
        omega
      | cons b bs => exact ⟨b, bs, rfl⟩
    unfold Encryption.drain
    rw [hread]
    dsimp only
    by_cases hend : k + n = ciphertext.length
    · obtain ⟨hfinalized, hwhole⟩ := hlast hend
      obtain ⟨rounds, rfl⟩ := Nat.exists_eq_succ_of_ne_zero (n := rounds) (by omega)
      have hdone : r'.read S (fileSource file) (some S.chunkBytes) = (.ok [], r') := by
        unfold Reader.read Reader.finalize
        rw [hclosed, if_neg Bool.false_ne_true, if_pos (by omega), if_pos hfinalized]
      unfold Encryption.drain
      rw [hdone]
      dsimp only
      rw [hwhole]
    · exact ih (hnext (by omega)) (by omega) (by omega)

end Drain

/-- An artifact that was opened at its ciphertext is read to its end. -/
lemma Opened.plaintext_eq {C : Crypto} {P : EncryptionPolicy} {file ciphertext rest : Bytes}
    {o : Opened} (hfile : file.drop o.ciphertextOffset = ciphertext ++ rest)
    (hlength : o.ciphertextCount = ciphertext.length) (hpos : 0 < ciphertext.length)
    (htag : o.aead.tag ciphertext = o.tag)
    (hsha256 : C.sha256 (o.aead.decrypt ciphertext) = o.plaintextSha256) :
    o.plaintext C P file = .ok (o.aead.decrypt ciphertext) := by
  have hfits : Fits (o.setting C P) ciphertext := ⟨hlength, hlength, htag, hsha256, fun _ => rfl⟩
  have hdrain := Reading.drain hfits hfile (reading_new hfits) hpos (m := o.ciphertextCount + 1)
    (by omega)
  unfold Opened.plaintext
  rw [hdrain]
  rfl

/-! ## Framing -/

section Frame

variable {C : Crypto} {E : ArtifactProvider} {r : Request} {m : Material} {request : ℕ}
  {f : Framed}

/-- The bytes of a package. -/
def Request.content (r : Request) : Bytes := r.read.flatten

/-- The header of an artifact. -/
def headerOf (r : Request) (m : Material) (wrapped : WrappedDek) : Bytes :=
  encodeUtf8 (encode (.obj (headerFields r m.dataNonce wrapped)))

/-- The cipher of an artifact. -/
def cipherOf (C : Crypto) (r : Request) (m : Material) (wrapped : WrappedDek) : Aead :=
  C.gcm m.dek m.dataNonce (headerOf r m wrapped)

/-- A file that is the artifact of a package. -/
structure IsArtifact (C : Crypto) (r : Request) (m : Material) (wrapped : WrappedDek)
    (file : Bytes) : Prop where
  verified : r.verification.providerIdentifier = independentPackageVerifierIdentifier ∧
    r.verification.verificationSchema = verificationSchemaIdentifier
  format : r.package.formatIdentifier = packageFormatIdentifier
  nonempty : 0 < r.package.byteCount
  digest : isSha256 r.package.plaintextSha256 = true
  nonce : m.dataNonce.length = nonceBytes
  valid : wrapped.isValid = true
  headerSize : 0 < (headerOf r m wrapped).length ∧ (headerOf r m wrapped).length ≤ 1024 ^ 2
  length : r.content.length = r.package.byteCount
  sha256 : C.sha256 r.content = r.package.plaintextSha256
  tag : ((cipherOf C r m wrapped).tag ((cipherOf C r m wrapped).encrypt r.content)).length =
    tagBytes
  framed : file = artifactMagic ++ bigEndian (headerOf r m wrapped).length ++
    headerOf r m wrapped ++ (cipherOf C r m wrapped).encrypt r.content ++
      (cipherOf C r m wrapped).tag ((cipherOf C r m wrapped).encrypt r.content)

/-- The loop seals what it reads. -/
lemma sealPieces_ok {A : Aead} {chunkBytes byteCount : ℕ} {pieces : List Bytes} {s s' : Sealing}
    (hs : s.ciphertext = A.encrypt s.plaintext)
    (h : pieces.foldlM (sealPiece A chunkBytes byteCount) s = .ok s') :
    s'.plaintext = s.plaintext ++ pieces.flatten ∧ s'.ciphertext = A.encrypt s'.plaintext := by
  induction pieces generalizing s with
  | nil =>
    obtain rfl := Except.ok.inj h
    exact ⟨(List.append_nil _).symm, hs⟩
  | cons piece pieces ih =>
    rw [List.foldlM_cons, except_bind_eq_ok] at h
    obtain ⟨t, ht, h⟩ := h
    simp only [sealPiece, except_bind_eq_ok, refuseUnless_eq_ok] at ht
    obtain ⟨-, -, -, -, -, -, ht⟩ := ht
    obtain rfl := Except.ok.inj ht
    have hsealed : s.ciphertext ++ combine A.keystream s.plaintext.length piece =
        A.encrypt (s.plaintext ++ piece) := by
      rw [hs]
      unfold Aead.encrypt
      rw [combine_append, Nat.zero_add]
    obtain ⟨hplain, hcipher⟩ := ih hsealed h
    refine ⟨?_, hcipher⟩
    rw [hplain, List.flatten_cons, List.append_assoc]

/-- What framing made. -/
structure FrameMade (C : Crypto) (E : ArtifactProvider) (r : Request) (m : Material)
    (request : ℕ) (f : Framed) : Prop where
  wrap : E.kekProvider.wrapDek C.gcm request m.dek m.wrapNonce = .ok f.wrapped
  isArtifact : IsArtifact C r m f.wrapped f.artifact
  header : f.headerBytes = headerOf r m f.wrapped
  headerSize : f.headerBytes.length ≤ E.policy.maximumHeaderBytes
  plaintext : r.package.byteCount ≤ E.policy.maximumPlaintextBytes
  size : f.artifact.length ≤ E.policy.maximumArtifactBytes
  result : f.result = {
    encryptedByteCount := f.artifact.length
    ciphertextSha256 := C.sha256 f.artifact
    plaintextByteCount := r.package.byteCount
    plaintextSha256 := r.package.plaintextSha256
    headerSha256 := C.sha256 f.headerBytes
    kekProviderIdentifier := f.wrapped.providerIdentifier
    kekKeyIdentifier := f.wrapped.keyIdentifier
    kekVersion := f.wrapped.keyVersion
    createdAt := r.createdAt }

theorem frame_ok (h : E.frame C r m request = .ok f) : FrameMade C E r m request f := by
  simp only [ArtifactProvider.frame, ArtifactProvider.validateRequest, validateMaterial,
    headerDocument, except_bind_eq_ok, refuseUnless_eq_ok] at h
  obtain ⟨_, ⟨hprovider, hschema, hpos, hplaintext, hdigest, hformat⟩, _, ⟨hdek, hnonce, -, -⟩,
    wrapped, hwrap, document, ⟨_, hvalid, hdocument⟩, _, ⟨hnonempty, hheader⟩, _, hsize, _, -,
    sealing, hsealing, _, ⟨hcount, hsha⟩, _, htag, _, hlength, hf⟩ := h
  obtain rfl := Except.ok.inj hdocument
  obtain ⟨hvalid, -⟩ := wrappedDekDocument_eq_ok.mp hvalid
  have hbytes : encodeUtf8 (encode (.obj (headerFields r m.dataNonce wrapped))) =
      headerOf r m wrapped := rfl
  rw [hbytes] at hnonempty hheader hsize hsealing htag hlength hf
  have hcipherOf : C.gcm m.dek m.dataNonce (headerOf r m wrapped) = cipherOf C r m wrapped := rfl
  rw [hcipherOf] at hsealing htag hlength hf
  obtain ⟨hplain, hcipher⟩ := sealPieces_ok rfl hsealing
  rw [List.nil_append] at hplain
  have hcontent : sealing.plaintext = r.content := hplain
  rw [hcontent] at hcount hsha hcipher
  rw [hcipher] at htag hlength hf
  have hartifact : IsArtifact C r m wrapped (artifactMagic ++
      bigEndian (headerOf r m wrapped).length ++ headerOf r m wrapped ++
        (cipherOf C r m wrapped).encrypt r.content ++
          (cipherOf C r m wrapped).tag ((cipherOf C r m wrapped).encrypt r.content)) :=
    ⟨⟨hprovider, hschema⟩, hformat, hpos, hdigest, hnonce, hvalid,
      ⟨hnonempty, hheader.trans E.policy.header_range.2⟩, hcount, hsha, htag, rfl⟩
  generalize hartifactEq : artifactMagic ++ bigEndian (headerOf r m wrapped).length ++
    headerOf r m wrapped ++ (cipherOf C r m wrapped).encrypt r.content ++
      (cipherOf C r m wrapped).tag ((cipherOf C r m wrapped).encrypt r.content) = artifact at *
  rw [← hlength] at hsize hf
  obtain rfl := Except.ok.inj hf
  refine ⟨hwrap, hartifact, ?_, ?_, ?_, ?_, ?_⟩
  · dsimp only
  · dsimp only
    exact hheader
  · exact hplaintext
  · dsimp only
    exact hsize
  · dsimp only

end Frame

/-! ## Headers are read back -/

section Header

variable {C : Crypto} {E : ArtifactProvider} {r : Request} {m : Material} {w : WrappedDek}
  {nonce file : Bytes} {maximum : ℕ} {k : String}

/-- The members of a header, in the order in which they are written. -/
def storedFields (r : Request) (nonce : Bytes) (w : WrappedDek) : List (Text × JsonText.Value) :=
  sortFields (canonicalFields (headerFields r nonce w))

lemma names_headerFields : (headerFields r nonce w).map Prod.fst = headerKeys := rfl

lemma nodup_headerFields (r : Request) (nonce : Bytes) (w : WrappedDek) :
    ((headerFields r nonce w).map Prod.fst).Nodup := by
  rw [names_headerFields]
  decide +kernel

lemma isStrict_wrappedDekFields : isStrict (.obj (wrappedDekFields w)) = true := by
  have hplain : JsonText.Value.isPlain (.obj (wrappedDekFields w)) = true :=
    decide_eq_true (nodup_wrappedDekFields w)
  refine all_obj.mpr ⟨by rw [hplain]; rfl, fun f hf => ?_⟩
  simp only [wrappedDekFields, text, List.mem_cons, List.not_mem_nil, or_false] at hf
  rcases hf with rfl | rfl | rfl | rfl | rfl | rfl | rfl <;> rfl

lemma isStrict_headerFields : isStrict (.obj (headerFields r nonce w)) = true := by
  have hplain : JsonText.Value.isPlain (.obj (headerFields r nonce w)) = true :=
    decide_eq_true (nodup_headerFields r nonce w)
  refine all_obj.mpr ⟨by rw [hplain]; rfl, fun f hf => ?_⟩
  simp only [headerFields, text, List.mem_cons, List.not_mem_nil, or_false] at hf
  rcases hf with rfl | rfl | rfl | rfl | rfl | rfl | rfl | rfl | rfl | rfl | rfl | rfl | rfl |
    rfl | rfl
  case inr.inr.inr.inr.inl => exact isStrict_wrappedDekFields
  all_goals rfl

lemma isStrict_canonical (v : JsonText.Value) : isStrict (canonical v) = isStrict v := by
  refine all_canonical (fun v => ?_) v
  rw [isPlain_canonical]
  cases v <;> rfl

lemma all_isExact_of_isStrict {v : JsonText.Value} (h : isStrict v = true) :
    v.all JsonText.Value.isExact = true := by
  induction v using JsonText.Value.induction with
  | arr items ih =>
    obtain ⟨-, hitems⟩ := all_arr.mp h
    exact all_arr.mpr ⟨rfl, fun v hv => ih v hv (hitems v hv)⟩
  | obj fields ih =>
    obtain ⟨-, hfields⟩ := all_obj.mp h
    exact all_obj.mpr ⟨rfl, fun f hf => ih f hf (hfields f hf)⟩
  | real t => exact nomatch h
  | _ => rfl

lemma strictHeader_headerOf (hpos : 0 < (headerOf r m w).length)
    (hmaximum : (headerOf r m w).length ≤ maximum) :
    strictHeader (headerOf r m w) maximum =
      some (canonical (.obj (headerFields r m.dataNonce w))) := by
  have hstrict : isStrict (canonical (.obj (headerFields r m.dataNonce w))) = true := by
    rw [isStrict_canonical]
    exact isStrict_headerFields
  have hstrict' : isStrict (.obj (headerFields r m.dataNonce w)) = true := isStrict_headerFields
  have hloads := loads_encode (all_isExact_of_isStrict hstrict')
  unfold strictHeader
  rw [if_pos ⟨hpos, hmaximum⟩]
  have hdecode : decodeUtf8 (headerOf r m w) =
      some (encode (.obj (headerFields r m.dataNonce w))) := decodeUtf8_encodeUtf8 _
  simp only [Option.bind_eq_bind, hdecode, Option.bind_some, hloads]
  rw [if_pos ⟨hstrict, by rw [encode_canonical]; rfl⟩]
  rfl

lemma length_bigEndian (n : ℕ) : (bigEndian n).length = 4 := by
  unfold bigEndian
  rw [List.length_reverse, ByteLayout.length_bytes]

lemma number_bigEndian {n : ℕ} (h : n < 256 ^ 4) : number (bigEndian n).reverse = n := by
  unfold bigEndian
  rw [List.reverse_reverse]
  exact ByteLayout.number_bytes h

/-- The start of an artifact. -/
lemma IsArtifact.head (h : IsArtifact C r m w file) :
    slice file 0 prefixSize = artifactMagic ++ bigEndian (headerOf r m w).length ∧
      (slice file 0 prefixSize).length = prefixSize ∧
      number ((slice file 0 prefixSize).drop 8).reverse = (headerOf r m w).length ∧
      slice file prefixSize (headerOf r m w).length = headerOf r m w := by
  set header := headerOf r m w with hheader
  obtain ⟨rest, hfile⟩ : ∃ rest, file = (artifactMagic ++ bigEndian header.length) ++
      (header ++ rest) := ⟨_, by rw [h.framed]; simp only [List.append_assoc]; rfl⟩
  have hhead : (artifactMagic ++ bigEndian header.length).length = prefixSize := by
    rw [List.length_append, length_bigEndian]
    rfl
  have hmark : slice file 0 prefixSize = artifactMagic ++ bigEndian header.length := by
    rw [← hhead]
    exact ByteLayout.slice_of_drop hfile
  have hdrop : (artifactMagic ++ bigEndian header.length).drop 8 = bigEndian header.length :=
    List.drop_left' rfl
  rw [hmark, hdrop]
  have hbody : file.drop prefixSize = header ++ rest := by
    rw [hfile, ← hhead, List.drop_left]
  refine ⟨rfl, hhead, ?_, ByteLayout.slice_of_drop hbody⟩
  exact number_bigEndian (Nat.lt_of_le_of_lt h.headerSize.2 (by norm_num))

/-- The header of an artifact is read, unless it is too long for the policy. -/
lemma readHeader_isArtifact (h : IsArtifact C r m w file)
    (hmaximum : (headerOf r m w).length ≤ E.policy.maximumHeaderBytes) :
    readHeader E.policy file = some (headerOf r m w, storedFields r m.dataNonce w) := by
  obtain ⟨hfirst, hlength, hnumber, hbody⟩ := h.head
  have hmagic : (slice file 0 prefixSize).take 8 = artifactMagic := by
    rw [hfirst]
    exact List.take_left' rfl
  unfold readHeader
  simp only [hnumber, hlength, hmagic, hbody]
  rw [if_pos ⟨trivial, trivial, h.headerSize.1, hmaximum⟩, if_pos trivial,
    strictHeader_headerOf h.headerSize.1 hmaximum]
  simp only [Option.bind_eq_bind, Option.bind_some]
  rw [exactMembers_canonical names_headerFields]
  rfl

lemma header_le_of_readHeader (h : IsArtifact C r m w file) (P : EncryptionPolicy)
    (hread : (readHeader P file).isSome = true) :
    (headerOf r m w).length ≤ P.maximumHeaderBytes := by
  obtain ⟨-, -, hnumber, -⟩ := h.head
  unfold readHeader at hread
  simp only [hnumber] at hread
  by_contra hlarge
  rw [if_neg fun hhead => hlarge hhead.2.2.2] at hread
  exact nomatch hread

lemma stringMember_of_mem {t : Text} (h : text k (.str t) ∈ headerFields r nonce w) :
    stringMember (storedFields r nonce w) k = some t := by
  have hmember := (member_eq_some_iff (nodup_headerFields r nonce w)).mpr h
  unfold storedFields
  rw [stringMember_canonical (nodup_headerFields r nonce w)]
  unfold stringMember
  rw [hmember]

lemma countMember_storedFields {n : ℕ} (hk : intMember (headerFields r nonce w) k = some (n : ℤ))
    (hpos : 0 < n) (hmaximum : n ≤ maximum) :
    countMember (storedFields r nonce w) k maximum = some n := by
  unfold countMember storedFields
  rw [intMember_canonical (nodup_headerFields r nonce w), hk]
  simp only [Option.bind_eq_bind, Option.bind_some]
  rw [if_pos (by omega)]
  rfl

lemma exactBytesMember_storedFields (hnonce : nonce.length = nonceBytes) :
    exactBytesMember (storedFields r nonce w) "nonce_b64" nonceBytes = some nonce := by
  have hk : stringMember (storedFields r nonce w) "nonce_b64" = some (Base64.encode nonce) := by
    refine stringMember_of_mem ?_
    simp only [headerFields, text, b64, List.mem_cons, true_or, or_true]
  have hne : Base64.encode nonce ≠ [] := by
    intro h
    have hlength := Base64.length_encode nonce
    rw [h, hnonce] at hlength
    cases hlength
  unfold exactBytesMember
  rw [hk]
  simp only [Option.bind_eq_bind, Option.bind_some, strictB64_encode]
  rw [if_pos ⟨hne, hnonce⟩]
  rfl

lemma member_wrappedDek : member (storedFields r nonce w) "wrapped_dek".toList =
    some (canonical (.obj (wrappedDekFields w))) := by
  unfold storedFields
  rw [member_canonical (nodup_headerFields r nonce w)]
  rfl

/-- The strings of a header. -/
structure Says (r : Request) (fields : List (Text × JsonText.Value)) : Prop where
  schema : stringMember fields "schema" = some encryptedArtifactFormatIdentifier
  formatVersion : stringMember fields "format_version" = some encryptedArtifactFormatVersion
  algorithm : stringMember fields "encryption_algorithm" = some encryptionAlgorithm
  plaintext : stringMember fields "plaintext_sha256" = some r.package.plaintextSha256
  packageFormat : stringMember fields "verified_package_format" = some r.package.formatIdentifier
  backup : stringMember fields "backup_public_id" = some r.context.backupPublicId
  tenant : stringMember fields "tenant_public_id" = some r.context.businessPublicId
  verification : stringMember fields "verification_schema" =
    some r.verification.verificationSchema
  verificationVersion : stringMember fields "verification_version" = some verificationVersion
  provider : stringMember fields "verification_provider" = some r.verification.providerIdentifier
  created : stringMember fields "created_timestamp" = some (timestamp r.createdAt)

lemma says_storedFields : Says r (storedFields r nonce w) := by
  constructor <;> refine stringMember_of_mem ?_ <;>
    simp only [headerFields, text, b64, List.mem_cons, true_or, or_true]

end Header

/-! ## Opening an artifact -/

section Opening

variable {C : Crypto} {E : ArtifactProvider} {r : Request} {m : Material} {w w' : WrappedDek}
  {file dek : Bytes} {o : Opened}

/-- An artifact, opened with a data key that was unwrapped from `w'`. -/
def openedWith (C : Crypto) (r : Request) (m : Material) (w w' : WrappedDek) (dek : Bytes) :
    Opened where
  headerBytes := headerOf r m w
  fields := storedFields r m.dataNonce w
  wrapped := w'
  aead := C.gcm dek m.dataNonce (headerOf r m w)
  tag := (cipherOf C r m w).tag ((cipherOf C r m w).encrypt r.content)
  ciphertextOffset := prefixSize + (headerOf r m w).length
  ciphertextCount := r.package.byteCount
  plaintextSha256 := r.package.plaintextSha256

/-- The provider finds a key provider for a wrapped key, which unwraps it to `dek`. -/
def ArtifactProvider.Unwraps (C : Crypto) (E : ArtifactProvider) (w : WrappedDek) (dek : Bytes) :
    Prop :=
  ∃ p, E.providerForWrappedDek w = .ok p ∧ p.unwrapDek C.gcm w = .ok dek

lemma IsArtifact.length_encrypt (h : IsArtifact C r m w file) :
    ((cipherOf C r m w).encrypt r.content).length = r.package.byteCount := by
  rw [← h.length]
  exact length_combine 0 r.content

/-- What stands behind the header. -/
lemma IsArtifact.drop (h : IsArtifact C r m w file) :
    file.drop (prefixSize + (headerOf r m w).length) =
      (cipherOf C r m w).encrypt r.content ++
        (cipherOf C r m w).tag ((cipherOf C r m w).encrypt r.content) := by
  have hhead : (artifactMagic ++ bigEndian (headerOf r m w).length ++ headerOf r m w).length =
      prefixSize + (headerOf r m w).length := by
    rw [List.length_append, List.length_append, length_bigEndian]
    rfl
  rw [h.framed, List.append_assoc _ ((cipherOf C r m w).encrypt r.content), ← hhead,
    List.drop_left]

lemma IsArtifact.tag_eq (h : IsArtifact C r m w file) :
    slice file (prefixSize + (headerOf r m w).length + r.package.byteCount) tagBytes =
      (cipherOf C r m w).tag ((cipherOf C r m w).encrypt r.content) := by
  have hrest : file.drop (prefixSize + (headerOf r m w).length + r.package.byteCount) =
      (cipherOf C r m w).tag ((cipherOf C r m w).encrypt r.content) ++ [] := by
    rw [← List.drop_drop, h.drop, ← h.length_encrypt, List.drop_left, List.append_nil]
  rw [← h.tag]
  exact ByteLayout.slice_of_drop hrest

lemma IsArtifact.length_file (h : IsArtifact C r m w file) :
    file.length = prefixSize + (headerOf r m w).length + r.package.byteCount + tagBytes := by
  rw [h.framed]
  simp only [List.length_append, length_bigEndian, h.length_encrypt, h.tag]
  rfl

lemma openCiphertext_eq_ok (h : IsArtifact C r m w file) :
    E.openCiphertext C file (headerOf r m w) (storedFields r m.dataNonce w) m.dataNonce w'
      r.package.byteCount r.package.plaintextSha256 = .ok o ↔
    ∃ dek, E.Unwraps C w' dek ∧ o = openedWith C r m w w' dek := by
  unfold ArtifactProvider.openCiphertext
  simp only [except_bind_eq_ok, refuseUnless_eq_ok, h.tag_eq]
  constructor
  · rintro ⟨p, hp, dek, hdek, -, -, ho⟩
    exact ⟨dek, ⟨p, hp, hdek⟩, (Except.ok.inj ho).symm⟩
  · rintro ⟨dek, ⟨p, hp, hdek⟩, rfl⟩
    exact ⟨p, hp, dek, hdek, (), h.tag, rfl⟩

/-- With the data key that it was made with, an artifact is read to its end. -/
lemma plaintext_openedWith (h : IsArtifact C r m w file) (P : EncryptionPolicy) :
    (openedWith C r m w w' m.dek).plaintext C P file = .ok r.content := by
  have hdecrypt : (cipherOf C r m w).decrypt ((cipherOf C r m w).encrypt r.content) =
      r.content := Aead.decrypt_encrypt _ _
  have hread := Opened.plaintext_eq (C := C) (P := P) (o := openedWith C r m w w' m.dek)
    h.drop h.length_encrypt.symm (by rw [h.length_encrypt]; exact h.nonempty) rfl
    ((congrArg C.sha256 hdecrypt).trans h.sha256)
  rw [hread]
  exact congrArg Except.ok hdecrypt

/-- The policy of a provider has room for an artifact. -/
structure ArtifactProvider.Holds (E : ArtifactProvider) (r : Request) (m : Material)
    (w : WrappedDek) (file : Bytes) : Prop where
  header : (headerOf r m w).length ≤ E.policy.maximumHeaderBytes
  plaintext : r.package.byteCount ≤ E.policy.maximumPlaintextBytes
  artifact : file.length ≤ E.policy.maximumArtifactBytes

/-- A new artifact is authenticated with the key in its header. -/
lemma parseHeader_eq_ok (h : IsArtifact C r m w file) (hE : E.Holds r m w file)
    {result : ArtifactResult} (hcreated : result.createdAt = r.createdAt)
    (hprovider : result.kekProviderIdentifier = w.providerIdentifier)
    (hidentifier : result.kekKeyIdentifier = w.keyIdentifier)
    (hversion : result.kekVersion = w.keyVersion)
    (hsha : result.headerSha256 = C.sha256 (headerOf r m w))
    (hlength : result.encryptedByteCount = file.length) :
    E.parseHeader C file r.context r.package r.verification result = .ok o ↔
      ∃ dek, E.Unwraps C w dek ∧ o = openedWith C r m w w dek := by
  have hcount : ∀ k : String, intMember (headerFields r m.dataNonce w) k =
      some (r.package.byteCount : ℤ) →
      countMember (storedFields r m.dataNonce w) k E.policy.maximumPlaintextBytes =
        some r.package.byteCount := fun k hk =>
    countMember_storedFields hk h.nonempty hE.plaintext
  have hstored : Says r (storedFields r m.dataNonce w) := says_storedFields
  unfold ArtifactProvider.parseHeader
  rw [raising_eq_ok]
  simp only [readHeader_isArtifact h hE.header, orRefuse, Option.elim_some, bind, Except.bind,
    member_wrappedDek, exactBytesMember_storedFields h.nonce,
    wrappedDekFromDocument_canonical h.valid, hcount "plaintext_byte_count" rfl,
    hcount "ciphertext_byte_count" rfl, hstored.plaintext, hstored.schema, hstored.formatVersion,
    hstored.algorithm, hstored.packageFormat, hstored.backup, hstored.tenant, hstored.verification,
    hstored.verificationVersion, hstored.provider, hstored.created, hcreated, hprovider,
    hidentifier, hversion, hsha, hlength, h.length_file, refuseUnless, h.digest, and_self, if_true]
  exact openCiphertext_eq_ok h

/-- The identifier of a wrapped key. -/
def WrappedDek.identifier (w : WrappedDek) : Text :=
  w.providerIdentifier ++ ':' :: (w.keyIdentifier ++ ':' :: w.keyVersion)

lemma wrappedDekKeyIdentifier_eq_ok {id : Text} (hvalid : w.isValid = true) :
    wrappedDekKeyIdentifier w = .ok id ↔ w.identifier.length ≤ 255 ∧ id = w.identifier := by
  have hreferences : validReference w.providerIdentifier = true ∧
      validReference w.keyIdentifier = true ∧ validReference w.keyVersion = true := by
    unfold WrappedDek.isValid at hvalid
    simp only [Bool.and_eq_true] at hvalid
    exact ⟨hvalid.1.1.1, hvalid.1.1.2, hvalid.1.2⟩
  unfold wrappedDekKeyIdentifier keyMetadataIdentifier
  simp only [except_bind_eq_ok, refuseUnless_eq_ok]
  constructor
  · rintro ⟨x, hx, -, -, -, hlength, hid⟩
    obtain ⟨-, rfl⟩ := validateWrappedDek_eq_ok.mp hx
    exact ⟨hlength, (Except.ok.inj hid).symm⟩
  · rintro ⟨hlength, rfl⟩
    exact ⟨w, validateWrappedDek_of_isValid hvalid, (), hreferences, (), hlength, rfl⟩

lemma WrappedDek.identifier_ne_nil (w : WrappedDek) : w.identifier ≠ [] := by
  unfold WrappedDek.identifier
  simp

/-- An artifact is opened again if its key has a short identifier, which the database knows. -/
lemma parseRestoredHeader_eq_ok (h : IsArtifact C r m w file) (hE : E.Holds r m w file)
    {id envelope : Text} (hw' : currentDek w envelope = .ok w') (hvalid : w'.isValid = true) :
    E.parseRestoredHeader C file r.context id envelope = .ok o ↔
      (w'.identifier.length ≤ 255 ∧ id = w'.identifier) ∧
        ∃ dek, E.Unwraps C w' dek ∧ o = openedWith C r m w w' dek := by
  have hcount : ∀ k : String, intMember (headerFields r m.dataNonce w) k =
      some (r.package.byteCount : ℤ) →
      countMember (storedFields r m.dataNonce w) k E.policy.maximumPlaintextBytes =
        some r.package.byteCount := fun k hk =>
    countMember_storedFields hk h.nonempty hE.plaintext
  have hstored : Says r (storedFields r m.dataNonce w) := says_storedFields
  unfold ArtifactProvider.parseRestoredHeader
  simp only [raising_eq_ok, readHeader_isArtifact h hE.header, except_bind_eq_ok,
    refuseUnless_eq_ok, orRefuse_eq_ok, member_wrappedDek,
    exactBytesMember_storedFields h.nonce, Option.some.injEq, exists_eq_left',
    wrappedDekFromDocument_canonical h.valid, Except.ok.injEq, hw',
    hcount "plaintext_byte_count" rfl, hcount "ciphertext_byte_count" rfl,
    hstored.plaintext, h.digest, hstored.created,
    wrappedDekKeyIdentifier_eq_ok hvalid,
    UtcTime.ofTimestamp_timestamp, hstored.schema, hstored.formatVersion, hstored.algorithm,
    hstored.packageFormat, hstored.backup, hstored.tenant, hstored.verification,
    hstored.verificationVersion, hstored.provider, h.format, h.verified.1, h.verified.2,
    h.length_file, openCiphertext_eq_ok h, true_and]
  constructor
  · rintro ⟨-, -, -, x, ⟨hlength, rfl⟩, -, rfl, -, hopened⟩
    exact ⟨⟨hlength, rfl⟩, hopened⟩
  · rintro ⟨⟨hlength, rfl⟩, hopened⟩
    exact ⟨(), ⟨w'.identifier_ne_nil, hlength⟩, (), _, ⟨hlength, rfl⟩, (), rfl, (), hopened⟩

end Opening

end NexaPos.Backups.Encryption
