import NexaPos.Properties.ArtifactRoundTrip

/-!
# Data keys that are wrapped anew

The row of an artifact names the wrapped key that counts.  Wrapping anew replaces it, and the
provider that did it restores the artifact, if its registry finds the key provider of the new key.
A registry looks for the three references of a wrapped key, and for a key of the service whose
answer named another version it has to choose among all providers of the service.
-/

namespace NexaPos.Backups.Encryption

open JsonText StreamCipher Artifacts

/-! ## Key providers -/

/-- Key providers of which none unwraps what another has wrapped to anything else. -/
structure Keyring (gcm : Gcm) where
  providers : Set KeyProvider
  authentic : ∀ {p q : KeyProvider}, p ∈ providers → q ∈ providers →
    ∀ {request : ℕ} {dek nonce : Bytes} {w : WrappedDek} {dek' : Bytes},
      p.wrapDek gcm request dek nonce = .ok w → q.unwrapDek gcm w = .ok dek' → dek' = dek

/-- The key providers of a provider are on the ring. -/
structure ArtifactProvider.Within {gcm : Gcm} (E : ArtifactProvider) (ring : Keyring gcm) :
    Prop where
  kekProvider : E.kekProvider ∈ ring.providers
  registry : ∀ registry ∈ E.keyProviderRegistry, ∀ p ∈ registry.providers, p ∈ ring.providers

section Registry

variable {C : Crypto} {E : ArtifactProvider} {registry : Registry} {w : WrappedDek}
  {p : KeyProvider} {ring : Keyring C.gcm} {dek : Bytes}

lemma Registry.resolve_eq_ok : registry.resolve w = .ok p ↔
    w.isValid = true ∧ registry.candidates w = [p] := by
  unfold Registry.resolve
  rw [except_bind_eq_ok]
  constructor
  · rintro ⟨x, hx, hp⟩
    obtain ⟨hvalid, rfl⟩ := validateWrappedDek_eq_ok.mp hx
    refine ⟨hvalid, ?_⟩
    split at hp
    · rename_i q hcandidates
      rw [hcandidates, Except.ok.inj hp]
    · exact nomatch hp
  · rintro ⟨hvalid, hcandidates⟩
    refine ⟨w, validateWrappedDek_of_isValid hvalid, ?_⟩
    rw [hcandidates]
    rfl

lemma Registry.candidates_subset : ∀ q ∈ registry.candidates w, q ∈ registry.providers := by
  unfold Registry.candidates
  dsimp only
  split
  · exact fun q hq => (List.mem_filter.mp hq).1
  · exact fun q hq => (List.mem_filter.mp hq).1

/-- The key provider that is found is on the ring. -/
lemma mem_of_providerForWrappedDek (hE : E.Within ring) (h : E.providerForWrappedDek w = .ok p) :
    p ∈ ring.providers := by
  unfold ArtifactProvider.providerForWrappedDek at h
  rw [raising_eq_ok] at h
  cases hregistry : E.keyProviderRegistry with
  | none =>
    rw [hregistry] at h
    simp only [except_bind_eq_ok] at h
    obtain ⟨-, -, hp⟩ := h
    obtain rfl := Except.ok.inj hp
    exact hE.kekProvider
  | some registry =>
    rw [hregistry] at h
    refine hE.registry registry hregistry p (Registry.candidates_subset (w := w) p ?_)
    rw [(Registry.resolve_eq_ok.mp h).2]
    exact List.mem_singleton_self p

/-- Whatever unwraps a key, unwraps it to what was wrapped. -/
lemma Unwraps.eq {request : ℕ} {dek' nonce : Bytes} (hE : E.Within ring) (hp : p ∈ ring.providers)
    (hw : p.wrapDek C.gcm request dek nonce = .ok w) (h : E.Unwraps C w dek') : dek' = dek := by
  obtain ⟨q, hq, hdek⟩ := h
  exact ring.authentic hp (mem_of_providerForWrappedDek hE hq) hw hdek

end Registry

/-! ## What a registry finds -/

/-- The answer of the key service names the key as the provider does. -/
def KeyProvider.NamesItself (p : KeyProvider) (request : ℕ) (dek : Bytes) : Prop :=
  match p with
  | localConfigured .. => True
  | awsKms keyIdentifier client =>
    ∀ blob used, client.encrypt request keyIdentifier dek = some (blob, used) →
      used = keyIdentifier

/-- The active key provider names itself, or is the only one of its service. -/
def Registry.Finds (registry : Registry) (request : ℕ) (dek : Bytes) : Prop :=
  registry.active.NamesItself request dek ∨
    ∀ p ∈ registry.historical, p.providerIdentifier ≠ awsKmsProviderIdentifier

section Finds

variable {gcm : Gcm} {registry : Registry} {request : ℕ} {dek nonce : Bytes} {w : WrappedDek}

/-- Where keys are not repeated, an element is found by its key alone. -/
lemma filter_key {α β : Type} [DecidableEq β] {f : α → β} {l : List α} (h : (l.map f).Nodup)
    {x : α} (hx : x ∈ l) : (l.filter fun y => f y = f x) = [x] := by
  induction l with
  | nil => exact nomatch hx
  | cons y l ih =>
    rw [List.map_cons, List.nodup_cons] at h
    rcases List.mem_cons.mp hx with rfl | hx
    · rw [List.filter_cons_of_pos (by simp)]
      congr 1
      refine List.filter_eq_nil_iff.mpr fun z hz => ?_
      rw [decide_eq_true_eq]
      exact fun hkey => h.1 (hkey ▸ List.mem_map_of_mem hz)
    · have hne : f y ≠ f x := fun hkey => h.1 (hkey ▸ List.mem_map_of_mem hx)
      rw [List.filter_cons_of_neg (by simpa using hne)]
      exact ih h.2 hx

/-- A key that names a provider of the registry is found there. -/
lemma candidates_of_identity {p : KeyProvider} (hp : p ∈ registry.providers)
    (h : (w.providerIdentifier, w.keyIdentifier, w.keyVersion) = p.identity) :
    registry.candidates w = [p] := by
  have hfilter : (registry.providers.filter fun q => q.identity = p.identity) = [p] :=
    filter_key registry.nodup hp
  unfold Registry.candidates
  dsimp only
  rw [h, hfilter]
  rfl

/-- A key of the service that has another version is looked for among all of its providers. -/
lemma candidates_of_version {k : Text} {client : KmsClient}
    (hactive : registry.active = .awsKms k client) (hprovider : w.providerIdentifier =
      awsKmsProviderIdentifier) (hidentifier : w.keyIdentifier = k) (hversion : w.keyVersion ≠ k)
    (hvalid : validAwsWrappedDek w = true) :
    registry.candidates w = registry.active :: registry.historical.filter fun p =>
      p.providerIdentifier = awsKmsProviderIdentifier := by
  have hnone : (registry.providers.filter fun p =>
      p.identity = (w.providerIdentifier, w.keyIdentifier, w.keyVersion)) = [] := by
    refine List.filter_eq_nil_iff.mpr fun p _ => ?_
    rw [decide_eq_true_eq, hprovider, hidentifier]
    cases p with
    | localConfigured key keyIdentifier keyVersion =>
      have hne : localKekProviderIdentifier ≠ awsKmsProviderIdentifier := by decide
      exact fun h => hne (congrArg Prod.fst h)
    | awsKms keyIdentifier client =>
      intro h
      obtain ⟨rfl, hsame⟩ := Prod.mk.inj (Prod.mk.inj h).2
      exact hversion hsame.symm
  have hcan : ∀ p : KeyProvider, (decide (p.providerIdentifier = w.providerIdentifier) &&
      p.canUnwrap w) = decide (p.providerIdentifier = awsKmsProviderIdentifier) := by
    intro p
    rw [hprovider]
    cases p with
    | localConfigured key keyIdentifier keyVersion => rfl
    | awsKms keyIdentifier client =>
      unfold KeyProvider.canUnwrap
      rw [hprovider, hvalid]
      rfl
  unfold Registry.candidates
  dsimp only
  rw [hnone, List.isEmpty_nil, if_pos rfl]
  simp only [hcan]
  unfold Registry.providers
  rw [hactive]
  exact List.filter_cons_of_pos rfl

/-- A key that the active provider has wrapped is found exactly if it names itself or is the only
one of its service. -/
lemma resolve_wrapped {p : KeyProvider}
    (hw : registry.active.wrapDek gcm request dek nonce = .ok w) (hvalid : w.isValid = true) :
    registry.resolve w = .ok p ↔ p = registry.active ∧ registry.Finds request dek := by
  rw [Registry.resolve_eq_ok, and_iff_right hvalid]
  unfold Registry.Finds
  cases hactive : registry.active with
  | localConfigured key keyIdentifier keyVersion =>
    rw [hactive] at hw
    simp only [KeyProvider.wrapDek, except_bind_eq_ok] at hw
    obtain ⟨-, -, -, -, hw⟩ := hw
    obtain rfl := Except.ok.inj hw
    rw [candidates_of_identity (List.mem_cons_self ..) (by rw [hactive]; rfl), hactive,
      List.singleton_inj]
    simp [KeyProvider.NamesItself, eq_comm]
  | awsKms k client =>
    rw [hactive] at hw
    simp only [KeyProvider.wrapDek, except_bind_eq_ok, refuseUnless_eq_ok, orRefuse_eq_ok] at hw
    obtain ⟨-, -, ⟨blob, used⟩, hblob, -, haws, hw⟩ := hw
    obtain rfl := Except.ok.inj hw
    by_cases hused : used = k
    · have hnames : (KeyProvider.awsKms k client).NamesItself request dek := by
        intro blob' used' h
        rw [hblob] at h
        cases h
        exact hused
      rw [candidates_of_identity (List.mem_cons_self ..) (by rw [hactive, hused]; rfl), hactive,
        List.singleton_inj]
      simp [hnames, eq_comm]
    · have hnames : ¬ (KeyProvider.awsKms k client).NamesItself request dek := fun h =>
        hused (h blob used hblob)
      rw [candidates_of_version hactive rfl rfl hused haws, hactive, List.cons_eq_cons,
        List.filter_eq_nil_iff]
      simp [hnames, eq_comm]

end Finds

/-! ## Rows -/

section Rows

variable {C : Crypto} {E : ArtifactProvider} {r : Request} {m : Material}
  {w current wrapped : WrappedDek} {file bytes : Bytes} {row : ArtifactRow}
  {ring : Keyring C.gcm}

/-- The row of an artifact names a wrapped key, and the data key is what was wrapped. -/
structure Records (C : Crypto) (ring : Keyring C.gcm) (r : Request) (m : Material)
    (w : WrappedDek) (file : Bytes) (row : ArtifactRow) (current : WrappedDek) : Prop where
  context : row.context = r.context
  size : row.backupSizeBytes = file.length
  digest : row.wholeArtifactHash = C.sha256 file
  counts : currentDek w row.encryptedDataKeyEnvelope = .ok current
  valid : current.isValid = true
  identifier : row.encryptionKeyIdentifier = current.identifier
  short : current.identifier.length ≤ 255
  wrapped : ∃ p ∈ ring.providers, ∃ request nonce,
    p.wrapDek C.gcm request m.dek nonce = .ok current

lemma Records.unwraps_eq (h : Records C ring r m w file row current) (hE : E.Within ring)
    {dek : Bytes} (hdek : E.Unwraps C current dek) : dek = m.dek := by
  obtain ⟨p, hp, request, nonce, hwrap⟩ := h.wrapped
  exact Unwraps.eq hE hp hwrap hdek

lemma Records.checkFile (h : Records C ring r m w file row current)
    (hfile : IsArtifact C r m w file) (hE : E.Holds r m w file) (e : EncryptionError) :
    E.checkFile C file row e = .ok () := by
  have hpos : 1 ≤ file.length := by
    rw [hfile.length_file]
    simp only [prefixSize]
    omega
  unfold ArtifactProvider.checkFile
  simp only [except_bind_eq_ok, refuseUnless_eq_ok, h.size, h.digest]
  exact ⟨(), ⟨hpos, hE.artifact⟩, (), C.hexadecimal file, (), hE.artifact, trivial, trivial⟩

/-- A provider restores an artifact exactly if it unwraps the key that the row names. -/
lemma Records.restore (h : Records C ring r m w file row current)
    (hfile : IsArtifact C r m w file) (hE : E.Holds r m w file) (hring : E.Within ring) :
    E.restore C file row = .ok bytes ↔ E.Unwraps C current m.dek ∧ bytes = r.content := by
  unfold ArtifactProvider.restore
  simp only [h.checkFile hfile hE, except_bind_eq_ok, h.context,
    parseRestoredHeader_eq_ok hfile hE h.counts h.valid]
  constructor
  · rintro ⟨-, -, o, ⟨-, dek, hdek, rfl⟩, hread⟩
    obtain rfl := h.unwraps_eq hring hdek
    rw [plaintext_openedWith hfile] at hread
    exact ⟨hdek, (Except.ok.inj hread).symm⟩
  · rintro ⟨hdek, rfl⟩
    exact ⟨(), trivial, _, ⟨⟨h.short, h.identifier⟩, m.dek, hdek, rfl⟩,
      plaintext_openedWith hfile _⟩

lemma countMember_le {fields : List (Text × JsonText.Value)} {k : String} {maximum n : ℕ}
    (h : countMember fields k maximum = some n) : n ≤ maximum := by
  unfold countMember at h
  simp only [Option.bind_eq_bind, Option.bind_eq_some_iff] at h
  obtain ⟨i, -, hi⟩ := h
  rw [Option.ite_none_right_eq_some] at hi
  obtain ⟨hrange, hn⟩ := hi
  obtain rfl := Option.some.inj hn
  omega

/-- What wrapping anew does to the row of an artifact. -/
lemma Records.rewrap_eq_ok {target : RewrapTarget} {wrapNonce : Bytes} {kmsRequest : ℕ}
    {x : Rewrapped} (h : Records C ring r m w file row current) (hfile : IsArtifact C r m w file)
    (hE : E.Within ring) :
    E.rewrap C file row target wrapNonce kmsRequest = .ok x ↔
      E.admits target = true ∧ E.Holds r m w file ∧ E.Unwraps C current m.dek ∧
        wrapNonce.length = nonceBytes ∧ ∃ wrapped,
          (E.target target).wrapDek C.gcm kmsRequest m.dek wrapNonce = .ok wrapped ∧
          wrapped.isValid = true ∧ wrapped.identifier.length ≤ 255 ∧
          x = ⟨row.encryptionKeyIdentifier, wrapped.identifier, row.encryptedDataKeyEnvelope,
            encode (envelope (.obj (wrappedDekFields wrapped)))⟩ := by
  unfold ArtifactProvider.rewrap
  simp only [raising_eq_ok, except_bind_eq_ok, orRefuse_eq_ok, refuseUnless_eq_ok]
  constructor
  · rintro ⟨-, ⟨-, hadmits⟩, _, hcheck, ⟨headerBytes, fields⟩, hread, document, hdocument,
      embedded, hembedded, count, hcount, -, hfields, counts, hcounts, id, -, -, -, p, hp, dek,
      hdek, -, hnonce, wrapped, hwrapped, -, -, -, -, -, -, newId, hnewId, newEnvelope,
      hnewEnvelope, hresult⟩
    dsimp only at hdocument hcount hfields
    have hheader := header_le_of_readHeader hfile E.policy (by rw [hread]; rfl)
    obtain ⟨rfl, rfl⟩ := Prod.mk.inj
      (Option.some.inj ((readHeader_isArtifact hfile hheader).symm.trans hread))
    rw [member_wrappedDek] at hdocument
    obtain rfl := Option.some.inj hdocument
    obtain rfl := Except.ok.inj
      ((wrappedDekFromDocument_canonical hfile.valid).symm.trans hembedded)
    obtain rfl := Except.ok.inj (h.counts.symm.trans hcounts)
    obtain rfl := h.unwraps_eq hE ⟨p, hp, hdek⟩
    obtain ⟨hvalid, rfl⟩ := serializeWrappedDek_eq_ok.mp hnewEnvelope
    obtain ⟨hshort, rfl⟩ := (wrappedDekKeyIdentifier_eq_ok hvalid).mp hnewId
    have hsize : file.length ≤ E.policy.maximumArtifactBytes := by
      unfold ArtifactProvider.checkFile at hcheck
      simp only [except_bind_eq_ok, refuseUnless_eq_ok] at hcheck
      obtain ⟨-, -, -, -, -, hsize, -⟩ := hcheck
      exact hsize
    have hplaintext : r.package.byteCount ≤ E.policy.maximumPlaintextBytes := by
      have hcounted := countMember_le hcount
      have hsizes : prefixSize + (headerOf r m w).length + count + tagBytes =
          row.backupSizeBytes := hfields.2.2.2.2.2
      have hlength := hfile.length_file
      rw [h.size] at hsizes
      omega
    exact ⟨hadmits, ⟨hheader, hplaintext, hsize⟩, ⟨p, hp, hdek⟩, hnonce, wrapped, hwrapped,
      hvalid, hshort, (Except.ok.inj hresult).symm⟩
  · rintro ⟨hadmits, hholds, ⟨p, hp, hdek⟩, hnonce, wrapped, hwrapped, hvalid, hshort, rfl⟩
    obtain ⟨-, -, -, hcan, hunwrap⟩ := unwrap_wrap hwrapped
    have hidentifier : row.encryptionKeyIdentifier ≠ [] := by
      rw [h.identifier]
      exact current.identifier_ne_nil
    have hstored : Says r (storedFields r m.dataNonce w) := says_storedFields
    have hsizes : prefixSize + (headerOf r m w).length + r.package.byteCount + tagBytes =
        row.backupSizeBytes := hfile.length_file.symm.trans h.size.symm
    have hcount : countMember (storedFields r m.dataNonce w) "ciphertext_byte_count"
        E.policy.maximumPlaintextBytes = some r.package.byteCount :=
      countMember_storedFields rfl hfile.nonempty hholds.plaintext
    refine ⟨(), ⟨hidentifier, hadmits⟩, (), h.checkFile hfile hholds _, _,
      readHeader_isArtifact hfile hholds.header, ?_⟩
    dsimp only
    refine ⟨_, member_wrappedDek, w, wrappedDekFromDocument_canonical hfile.valid,
      r.package.byteCount, hcount, (),
      ⟨hstored.schema, hstored.formatVersion, hstored.algorithm, ?_, ?_, hsizes⟩, current, h.counts,
      current.identifier, (wrappedDekKeyIdentifier_eq_ok h.valid).mpr ⟨h.short, rfl⟩, (),
      h.identifier.symm, p, hp, m.dek, hdek, (), hnonce, wrapped, hwrapped, (), hcan, m.dek,
      hunwrap, (), rfl, wrapped.identifier,
      (wrappedDekKeyIdentifier_eq_ok hvalid).mpr ⟨hshort, rfl⟩, _,
      serializeWrappedDek_eq_ok.mpr ⟨hvalid, rfl⟩, rfl⟩
    · rw [h.context]
      exact hstored.backup
    · rw [h.context]
      exact hstored.tenant

/-- A key that was wrapped anew is a wrapped data key of the artifact. -/
lemma Records.rewrap {target : RewrapTarget} {wrapNonce : Bytes} {kmsRequest : ℕ} {x : Rewrapped}
    (h : Records C ring r m w file row current) (hfile : IsArtifact C r m w file)
    (hE : E.Within ring) (htarget : E.target target ∈ ring.providers)
    (hx : E.rewrap C file row target wrapNonce kmsRequest = .ok x) :
    ∃ wrapped, (E.target target).wrapDek C.gcm kmsRequest m.dek wrapNonce = .ok wrapped ∧
      Records C ring r m w file (row.publish x) wrapped ∧ E.Holds r m w file ∧
      E.admits target = true := by
  obtain ⟨hadmits, hholds, -, -, wrapped, hwrapped, hvalid, hshort, rfl⟩ :=
    (h.rewrap_eq_ok hfile hE).mp hx
  obtain ⟨hnonempty, hdeserialize⟩ :=
    deserialize_serialize (serializeWrappedDek_eq_ok.mpr ⟨hvalid, rfl⟩)
  refine ⟨wrapped, hwrapped, ?_, hholds, hadmits⟩
  unfold ArtifactRow.publish
  rw [if_pos ⟨rfl, rfl⟩]
  exact {
    context := h.context
    size := h.size
    digest := h.digest
    counts := (if_pos hnonempty).trans hdeserialize
    valid := hvalid
    identifier := rfl
    short := hshort
    wrapped := ⟨_, htarget, _, _, hwrapped⟩ }

end Rows

/-! ## Runs -/

/-- A request to wrap a data key anew. -/
structure Attempt where
  provider : ArtifactProvider
  target : RewrapTarget
  wrapNonce : Bytes
  kmsRequest : ℕ

/-- The provider that goes by the target from then on. -/
def Attempt.keeper (a : Attempt) : ArtifactProvider :=
  match a.target with
  | .active => a.provider
  | .other p => {
      policy := a.provider.policy
      kekProvider := p
      keyProviderRegistry := none
      registry_active := fun _ h => nomatch h }

/-- The row of an artifact, and the provider that goes by its key. -/
structure Custody where
  row : ArtifactRow
  keeper : ArtifactProvider

/-- An attempt that fails changes nothing. -/
def Attempt.step (C : Crypto) (file : Bytes) (s : Custody) (a : Attempt) : Custody :=
  match a.provider.rewrap C file s.row a.target a.wrapNonce a.kmsRequest with
  | .ok x => ⟨s.row.publish x, a.keeper⟩
  | .error _ => s

def custody (C : Crypto) (file : Bytes) (attempts : List Attempt) (s : Custody) : Custody :=
  attempts.foldl (Attempt.step C file) s

/-- The key providers of an attempt are on the ring. -/
structure Attempt.Within {gcm : Gcm} (a : Attempt) (ring : Keyring gcm) : Prop where
  provider : a.provider.Within ring
  target : a.provider.target a.target ∈ ring.providers

/-- The registry, if there is one, finds the key provider of the new key. -/
def Attempt.Finds (a : Attempt) (dek : Bytes) : Prop :=
  ∀ registry ∈ a.provider.keyProviderRegistry, registry.Finds a.kmsRequest dek

section Runs

variable {C : Crypto} {r : Request} {m : Material} {w current wrapped : WrappedDek} {file : Bytes}
  {ring : Keyring C.gcm} {s : Custody} {a : Attempt}

/-- Without a registry a provider unwraps what its own key provider has wrapped. -/
lemma unwraps_alone {E : ArtifactProvider} {request : ℕ} {dek nonce : Bytes}
    (hnone : E.keyProviderRegistry = none)
    (hw : E.kekProvider.wrapDek C.gcm request dek nonce = .ok wrapped) :
    E.Unwraps C wrapped dek := by
  obtain ⟨-, -, -, hcan, hunwrap⟩ := unwrap_wrap hw
  refine ⟨E.kekProvider, ?_, hunwrap⟩
  unfold ArtifactProvider.providerForWrappedDek
  rw [hnone, raising_eq_ok, except_bind_eq_ok]
  exact ⟨(), refuseUnless_eq_ok.mpr hcan, rfl⟩

/-- The key that an attempt has wrapped is unwrapped by its keeper exactly if it is found. -/
lemma Attempt.unwraps_iff {dek : Bytes} (hadmits : a.provider.admits a.target = true)
    (hw : (a.provider.target a.target).wrapDek C.gcm a.kmsRequest dek a.wrapNonce = .ok wrapped)
    (hvalid : wrapped.isValid = true) : a.keeper.Unwraps C wrapped dek ↔ a.Finds dek := by
  obtain ⟨-, -, -, -, hunwrap⟩ := unwrap_wrap hw
  obtain ⟨provider, target, wrapNonce, kmsRequest⟩ := a
  cases target with
  | other p =>
    have hnone : provider.keyProviderRegistry = none := Option.isNone_iff_eq_none.mp hadmits
    refine iff_of_true (unwraps_alone rfl hw) fun registry hregistry => ?_
    rw [hnone] at hregistry
    exact nomatch hregistry
  | active =>
    cases hregistry : provider.keyProviderRegistry with
    | none =>
      refine iff_of_true (unwraps_alone hregistry hw) fun registry h => ?_
      rw [hregistry] at h
      exact nomatch h
    | some registry =>
      have hactive := provider.registry_active registry hregistry
      have hresolve : ∀ p, provider.providerForWrappedDek wrapped = .ok p ↔
          p = registry.active ∧ registry.Finds kmsRequest dek := by
        intro p
        unfold ArtifactProvider.providerForWrappedDek
        rw [raising_eq_ok, hregistry]
        have hwrap : registry.active.wrapDek C.gcm kmsRequest dek wrapNonce = .ok wrapped := by
          rw [hactive]
          exact hw
        exact resolve_wrapped hwrap hvalid
      constructor
      · rintro ⟨p, hp, -⟩ registry' h
        rw [hregistry] at h
        obtain rfl := Option.some.inj h
        exact ((hresolve p).mp hp).2
      · intro hfinds
        refine ⟨registry.active, (hresolve _).mpr ⟨rfl, hfinds registry hregistry⟩, ?_⟩
        rw [hactive]
        exact hunwrap

lemma Attempt.Within.keeper (ha : a.Within ring) : a.keeper.Within ring := by
  obtain ⟨provider, target, wrapNonce, kmsRequest⟩ := a
  cases target with
  | active => exact ha.provider
  | other p => exact ⟨ha.target, fun _ h => nomatch h⟩

lemma Attempt.holds_keeper (h : a.provider.Holds r m w file) : a.keeper.Holds r m w file := by
  obtain ⟨provider, target, wrapNonce, kmsRequest⟩ := a
  cases target with
  | active => exact h
  | other p => exact ⟨h.header, h.plaintext, h.artifact⟩

/-- The keeper of an artifact can restore it. -/
structure Kept (C : Crypto) (ring : Keyring C.gcm) (r : Request) (m : Material) (w : WrappedDek)
    (file : Bytes) (s : Custody) : Prop where
  records : ∃ current, Records C ring r m w file s.row current ∧
    s.keeper.Unwraps C current m.dek
  holds : s.keeper.Holds r m w file
  within : s.keeper.Within ring

lemma Kept.restore (h : Kept C ring r m w file s) (hfile : IsArtifact C r m w file) :
    s.keeper.restore C file s.row = .ok r.content := by
  obtain ⟨current, hrecords, hunwraps⟩ := h.records
  exact (hrecords.restore hfile h.holds h.within).mpr ⟨hunwraps, rfl⟩

/-- After an attempt that succeeds, its keeper restores the artifact exactly if it finds the key
provider of the new key. -/
lemma restore_iff_finds (hfile : IsArtifact C r m w file)
    (h : Records C ring r m w file s.row current) (ha : a.Within ring) {x : Rewrapped}
    (hx : a.provider.rewrap C file s.row a.target a.wrapNonce a.kmsRequest = .ok x) :
    a.keeper.restore C file (s.row.publish x) = .ok r.content ↔ a.Finds m.dek := by
  obtain ⟨wrapped, hwrap, hrecords, hholds, hadmits⟩ := h.rewrap hfile ha.provider ha.target hx
  rw [hrecords.restore hfile (a.holds_keeper hholds) ha.keeper, and_iff_left rfl]
  exact a.unwraps_iff hadmits hwrap hrecords.valid

lemma Kept.step (h : Kept C ring r m w file s) (hfile : IsArtifact C r m w file)
    (ha : a.Within ring) (hfinds : a.Finds m.dek) :
    Kept C ring r m w file (a.step C file s) := by
  obtain ⟨current, hcurrent, -⟩ := h.records
  unfold Attempt.step
  split
  · rename_i x hx
    obtain ⟨wrapped, hwrap, hrecords, hholds, hadmits⟩ :=
      hcurrent.rewrap hfile ha.provider ha.target hx
    exact ⟨⟨wrapped, hrecords, (a.unwraps_iff hadmits hwrap hrecords.valid).mpr hfinds⟩,
      a.holds_keeper hholds, ha.keeper⟩
  · exact h

lemma Kept.custody {attempts : List Attempt} (h : Kept C ring r m w file s)
    (hfile : IsArtifact C r m w file)
    (hattempts : ∀ a ∈ attempts, a.Within ring ∧ a.Finds m.dek) :
    Kept C ring r m w file (custody C file attempts s) := by
  induction attempts generalizing s with
  | nil => exact h
  | cons a attempts ih =>
    obtain ⟨⟨ha, hfinds⟩, hattempts⟩ := List.forall_mem_cons.mp hattempts
    exact ih (h.step hfile ha hfinds) hattempts

end Runs

/-! ## New artifacts -/

/-- The identifier of the key that the provider names, or that the answer of the key service
names, is short. -/
def KeyProvider.NameFits (p : KeyProvider) (request : ℕ) (dek : Bytes) : Prop :=
  match p with
  | localConfigured _ keyIdentifier keyVersion =>
    localKekProviderIdentifier.length + keyIdentifier.length + keyVersion.length + 2 ≤ 255
  | awsKms keyIdentifier client =>
    ∀ blob used, client.encrypt request keyIdentifier dek = some (blob, used) →
      awsKmsProviderIdentifier.length + keyIdentifier.length + used.length + 2 ≤ 255

section New

variable {C : Crypto} {E : ArtifactProvider} {r : Request} {m : Material} {request : ℕ}
  {f : Framed} {ring : Keyring C.gcm}

lemma WrappedDek.length_identifier (w : WrappedDek) : w.identifier.length =
    w.providerIdentifier.length + w.keyIdentifier.length + w.keyVersion.length + 2 := by
  unfold WrappedDek.identifier
  simp only [List.length_append, List.length_cons]
  omega

lemma identifier_le_iff {gcm : Gcm} {p : KeyProvider} {dek nonce : Bytes} {w : WrappedDek}
    (h : p.wrapDek gcm request dek nonce = .ok w) :
    w.identifier.length ≤ 255 ↔ p.NameFits request dek := by
  rw [w.length_identifier]
  cases p with
  | localConfigured key keyIdentifier keyVersion =>
    simp only [KeyProvider.wrapDek, except_bind_eq_ok] at h
    obtain ⟨-, -, -, -, hw⟩ := h
    obtain rfl := Except.ok.inj hw
    exact Iff.rfl
  | awsKms keyIdentifier client =>
    simp only [KeyProvider.wrapDek, except_bind_eq_ok, orRefuse_eq_ok] at h
    obtain ⟨-, -, ⟨blob, used⟩, hblob, -, -, hw⟩ := h
    obtain rfl := Except.ok.inj hw
    refine ⟨fun hlength blob' used' h => ?_, fun h => h blob used hblob⟩
    obtain ⟨-, rfl⟩ := Prod.mk.inj (Option.some.inj (hblob.symm.trans h))
    exact hlength

lemma FrameMade.holds (h : FrameMade C E r m request f) : E.Holds r m f.wrapped f.artifact where
  header := by
    rw [← h.header]
    exact h.headerSize
  plaintext := h.plaintext
  artifact := h.size

/-- The row of a new artifact. -/
lemma FrameMade.records (h : FrameMade C E r m request f) (hE : E.Within ring)
    (hfits : E.kekProvider.NameFits request m.dek) :
    Records C ring r m f.wrapped f.artifact (f.row r f.wrapped.identifier) f.wrapped where
  context := rfl
  size := by
    unfold Framed.row
    rw [h.result]
  digest := by
    unfold Framed.row
    rw [h.result]
  counts := if_neg fun hne => hne rfl
  valid := h.isArtifact.valid
  identifier := rfl
  short := (identifier_le_iff h.wrap).mpr hfits
  wrapped := ⟨E.kekProvider, hE.kekProvider, request, m.wrapNonce, h.wrap⟩

/-- A new artifact is authenticated if its key is found. -/
lemma encryptVerifiedPackage_eq_ok (hE : E.Within ring) :
    E.encryptVerifiedPackage C r m request = .ok f ↔
      E.frame C r m request = .ok f ∧ E.Unwraps C f.wrapped m.dek := by
  have hparse : FrameMade C E r m request f → ∀ o,
      E.parseHeader C f.artifact r.context r.package r.verification f.result = .ok o ↔
        ∃ dek, E.Unwraps C f.wrapped dek ∧ o = openedWith C r m f.wrapped f.wrapped dek := by
    intro h o
    refine parseHeader_eq_ok h.isArtifact h.holds ?_ ?_ ?_ ?_ ?_ ?_
    all_goals rw [h.result]
    rw [h.header]
  unfold ArtifactProvider.encryptVerifiedPackage ArtifactProvider.authenticate
  simp only [except_bind_eq_ok]
  constructor
  · rintro ⟨f', hframe, -, ⟨o, ho, -, -, -⟩, hf⟩
    obtain rfl := Except.ok.inj hf
    have h := frame_ok hframe
    obtain ⟨dek, hdek, -⟩ := (hparse h o).mp ho
    obtain rfl := Unwraps.eq hE hE.kekProvider h.wrap hdek
    exact ⟨hframe, hdek⟩
  · rintro ⟨hframe, hdek⟩
    have h := frame_ok hframe
    exact ⟨f, hframe, (), ⟨_, (hparse h _).mpr ⟨m.dek, hdek, rfl⟩, r.content,
      plaintext_openedWith h.isArtifact _, rfl⟩, rfl⟩

/-- A new artifact is opened by both parsers and read to the bytes of its package, the second
parser exactly if the identifier of its key is short; and after any attempts to wrap its data key
anew of which each finds the key provider of the key that it wraps, it is restored to the same
bytes.  After an attempt that succeeds and does not find it, the artifact is not restored. -/
theorem artifact_round_trip (hE : E.Within ring)
    (h : E.encryptVerifiedPackage C r m request = .ok f) :
    ∃ o, (E.parseHeader C f.artifact r.context r.package r.verification f.result = .ok o ∧
        o.headerBytes = f.headerBytes ∧ o.wrapped = f.wrapped ∧
        o.plaintext C E.policy f.artifact = .ok r.content) ∧
      ((∃ id, E.parseRestoredHeader C f.artifact r.context id [] = .ok o) ↔
        E.kekProvider.NameFits request m.dek) ∧
      (E.kekProvider.NameFits request m.dek →
        ∀ attempts : List Attempt, (∀ a ∈ attempts, a.Within ring ∧ a.Finds m.dek) →
          let s := custody C f.artifact attempts ⟨f.row r f.wrapped.identifier, E⟩
          s.keeper.restore C f.artifact s.row = .ok r.content ∧
          ∀ (a : Attempt) (x : Rewrapped), a.Within ring →
            a.provider.rewrap C f.artifact s.row a.target a.wrapNonce a.kmsRequest = .ok x →
            (a.keeper.restore C f.artifact (s.row.publish x) = .ok r.content ↔
              a.Finds m.dek)) := by
  obtain ⟨hframe, hunwraps⟩ := (encryptVerifiedPackage_eq_ok hE).mp h
  have hmade := frame_ok hframe
  have hfile := hmade.isArtifact
  have hheader : (openedWith C r m f.wrapped f.wrapped m.dek).headerBytes =
      headerOf r m f.wrapped := by
    unfold openedWith
    dsimp only
  refine ⟨openedWith C r m f.wrapped f.wrapped m.dek, ⟨?_, hheader.trans hmade.header.symm, ?_,
    plaintext_openedWith hfile _⟩, ?_, fun hfits attempts hattempts => ?_⟩
  · refine (parseHeader_eq_ok hfile hmade.holds ?_ ?_ ?_ ?_ ?_ ?_).mpr ⟨m.dek, hunwraps, rfl⟩
    all_goals rw [hmade.result]
    rw [hmade.header]
  · unfold openedWith
    dsimp only
  · simp only [parseRestoredHeader_eq_ok hfile hmade.holds (if_neg fun hne => hne rfl) hfile.valid,
      identifier_le_iff hmade.wrap]
    exact ⟨fun ⟨_, ⟨hfits, _⟩, _⟩ => hfits, fun hfits => ⟨_, ⟨hfits, rfl⟩, m.dek, hunwraps, rfl⟩⟩
  · have hrecords := hmade.records hE hfits
    have hkept : Kept C ring r m f.wrapped f.artifact ⟨f.row r f.wrapped.identifier, E⟩ :=
      ⟨⟨f.wrapped, hrecords, hunwraps⟩, hmade.holds, hE⟩
    have hend := hkept.custody hfile hattempts
    refine ⟨hend.restore hfile, fun a x ha hx => ?_⟩
    obtain ⟨current, hcurrent, -⟩ := hend.records
    exact restore_iff_finds hfile hcurrent ha hx

end New

/-! ## A vault -/

/-- A local key and the keys of one service make a ring. -/
def Keyring.ofService (gcm : Gcm) (key : Bytes) (keyIdentifier keyVersion : Text)
    (client : KmsClient) : Keyring gcm where
  providers := {p | p = .localConfigured key keyIdentifier keyVersion ∨ ∃ k, p = .awsKms k client}
  authentic := by
    have hne : localKekProviderIdentifier ≠ awsKmsProviderIdentifier := by decide
    intro p q hp hq request dek nonce w dek' hwrap hunwrap
    obtain ⟨hprovider, -, -, -, hown⟩ := unwrap_wrap hwrap
    rcases hp with rfl | ⟨k, rfl⟩ <;> rcases hq with rfl | ⟨k', rfl⟩
    · exact Except.ok.inj (hunwrap.symm.trans hown)
    · simp only [KeyProvider.unwrapDek, except_bind_eq_ok, refuseUnless_eq_ok,
        KeyProvider.canUnwrap, Bool.and_eq_true, decide_eq_true_eq] at hunwrap
      obtain ⟨-, ⟨hother, -⟩, -⟩ := hunwrap
      exact absurd (hprovider.symm.trans hother) hne
    · simp only [KeyProvider.unwrapDek, except_bind_eq_ok, refuseUnless_eq_ok,
        KeyProvider.canUnwrap, decide_eq_true_eq] at hunwrap
      obtain ⟨-, ⟨hidentity, -⟩, -⟩ := hunwrap
      exact absurd ((Prod.mk.inj hidentity).1.symm.trans hprovider) hne
    · -- Both ask the same service, which has one answer.
      simp only [KeyProvider.unwrapDek, except_bind_eq_ok, refuseUnless_eq_ok,
        orRefuse_eq_ok] at hunwrap hown
      obtain ⟨-, -, ⟨dek₁, answered₁⟩, hdecrypt₁, -, -, hdek₁⟩ := hunwrap
      obtain ⟨-, -, ⟨dek₂, answered₂⟩, hdecrypt₂, -, -, hdek₂⟩ := hown
      obtain ⟨rfl, -⟩ := Prod.mk.inj (Option.some.inj (hdecrypt₁.symm.trans hdecrypt₂))
      exact (Except.ok.inj hdek₁).symm.trans (Except.ok.inj hdek₂)

/-- A cipher whose keystream is the key, and whose tag counts. -/
def vaultCrypto : Crypto where
  gcm key _ aad := {
    keystream := fun i => key.getD (i % keyBytes) 0
    tag := fun ciphertext => ByteLayout.bytes tagBytes (ciphertext.sum.toNat + aad.length) }
  sha256 _ := List.replicate 64 'a'
  hexadecimal _ := by decide

/-- A service that names every key by its resource name. -/
def vaultService : KmsClient where
  encrypt _ _ dek := some (dek.reverse, "arn:aws:kms:key/1".toList)
  decrypt blob used _ := some (blob.reverse, some used)
  correct h := by
    obtain ⟨rfl, rfl⟩ := Prod.mk.inj (Option.some.inj h)
    rw [List.reverse_reverse]

def vaultPolicy : EncryptionPolicy where
  chunkBytes := 4096
  maximumPlaintextBytes := 1000000
  maximumArtifactBytes := 2000000
  maximumHeaderBytes := 65536
  chunk_range := by decide
  plaintext_range := by decide
  artifact_range := by decide
  header_range := by decide

/-- The local key under a name. -/
def vaultKey (name : Text) : KeyProvider :=
  .localConfigured (List.replicate keyBytes 7) name ['1']

/-- A provider without a registry. -/
def vault (name : Text) : ArtifactProvider where
  policy := vaultPolicy
  kekProvider := vaultKey name
  keyProviderRegistry := none
  registry_active _ h := nomatch h

def vaultRequest : Request where
  context := ⟨"6f1c".toList, "a2b3".toList⟩
  package := ⟨3, List.replicate 64 'a', packageFormatIdentifier⟩
  verification := ⟨verificationSchemaIdentifier, independentPackageVerifierIdentifier⟩
  createdAt := ⟨⟨2024, 5, 6, 7, 8, 9, 10⟩, by decide⟩
  pieces := [[1, 2], [3]]

def vaultMaterial : Material where
  dek := List.range keyBytes |>.map UInt8.ofNat
  dataNonce := List.replicate nonceBytes 1
  wrapNonce := List.replicate nonceBytes 2

/-- A provider whose active key is one of the service. -/
def rotated (historical : List KeyProvider)
    (h : ((.awsKms "alias/new".toList vaultService :: historical).map KeyProvider.identity).Nodup) :
    ArtifactProvider where
  policy := vaultPolicy
  kekProvider := .awsKms "alias/new".toList vaultService
  keyProviderRegistry := some ⟨.awsKms "alias/new".toList vaultService, historical, h⟩
  registry_active _ h := by
    obtain rfl := Option.some.inj h
    rfl

/-- The data key, wrapped by the service. -/
def rotatedDek : WrappedDek where
  providerIdentifier := awsKmsProviderIdentifier
  keyIdentifier := "alias/new".toList
  keyVersion := "arn:aws:kms:key/1".toList
  algorithm := awsKmsWrapAlgorithm
  nonce := []
  wrappedKey := vaultMaterial.dek.reverse
  tag := []

def vaultRing : Keyring vaultCrypto.gcm :=
  .ofService _ (List.replicate keyBytes 7) ['k'] ['1'] vaultService

lemma vault_frame : ((vault ['k']).frame vaultCrypto vaultRequest vaultMaterial 0).isOk = true := by
  decide +kernel

lemma vault_fits : (vault ['k']).kekProvider.NameFits 0 vaultMaterial.dek := by
  show localKekProviderIdentifier.length + 1 + 1 + 2 ≤ 255
  decide

lemma vault_within : (vault ['k']).Within vaultRing := ⟨.inl rfl, fun _ h => nomatch h⟩

/-- The vault has made an artifact. -/
lemma vault_encrypted : ∃ f, (vault ['k']).encryptVerifiedPackage vaultCrypto vaultRequest
    vaultMaterial 0 = .ok f := by
  have hok := vault_frame
  cases hframe : (vault ['k']).frame vaultCrypto vaultRequest vaultMaterial 0 with
  | error e =>
    rw [hframe] at hok
    exact nomatch hok
  | ok f =>
    exact ⟨f, (encryptVerifiedPackage_eq_ok vault_within).mpr
      ⟨hframe, unwraps_alone rfl (frame_ok hframe).wrap⟩⟩

/-- A provider that knows the local key wraps the data key of the vault anew. -/
lemma rotated_rewrap {historical : List KeyProvider} {f : Framed}
    (h : ((.awsKms "alias/new".toList vaultService :: historical).map KeyProvider.identity).Nodup)
    (hmem : vaultKey ['k'] ∈ historical)
    (hring : (rotated historical h).Within vaultRing)
    (hf : (vault ['k']).encryptVerifiedPackage vaultCrypto vaultRequest vaultMaterial 0 = .ok f) :
    ∃ x, (rotated historical h).rewrap vaultCrypto f.artifact (f.row vaultRequest
      f.wrapped.identifier) .active (List.replicate nonceBytes 3) 1 = .ok x := by
  have hmade := frame_ok ((encryptVerifiedPackage_eq_ok vault_within).mp hf).1
  have hrecords := hmade.records vault_within vault_fits
  obtain ⟨-, -, -, hcan, hunwrap⟩ := unwrap_wrap hmade.wrap
  have hidentity : (f.wrapped.providerIdentifier, f.wrapped.keyIdentifier, f.wrapped.keyVersion) =
      (vaultKey ['k']).identity := of_decide_eq_true hcan
  have hwrap : (KeyProvider.awsKms "alias/new".toList vaultService).wrapDek vaultCrypto.gcm 1
      vaultMaterial.dek (List.replicate nonceBytes 3) = .ok rotatedDek := by decide +kernel
  refine ⟨_, (hrecords.rewrap_eq_ok hmade.isArtifact hring).mpr ⟨rfl, ?_, ?_, rfl, rotatedDek,
    hwrap, by decide +kernel, by decide +kernel, rfl⟩⟩
  · exact ⟨hmade.holds.header, hmade.holds.plaintext, hmade.holds.artifact⟩
  · refine ⟨vaultKey ['k'], ?_, hunwrap⟩
    unfold ArtifactProvider.providerForWrappedDek
    rw [raising_eq_ok]
    exact Registry.resolve_eq_ok.mpr ⟨hmade.isArtifact.valid,
      candidates_of_identity (List.mem_cons_of_mem _ hmem) hidentity⟩

lemma vault_names_nodup : (([.awsKms "alias/new".toList vaultService, vaultKey ['k'],
    .awsKms "alias/old".toList vaultService] : List KeyProvider).map
      KeyProvider.identity).Nodup := by
  decide +kernel

lemma vault_pair_nodup : (([.awsKms "alias/new".toList vaultService, vaultKey ['k']] :
    List KeyProvider).map KeyProvider.identity).Nodup := by
  decide +kernel

/-- The vault's data key is wrapped by a service of which the registry knows one key. -/
def vaultAttempt : Attempt where
  provider := rotated [vaultKey ['k']] vault_pair_nodup
  target := .active
  wrapNonce := List.replicate nonceBytes 3
  kmsRequest := 1

lemma vaultAttempt_within : vaultAttempt.Within vaultRing := by
  refine ⟨⟨.inr ⟨_, rfl⟩, fun registry hregistry p hp => ?_⟩, .inr ⟨_, rfl⟩⟩
  obtain rfl := Option.some.inj hregistry
  simp only [Registry.providers, List.mem_cons, List.not_mem_nil, or_false] at hp
  rcases hp with rfl | rfl
  · exact .inr ⟨_, rfl⟩
  · exact .inl rfl

lemma vaultAttempt_finds : vaultAttempt.Finds vaultMaterial.dek := by
  intro registry hregistry
  obtain rfl := Option.some.inj hregistry
  refine .inr fun p hp => ?_
  obtain rfl := List.mem_singleton.mp hp
  decide

/-- After the attempt the artifact is restored. -/
theorem artifact_round_trip_vault : ∃ (f : Framed) (x : Rewrapped)
    (h : (([.awsKms "alias/new".toList vaultService, vaultKey ['k']] : List KeyProvider).map
      KeyProvider.identity).Nodup),
    (vault ['k']).encryptVerifiedPackage vaultCrypto vaultRequest vaultMaterial 0 = .ok f ∧
      (rotated [vaultKey ['k']] h).rewrap vaultCrypto f.artifact
        (f.row vaultRequest f.wrapped.identifier) .active (List.replicate nonceBytes 3) 1 = .ok x ∧
      (rotated [vaultKey ['k']] h).restore vaultCrypto f.artifact
        ((f.row vaultRequest f.wrapped.identifier).publish x) = .ok [1, 2, 3] := by
  obtain ⟨f, hf⟩ := vault_encrypted
  obtain ⟨x, hx⟩ := rotated_rewrap vault_pair_nodup (List.mem_singleton_self _)
    vaultAttempt_within.provider hf
  obtain ⟨-, -, -, hrun⟩ := artifact_round_trip vault_within hf
  have hend := (hrun vault_fits [] fun _ ha => nomatch ha).2 vaultAttempt x vaultAttempt_within hx
  exact ⟨f, x, vault_pair_nodup, hf, hx, hend.mpr vaultAttempt_finds⟩

/-- With two keys of the service in the registry, wrapping anew succeeds and the artifact is not
restored. -/
theorem artifact_round_trip_ambiguous : ∃ (f : Framed) (x : Rewrapped),
    (vault ['k']).encryptVerifiedPackage vaultCrypto vaultRequest vaultMaterial 0 = .ok f ∧
      (rotated _ vault_names_nodup).rewrap vaultCrypto f.artifact
        (f.row vaultRequest f.wrapped.identifier) .active (List.replicate nonceBytes 3) 1 = .ok x ∧
      (rotated _ vault_names_nodup).restore vaultCrypto f.artifact
        ((f.row vaultRequest f.wrapped.identifier).publish x) ≠ .ok vaultRequest.content := by
  have hring : (rotated _ vault_names_nodup).Within vaultRing := by
    refine ⟨.inr ⟨_, rfl⟩, fun registry hregistry p hp => ?_⟩
    obtain rfl := Option.some.inj hregistry
    simp only [Registry.providers, List.mem_cons, List.not_mem_nil, or_false] at hp
    rcases hp with rfl | rfl | rfl
    · exact .inr ⟨_, rfl⟩
    · exact .inl rfl
    · exact .inr ⟨_, rfl⟩
  obtain ⟨f, hf⟩ := vault_encrypted
  obtain ⟨x, hx⟩ := rotated_rewrap vault_names_nodup (List.mem_cons_self ..) hring hf
  have hmade := frame_ok ((encryptVerifiedPackage_eq_ok vault_within).mp hf).1
  have hrecords := hmade.records vault_within vault_fits
  let a : Attempt := ⟨rotated _ vault_names_nodup, .active, List.replicate nonceBytes 3, 1⟩
  refine ⟨f, x, hf, hx, fun hrestored => ?_⟩
  have hfinds : a.Finds vaultMaterial.dek :=
    (restore_iff_finds (s := ⟨_, vault ['k']⟩) (a := a) hmade.isArtifact hrecords
      ⟨hring, .inr ⟨_, rfl⟩⟩ hx).mp hrestored
  rcases hfinds _ rfl with hnames | hothers
  · exact absurd (hnames _ _ rfl) (by decide)
  · exact hothers (.awsKms "alias/old".toList vaultService)
      (List.mem_cons_of_mem _ (List.mem_singleton_self _)) rfl

end NexaPos.Backups.Encryption
