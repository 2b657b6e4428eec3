import NexaPos.Properties.RewrappedKeys
import NexaPos.Properties.RecoveredObjects

/-!
# Backups that are restored

The artifact of a package is stored, the process may die, the data key may be wrapped anew, and a
restore re-attests the stored object, opens it and decrypts what it reads.
-/

namespace NexaPos.Backups

open DurableStorage Encryption

section Restore

variable {C : Crypto} {E : ArtifactProvider} {q : Encryption.Request} {m : Material} {request : ℕ}
  {f : Framed} {ring : Keyring C.gcm}

/-- The row of a new artifact and its provider, after attempts to wrap the data key anew. -/
def Encryption.Framed.kept (f : Framed) (C : Crypto) (E : ArtifactProvider)
    (q : Encryption.Request) (attempts : List Attempt) : Custody :=
  custody C f.artifact attempts ⟨f.row q f.wrapped.identifier, E⟩

/-- What reads the bytes of the artifact restores the package. -/
lemma restore_kept (hE : E.Within ring) (h : E.encryptVerifiedPackage C q m request = .ok f)
    (hfits : E.kekProvider.NameFits request m.dek) {attempts : List Attempt}
    (hattempts : ∀ a ∈ attempts, a.Within ring ∧ a.Finds m.dek) :
    (f.kept C E q attempts).keeper.restore C f.artifact (f.kept C E q attempts).row =
      .ok q.content := by
  obtain ⟨hframe, hunwraps⟩ := (encryptVerifiedPackage_eq_ok hE).mp h
  have hmade := frame_ok hframe
  have hkept : Encryption.Kept C ring q m f.wrapped f.artifact
      ⟨f.row q f.wrapped.identifier, E⟩ :=
    ⟨⟨f.wrapped, hmade.records hE hfits, hunwraps⟩, hmade.holds, hE⟩
  exact (hkept.custody hmade.isArtifact hattempts).restore hmade.isArtifact

/-- A backup whose artifact was encrypted and stored is restored to the content of its package, by
any later process that is answered, after any attempts to wrap its data key anew of which each finds
the key provider of the key that it wraps; and a restore that is given a reader is never given
another content, however its calls fail. -/
theorem backups_survive (hE : E.Within ring)
    (hencrypted : E.encryptVerifiedPackage C q m request = .ok f)
    (hfits : E.kekProvider.NameFits request m.dek) {setup : Setup} {s t : Provider}
    {x : DurableStorage.Site} {r : DurableStorage.Request} {result : StoredResult}
    (before : List Operation)
    (hempty : s.site.registry = {}) (hvalid : s.site.disk.Valid)
    (hbefore : Performs setup before s t)
    (hstaged : ∀ chunks, setup.artifact r.encryptedArtifact.reference = some chunks →
      readBytes chunks = f.artifact)
    (hstore : Calls setup (storeEncryptedArtifact setup r) t.site (.ok (.returned result)) x) :
    ∀ later v c attempts, Performs setup later ⟨x, t.attested⟩ v →
      (∀ op ∈ later, op.Spares (stateKey r.context result.reference)) →
      r.context.SameBackup c → v.attested (stateKey c result.reference) = none →
      (∀ a ∈ attempts, a.Within ring ∧ a.Finds m.dek) →
      let kept := f.kept C E q attempts
      (∃ answer attested bytes,
        answered setup (reattestStoredObject setup v.attested c (result.persisted c)) v.site =
          (.ok (answer, attested), v.site) ∧
        answered setup (openReattestedObject setup attested c answer pure) v.site =
          (.ok bytes, v.site) ∧
        kept.keeper.restore C bytes kept.row = .ok q.content) ∧
      ∀ answer attested w,
        Calls setup (reattestStoredObject setup v.attested c (result.persisted c)) v.site
          (.ok (answer, attested)) w →
        ∀ raises bytes y,
          Calls setup (openReattestedObject setup attested c answer (reading raises)) w
            (.ok bytes) y → kept.keeper.restore C bytes kept.row = .ok q.content := by
  obtain ⟨chunks, hartifact, hlater⟩ :=
    ((kept_empty hempty hvalid).performs hbefore).survives hstore
  have hbytes := hstaged chunks hartifact
  intro later v c attempts hrun hspares hsame hnone hattempts kept
  have hrestore : kept.keeper.restore C f.artifact kept.row = .ok q.content :=
    restore_kept hE hencrypted hfits hattempts
  have hrecovers := hlater later v c hrun hspares hsame hnone
  rw [hbytes] at hrecovers
  obtain ⟨answer, attested, hreattested, hopened⟩ := hrecovers.answers
  refine ⟨⟨answer, attested, f.artifact, hreattested, hopened, hrestore⟩, ?_⟩
  intro answer attested w hreattest raises bytes y hopen
  obtain rfl := hrecovers.only answer attested w hreattest raises bytes y hopen
  exact hrestore

end Restore

/-! ## A vault -/

/-- The bytes of the artifact of the vault. -/
def stagedBytes : DurableStorage.Bytes :=
  (((Encryption.vault ['k']).frame vaultCrypto Encryption.vaultRequest vaultMaterial
    0).toOption.map Framed.artifact).getD []

lemma stagedBytes_eq {f : Framed} (h : (Encryption.vault ['k']).encryptVerifiedPackage vaultCrypto
    Encryption.vaultRequest vaultMaterial 0 = .ok f) : stagedBytes = f.artifact := by
  have hframe := ((encryptVerifiedPackage_eq_ok vault_within).mp h).1
  rw [stagedBytes, hframe]
  rfl

lemma readBytes_singleton (bytes : DurableStorage.Bytes) : readBytes [bytes] = bytes := by
  cases bytes with
  | nil => rfl
  | cons b bytes => simp [readBytes]

/-- A shelf on which the artifact of the vault is staged. -/
def strongroom : Setup :=
  { shelf with
    chunkBytes := 10000
    maximumObjectBytes := 10000
    free := 100000
    sha256 := fun _ => "artifact"
    artifact := fun _ => some [stagedBytes] }

def strongroomRequest : DurableStorage.Request where
  context := ⟨3, "a2b3", "6f1c"⟩
  encryptedArtifact := ⟨1, stagedBytes.length, "artifact", true⟩

def strongroomResult : StoredResult :=
  ⟨"first", stagedBytes.length, "artifact", "6f1c", "a2b3", 7, false⟩

def artifactStored : DurableStorage.Site :=
  (answered strongroom (storeEncryptedArtifact strongroom strongroomRequest) emptySite).2

lemma calls_strongroom : Calls strongroom (storeEncryptedArtifact strongroom strongroomRequest)
    emptySite (.ok (.returned strongroomResult)) artifactStored := by
  have hcall := calls_of_answered strongroom (storeEncryptedArtifact strongroom strongroomRequest)
    emptySite
  have hanswer : (answered strongroom (storeEncryptedArtifact strongroom strongroomRequest)
      emptySite).1 = .ok (.returned strongroomResult) := by decide +kernel
  rwa [hanswer] at hcall

/-- The artifact of the vault is stored, the process dies, the data key is wrapped anew, and another
process restores the package under the new key. -/
theorem backups_survive_strongroom : ∃ (f : Framed) (x : Rewrapped), ∃ answer attested bytes,
    vaultAttempt.provider.rewrap vaultCrypto f.artifact
      (f.row Encryption.vaultRequest f.wrapped.identifier) vaultAttempt.target
      vaultAttempt.wrapNonce vaultAttempt.kmsRequest = .ok x ∧
    answered strongroom (reattestStoredObject strongroom (fun _ => none) ⟨9, "a2b3", "6f1c"⟩
      (strongroomResult.persisted ⟨9, "a2b3", "6f1c"⟩)) ⟨{}, artifactStored.disk⟩ =
      (.ok (answer, attested), ⟨{}, artifactStored.disk⟩) ∧
    answered strongroom (openReattestedObject strongroom attested ⟨9, "a2b3", "6f1c"⟩ answer pure)
      ⟨{}, artifactStored.disk⟩ = (.ok bytes, ⟨{}, artifactStored.disk⟩) ∧
    vaultAttempt.provider.restore vaultCrypto bytes
      ((f.row Encryption.vaultRequest f.wrapped.identifier).publish x) = .ok [1, 2, 3] := by
  obtain ⟨f, hf⟩ := vault_encrypted
  obtain ⟨x, hx⟩ : ∃ x, vaultAttempt.provider.rewrap vaultCrypto f.artifact
      (f.row Encryption.vaultRequest f.wrapped.identifier) vaultAttempt.target
      vaultAttempt.wrapNonce vaultAttempt.kmsRequest = .ok x :=
    rotated_rewrap vault_pair_nodup (List.mem_singleton_self _) vaultAttempt_within.provider hf
  have hbefore : Performs strongroom [] emptySite.fresh emptySite.fresh := rfl
  have hstaged : ∀ chunks, strongroom.artifact strongroomRequest.encryptedArtifact.reference =
      some chunks → readBytes chunks = f.artifact := by
    intro chunks hchunks
    obtain rfl : [stagedBytes] = chunks := Option.some.inj hchunks
    rw [readBytes_singleton, stagedBytes_eq hf]
  have hrestart : Performs strongroom [.restart] artifactStored.fresh
      ⟨⟨{}, artifactStored.disk⟩, fun _ => none⟩ := ⟨_, rfl, rfl⟩
  have hspares : ∀ op ∈ [Operation.restart],
      op.Spares (stateKey strongroomRequest.context strongroomResult.reference) := by
    simp only [List.forall_mem_cons]
    exact ⟨trivial, fun _ h => (List.not_mem_nil h).elim⟩
  have hattempts : ∀ a ∈ [vaultAttempt], a.Within vaultRing ∧ a.Finds vaultMaterial.dek :=
    List.forall_mem_singleton.mpr ⟨vaultAttempt_within, vaultAttempt_finds⟩
  have hkept : f.kept vaultCrypto (Encryption.vault ['k']) Encryption.vaultRequest [vaultAttempt] =
      ⟨(f.row Encryption.vaultRequest f.wrapped.identifier).publish x, vaultAttempt.provider⟩ := by
    show Attempt.step vaultCrypto f.artifact _ vaultAttempt = _
    rw [Attempt.step, hx]
    rfl
  obtain ⟨answer, attested, bytes, hreattested, hopened, hrestored⟩ :=
    (backups_survive vault_within hf vault_fits [] rfl emptySite_valid hbefore hstaged
      calls_strongroom [.restart] _ ⟨9, "a2b3", "6f1c"⟩ [vaultAttempt] hrestart hspares ⟨rfl, rfl⟩
      rfl hattempts).1
  rw [hkept] at hrestored
  exact ⟨f, x, answer, attested, bytes, hx, hreattested, hopened, hrestored⟩

end NexaPos.Backups
