import NexaPos.Properties.StoredObjects

/-!
# Runs of a storage provider

A provider is asked for its operations in any order, every call may fail anywhere, and the process
may die and be started again with nothing but the disk.  `Kept` holds all along.  So an object lasts
until its own deletion is called, a reference names one object as long as the process lives, and a
deletion that returned is final.
-/

namespace NexaPos.Backups.DurableStorage

open FileTree Routine

variable {setup : Setup} {d d' : Disk} {c : Context} {reference : String} {r : Request}
  {evidence : Evidence} {k : ℕ × String}

/-! ## Runs -/

/-- A provider, what it has re-attested, and its disk. -/
structure Provider where
  site : Site
  attested : Attested := fun _ => none

inductive Operation
  | store (r : Request)
  | delete (c : Context) (reference : String)
  | openObject (c : Context) (reference : String)
  | validate (c : Context) (result : StoredResult)
  | confirmAbsent (c : Context) (reference : String)
  | retryCleanup (r : Request) (result : StoredResult)
  | reattest (c : Context) (descriptor : PersistedStoredObjectDescriptor)
  | validateReattested (c : Context) (result : ReattestedStoredObjectResult)
  /-- The code that is given the reader may raise. -/
  | openReattested (c : Context) (result : ReattestedStoredObjectResult)
      (raises : Bytes → Option Fault)
  | releaseReattested (c : Context) (result : ReattestedStoredObjectResult)
  /-- The process dies, and another one takes its place. -/
  | restart

/-- The code that is given the reader of an object. -/
def reading (raises : Bytes → Option Fault) (bytes : Bytes) : Code Bytes :=
  match raises bytes with
  | some f => throw f
  | none => pure bytes

/-- A call may end in any way; what is re-attested changes when it returns. -/
def Operation.Leads (setup : Setup) : Operation → Provider → Provider → Prop
  | .store r, s, t =>
    (∃ x, Calls setup (storeEncryptedArtifact setup r) s.site x t.site) ∧
      t.attested = s.attested
  | .delete c reference, s, t =>
    (∃ x, Calls setup (deleteStoredObject setup c reference) s.site x t.site) ∧
      t.attested = s.attested
  | .openObject c reference, s, t =>
    (∃ x, Calls setup (openStoredObject setup c reference) s.site x t.site) ∧
      t.attested = s.attested
  | .validate c result, s, t =>
    (∃ x, Calls setup (validateStoredObject setup c result) s.site x t.site) ∧
      t.attested = s.attested
  | .confirmAbsent c reference, s, t =>
    (∃ x, Calls setup (confirmStoredObjectAbsent setup c reference) s.site x t.site) ∧
      t.attested = s.attested
  | .retryCleanup r result, s, t =>
    (∃ x, Calls setup (retryEncryptedStagingCleanup setup r result) s.site x t.site) ∧
      t.attested = s.attested
  | .reattest c descriptor, s, t =>
    ∃ x, Calls setup (reattestStoredObject setup s.attested c descriptor) s.site x t.site ∧
      t.attested = match x with
        | .ok a => a.2
        | .error _ => s.attested
  | .validateReattested c result, s, t =>
    (∃ x, Calls setup (validateReattestedObject setup s.attested c result) s.site x t.site) ∧
      t.attested = s.attested
  | .openReattested c result raises, s, t =>
    (∃ x, Calls setup (openReattestedObject setup s.attested c result (reading raises)) s.site x
      t.site) ∧ t.attested = s.attested
  | .releaseReattested c result, s, t =>
    ∃ x, Calls setup (releaseReattestedObject s.attested c result) s.site x t.site ∧
      t.attested = match x with
        | .ok a => a
        | .error _ => s.attested
  | .restart, s, t => t = { site := { registry := {}, disk := s.site.disk } }

/-- One operation after the other. -/
def Performs (setup : Setup) : List Operation → Provider → Provider → Prop
  | [], s, t => s = t
  | op :: ops, s, t => ∃ u, op.Leads setup s u ∧ Performs setup ops u t

lemma looks_reading {raises : Bytes → Option Fault} (bytes : Bytes) :
    Looks setup (reading raises bytes) := by
  rw [reading]
  cases raises bytes with
  | none => exact looks_pure
  | some f => exact looks_throw

/-- The operations that look only. -/
def Operation.Quiet : Operation → Prop
  | .store _ => False
  | .delete _ _ => False
  | .retryCleanup _ _ => False
  | .restart => False
  | _ => True

variable {s t u v : Provider} {op : Operation} {ops : List Operation}

lemma Operation.Leads.quiet (h : op.Leads setup s t) (hquiet : op.Quiet) :
    t.site.registry = s.site.registry ∧ t.site.disk.tree = s.site.disk.tree ∧
      (s.site.disk.Valid → t.site.disk.Valid) := by
  cases op with
  | store r => exact hquiet.elim
  | delete c reference => exact hquiet.elim
  | retryCleanup r result => exact hquiet.elim
  | restart => exact hquiet.elim
  | openObject c reference =>
    obtain ⟨⟨x, hcall⟩, -⟩ := h
    exact ⟨(looks_openStoredObject.same_of_calls hcall).1,
      (looks_openStoredObject.same_of_calls hcall).2, hcall.valid⟩
  | validate c result =>
    obtain ⟨⟨x, hcall⟩, -⟩ := h
    exact ⟨(looks_validateStoredObject.same_of_calls hcall).1,
      (looks_validateStoredObject.same_of_calls hcall).2, hcall.valid⟩
  | confirmAbsent c reference =>
    obtain ⟨⟨x, hcall⟩, -⟩ := h
    exact ⟨(looks_confirmStoredObjectAbsent.same_of_calls hcall).1,
      (looks_confirmStoredObjectAbsent.same_of_calls hcall).2, hcall.valid⟩
  | reattest c descriptor =>
    obtain ⟨x, hcall, -⟩ := h
    exact ⟨(looks_reattestStoredObject.same_of_calls hcall).1,
      (looks_reattestStoredObject.same_of_calls hcall).2, hcall.valid⟩
  | validateReattested c result =>
    obtain ⟨⟨x, hcall⟩, -⟩ := h
    exact ⟨(looks_validateReattestedObject.same_of_calls hcall).1,
      (looks_validateReattestedObject.same_of_calls hcall).2, hcall.valid⟩
  | openReattested c result raises =>
    obtain ⟨⟨x, hcall⟩, -⟩ := h
    have hlooks : Looks setup (openReattestedObject setup s.attested c result (reading raises)) :=
      looks_openReattestedObject looks_reading
    exact ⟨(hlooks.same_of_calls hcall).1, (hlooks.same_of_calls hcall).2, hcall.valid⟩
  | releaseReattested c result =>
    obtain ⟨x, hcall, -⟩ := h
    exact ⟨(looks_releaseReattestedObject.same_of_calls hcall).1,
      (looks_releaseReattestedObject.same_of_calls hcall).2, hcall.valid⟩

lemma Kept.leads (h : Kept setup s.site) (hstep : op.Leads setup s t) : Kept setup t.site := by
  have hlooks : op.Quiet → Kept setup t.site := fun hquiet => by
    obtain ⟨hregistry, htree, hvalid⟩ := hstep.quiet hquiet
    exact h.spared (hvalid h.valid) hregistry fun _ hintact => hintact.same htree
  cases op with
  | store r =>
    obtain ⟨⟨x, hcall⟩, -⟩ := hstep
    exact h.store hcall
  | delete c reference =>
    obtain ⟨⟨x, hcall⟩, -⟩ := hstep
    exact h.delete hcall
  | retryCleanup r result =>
    obtain ⟨⟨x, hcall⟩, -⟩ := hstep
    obtain ⟨hcompletes, htree⟩ := completes_of_calls hcall
    exact h.completes (hcall.valid h.valid) hcompletes htree
  | restart =>
    obtain rfl := hstep
    exact kept_empty rfl h.valid
  | _ => exact hlooks trivial

lemma Kept.performs (h : Kept setup s.site) (hrun : Performs setup ops s t) :
    Kept setup t.site := by
  induction ops generalizing s with
  | nil => exact hrun ▸ h
  | cons op ops ih =>
    obtain ⟨u, hstep, hrest⟩ := hrun
    exact ih (h.leads hstep) hrest

/-! ## Objects that are not deleted -/

/-- The operation does not delete the object of a key. -/
def Operation.Spares (k : ℕ × String) : Operation → Prop
  | .delete c reference => stateKey c reference ≠ k
  | _ => True

/-- The process goes on. -/
def Operation.Lives : Operation → Prop
  | .restart => False
  | _ => True

/-- The evidence, or that of the same object after its staged artifact was removed. -/
def Evidence.Becomes (e e' : Evidence) : Prop := e' = e ∨ e' = e.completed

lemma Evidence.Becomes.trans {e e' e'' : Evidence} (h : e.Becomes e') (h' : e'.Becomes e'') :
    e.Becomes e'' := by
  rcases h with rfl | rfl
  · exact h'
  · rcases h' with rfl | rfl
    · exact .inr rfl
    · exact .inr rfl

/-- The object is on the disk, and no other object of the provider is in its directory. -/
structure Present (setup : Setup) (e : Evidence) (s : Site) : Prop where
  intact : Intact setup s.disk e
  apart : ∀ k e', s.registry.stored k = some e' → e'.fileIdentity.isSome = true →
    e'.directory setup = e.directory setup → k = e.key

lemma Kept.present {s : Site} (h : Kept setup s) (hstored : s.registry.stored k = some evidence)
    (hfile : evidence.fileIdentity.isSome = true) : Present setup evidence s := by
  obtain rfl := h.key k evidence hstored
  exact ⟨h.intact _ _ hstored hfile, fun k' e' he' hsome hsame =>
    h.apart k' e' _ evidence he' hstored hsome hfile hsame⟩

lemma Present.quiet {s t : Site} (h : Present setup evidence s)
    (hregistry : t.registry = s.registry) (htree : t.disk.tree = s.disk.tree) :
    Present setup evidence t ∧ Stays setup evidence s.disk t.disk := by
  refine ⟨⟨h.intact.congr htree, ?_⟩, h.intact.same htree⟩
  rw [hregistry]
  exact h.apart

lemma Present.store {s t : Site} (h : Present setup evidence s) (hkept : Kept setup s)
    {x : Except Fault Answer} (hcall : Calls setup (storeEncryptedArtifact setup r) s x t) :
    Present setup evidence t ∧ Stays setup evidence s.disk t.disk := by
  rcases (advances_of_calls hkept hcall).1 with ⟨hregistry, hspares⟩ | ⟨e, hentered⟩
  · refine ⟨⟨(hspares evidence h.intact).intact, ?_⟩, hspares evidence h.intact⟩
    rw [hregistry]
    exact h.apart
  · refine ⟨⟨(hentered.spares evidence h.intact).intact, fun k' e' he' hsome hsame => ?_⟩,
      hentered.spares evidence h.intact⟩
    by_cases hk : k' = e.key
    · rw [hk, hentered.stored_self] at he'
      obtain rfl := Option.some.inj he'
      exact absurd hsame.symm (hentered.apart evidence h.intact)
    · rw [hentered.stored_of_ne hk] at he'
      exact h.apart k' e' he' hsome hsame

lemma Present.delete {s t : Site} (h : Present setup evidence s) (hkept : Kept setup s)
    {x : Except Fault Bool} (hcall : Calls setup (deleteStoredObject setup c reference) s x t)
    (hkey : stateKey c reference ≠ evidence.key) :
    Present setup evidence t ∧ Stays setup evidence s.disk t.disk := by
  have hdrops := (hkept.drops hcall).1
  have hstays := h.intact.drops hkept hdrops fun e he hsome hsame =>
    hkey (h.apart _ e he hsome hsame)
  refine ⟨⟨hstays.intact, fun k' e' he' hsome hsame => ?_⟩, hstays⟩
  by_cases hk : k' = stateKey c reference
  · rw [hk] at he'
    obtain ⟨e, hremains⟩ := hkept.remains hdrops he'
    obtain ⟨rfl, -⟩ := hremains.whole hsome
    exact hk ▸ h.apart _ e' hremains.before hsome hsame
  · exact h.apart k' e' (((hkept.elsewhere hcall).stored k' hk).symm.trans he') hsome hsame

lemma Present.completes {s t : Site} (h : Present setup evidence s)
    (hcompletes : Completes k s.registry t.registry) (htree : t.disk.tree = s.disk.tree) :
    Present setup evidence t ∧ Stays setup evidence s.disk t.disk := by
  refine ⟨⟨h.intact.congr htree, fun k' e' he' hsome hsame => ?_⟩, h.intact.same htree⟩
  obtain ⟨e, he, rfl | rfl⟩ := hcompletes.before he'
  · exact h.apart k' e' he hsome hsame
  · exact h.apart k' e he hsome hsame

/-- An object stays on the disk, whatever is asked but its deletion. -/
lemma Present.leads (h : Present setup evidence s.site) (hkept : Kept setup s.site)
    (hstep : op.Leads setup s t) (hspares : op.Spares evidence.key) :
    Present setup evidence t.site ∧ Stays setup evidence s.site.disk t.site.disk := by
  have hlooks : op.Quiet →
      Present setup evidence t.site ∧ Stays setup evidence s.site.disk t.site.disk :=
    fun hquiet => h.quiet (hstep.quiet hquiet).1 (hstep.quiet hquiet).2.1
  cases op with
  | store r =>
    obtain ⟨⟨x, hcall⟩, -⟩ := hstep
    exact h.store hkept hcall
  | delete c reference =>
    obtain ⟨⟨x, hcall⟩, -⟩ := hstep
    exact h.delete hkept hcall hspares
  | retryCleanup r result =>
    obtain ⟨⟨x, hcall⟩, -⟩ := hstep
    obtain ⟨hcompletes, htree⟩ := completes_of_calls hcall
    exact h.completes hcompletes htree
  | restart =>
    obtain rfl := hstep
    exact ⟨⟨h.intact, fun _ _ he => nomatch he⟩, h.intact.same rfl⟩
  | _ => exact hlooks trivial

lemma Present.performs (h : Present setup evidence s.site) (hkept : Kept setup s.site)
    (hrun : Performs setup ops s t) (hspares : ∀ op ∈ ops, op.Spares evidence.key) :
    Present setup evidence t.site ∧ Stays setup evidence s.site.disk t.site.disk := by
  induction ops generalizing s with
  | nil => exact hrun ▸ ⟨h, h.intact.same rfl⟩
  | cons op ops ih =>
    obtain ⟨u, hstep, hrest⟩ := hrun
    obtain ⟨hthere, hstays⟩ := h.leads hkept hstep (hspares op List.mem_cons_self)
    obtain ⟨hlast, hstays'⟩ := ih hthere (hkept.leads hstep) hrest
      fun op' hop' => hspares op' (List.mem_cons_of_mem op hop')
    exact ⟨hlast, hstays.trans hstays'⟩

/-- The registry keeps what it has of an object, as long as the process lives. -/
lemma Operation.Leads.stored (hstep : op.Leads setup s t) (hkept : Kept setup s.site)
    (hspares : op.Spares k) (hlives : op.Lives)
    (hstored : s.site.registry.stored k = some evidence) :
    ∃ e, t.site.registry.stored k = some e ∧ evidence.Becomes e := by
  have hlooks : op.Quiet → ∃ e, t.site.registry.stored k = some e ∧ evidence.Becomes e :=
    fun hquiet => ⟨evidence, (hstep.quiet hquiet).1 ▸ hstored, .inl rfl⟩
  cases op with
  | store r =>
    obtain ⟨⟨x, hcall⟩, -⟩ := hstep
    refine ⟨evidence, ?_, .inl rfl⟩
    rcases (advances_of_calls hkept hcall).1 with ⟨hregistry, -⟩ | ⟨e, hentered⟩
    · rwa [hregistry]
    · rw [hentered.stored_of_ne, hstored]
      rintro rfl
      exact nomatch hstored.symm.trans hentered.stored
  | delete c reference =>
    obtain ⟨⟨x, hcall⟩, -⟩ := hstep
    exact ⟨evidence, ((hkept.elsewhere hcall).stored k (Ne.symm hspares)).trans hstored, .inl rfl⟩
  | retryCleanup r result =>
    obtain ⟨⟨x, hcall⟩, -⟩ := hstep
    exact (completes_of_calls hcall).1.after hstored
  | restart => exact hlives.elim
  | _ => exact hlooks trivial

lemma Performs.stored (hrun : Performs setup ops s t) (hkept : Kept setup s.site)
    (hspares : ∀ op ∈ ops, op.Spares k) (hlives : ∀ op ∈ ops, op.Lives)
    (hstored : s.site.registry.stored k = some evidence) :
    ∃ e, t.site.registry.stored k = some e ∧ evidence.Becomes e := by
  induction ops generalizing s evidence with
  | nil =>
    obtain rfl : s = t := hrun
    exact ⟨evidence, hstored, .inl rfl⟩
  | cons op ops ih =>
    obtain ⟨u, hstep, hrest⟩ := hrun
    obtain ⟨e, he, hbecomes⟩ := hstep.stored hkept (hspares op List.mem_cons_self)
      (hlives op List.mem_cons_self) hstored
    obtain ⟨e', he', hbecomes'⟩ := ih hrest (hkept.leads hstep)
      (fun op' hop' => hspares op' (List.mem_cons_of_mem op hop'))
      (fun op' hop' => hlives op' (List.mem_cons_of_mem op hop')) he
    exact ⟨e', he', hbecomes.trans hbecomes'⟩

/-- A stored object is opened. -/
lemma answered_openStoredObject {s : Site} {i : ℕ} {bytes : Bytes}
    (h : Stored setup s.registry s.disk evidence)
    (hfound : find s.disk.tree (evidence.final setup) = some (.file i bytes)) :
    answered setup (openStoredObject setup evidence.context evidence.result.reference) s =
      (.ok bytes, s) := by
  obtain ⟨j, bytes', hfile, hfound', honce, hcount, -⟩ := h.intact.file
  obtain ⟨rfl, rfl⟩ := Node.file.inj (Option.some.inj (hfound.symm.trans hfound'))
  have hread : exec setup
      (.readFile (setup.final evidence.context evidence.result.reference)) s.disk =
      (.ok (⟨.regular, i, 1, bytes.length⟩, bytes), s.disk) := by
    simp only [exec, hfound', fileState, honce]
  have hserves : Serves setup
      (openStoredObject setup evidence.context evidence.result.reference)
      (fun b l' d' => b = bytes ∧ l'.registry = s.registry ∧ d' = s.disk)
      { registry := s.registry } s.disk := by
    rw [openStoredObject, serves_bind, serves_get]
    dsimp only
    rw [h.stored, serves_bind]
    refine serves_refuseIf (by simp [hfile]) ?_
    rw [serves_bind]
    refine (serves_validatePath h.intact).mono fun _ l' d' h' => ?_
    obtain ⟨rfl, rfl⟩ := h'
    rw [serves_bind]
    refine serves_onOs (serves_ask hread ?_)
    rw [serves_bind]
    exact serves_refuseIf (by simp [hfile, hcount]) ⟨rfl, rfl, rfl⟩
  obtain ⟨b, l, d, ⟨rfl, hregistry, rfl⟩, hanswered⟩ := hserves.answered
  rw [hanswered, hregistry]

/-- The result of an object whose staged artifact is gone. -/
def StoredResult.completed (result : StoredResult) : StoredResult :=
  { result with encryptedStagingCleanupIncomplete := false }

/-- The same request returns the result again, and the object can be opened. -/
structure Available (setup : Setup) (r : Request) (result : StoredResult) (bytes : Bytes)
    (s : Site) : Prop where
  again : ∃ result', (result' = result ∨ result' = result.completed) ∧
    answered setup (storeEncryptedArtifact setup r) s = (.ok (.returned result'), s)
  owned : ownsStoredObjectReference s.registry r.context result.reference = true
  opened : answered setup (openStoredObject setup r.context result.reference) s = (.ok bytes, s)

/-- A result that is returned is that of an object that is there. -/
lemma Kept.returned {s t : Site} (h : Kept setup s) {result : StoredResult}
    (hcall : Calls setup (storeEncryptedArtifact setup r) s (.ok (.returned result)) t) :
    ∃ e, e.context = r.context ∧ e.source = r.encryptedArtifact ∧ e.result = result ∧
      t.registry.stored e.key = some e ∧ Intact setup t.disk e ∧
      (s.registry.stored e.key = some e ∨
        (s.registry.stored e.key = none ∧ s.registry.deleted e.key = none)) := by
  obtain ⟨e, rfl, hcase⟩ := (advances_of_calls h hcall).2 result rfl
  rcases hcase with ⟨hexisting, hcontext, hsource, hregistry, hintact⟩ | hentered
  · obtain ⟨k, -, hstored⟩ := Option.bind_eq_some_iff.mp hexisting
    obtain rfl := h.key k e hstored
    exact ⟨e, hcontext, hsource, rfl, hregistry ▸ hstored, hintact, .inl hstored⟩
  · exact ⟨e, hentered.context, hentered.source, rfl, hentered.stored_self, hentered.intact,
      .inr ⟨hentered.stored, hentered.deleted⟩⟩

/-- However the calls of a provider fail, an object that a store has returned is returned to the
same request and opens to the bytes of the artifact, until its own deletion is called or the
process dies. -/
theorem stored_objects_last (before : List Operation) (hempty : s.site.registry = {})
    (hvalid : s.site.disk.Valid) (hbefore : Performs setup before s t) {result : StoredResult}
    {x : Site}
    (hstore : Calls setup (storeEncryptedArtifact setup r) t.site (.ok (.returned result)) x) :
    ∃ chunks, setup.artifact r.encryptedArtifact.reference = some chunks ∧
      (readBytes chunks).length = result.byteCount ∧
      setup.sha256 (readBytes chunks) = result.sha256 ∧
      ∀ later v, Performs setup later ⟨x, t.attested⟩ v →
        (∀ op ∈ later, op.Spares (stateKey r.context result.reference)) →
        (∀ op ∈ later, op.Lives) → Available setup r result (readBytes chunks) v.site := by
  have hkept := (kept_empty hempty hvalid).performs hbefore
  obtain ⟨e, hcontext, hsource, rfl, hstored, hintact, -⟩ := hkept.returned hstore
  have hafter := hkept.store hstore
  obtain ⟨chunks, i, hartifact, hfile⟩ := hafter.content _ e hstored hintact.isSome
  obtain ⟨j, bytes, -, hfound, -, hcount, -, hsha, -⟩ := hintact.file
  obtain ⟨rfl, rfl⟩ := Node.file.inj (Option.some.inj (hfile.symm.trans hfound))
  refine ⟨chunks, hsource ▸ hartifact, hcount, hsha, fun later v hlater hspares hlives => ?_⟩
  rw [← hcontext] at hspares
  obtain ⟨hpresent, hstays⟩ := Present.performs (s := ⟨x, t.attested⟩)
    (hafter.present hstored hintact.isSome) hafter hlater hspares
  obtain ⟨e', he', hbecomes⟩ :=
    Performs.stored (s := ⟨x, t.attested⟩) hlater hafter hspares hlives hstored
  have hsome : e'.fileIdentity.isSome = true := by
    rcases hbecomes with rfl | rfl
    · exact hintact.isSome
    · exact hintact.isSome
  have hthere := (hafter.performs (s := ⟨x, t.attested⟩) hlater).isStored he' hsome
  have hresult : e'.result = e.result ∨ e'.result = e.result.completed := by
    rcases hbecomes with rfl | rfl
    · exact .inl rfl
    · exact .inr rfl
  have hsame : e'.context = e.context ∧ e'.source = e.source ∧
      e'.result.reference = e.result.reference := by
    rcases hbecomes with rfl | rfl
    · exact ⟨rfl, rfl, rfl⟩
    · exact ⟨rfl, rfl, rfl⟩
  obtain ⟨hcontext', hsource', hreference⟩ := hsame
  refine ⟨⟨e'.result, hresult, answered_storeEncryptedArtifact hthere (hcontext'.trans hcontext)
    (hsource'.trans hsource)⟩, ?_, ?_⟩
  · rw [ownsStoredObjectReference, ← hcontext, ← hcontext', ← hreference, hthere.stored]
    exact decide_eq_true rfl
  · rw [← hcontext, ← hcontext', ← hreference]
    have hopened : find v.site.disk.tree (e'.final setup) =
        some (.file i (readBytes chunks)) := by
      rw [Evidence.final, hcontext', hreference]
      exact hstays.file.trans hfound
    exact answered_openStoredObject hthere hopened

/-! ## References -/

/-- The key of an object that has been deleted. -/
def Retired (k : ℕ × String) (g : Registry) : Prop :=
  g.stored k = none ∧ (g.deleted k).isSome = true

/-- The key belongs to the object of an evidence, or that has been deleted. -/
def Bound (k : ℕ × String) (e : Evidence) (g : Registry) : Prop :=
  (∃ e', g.stored k = some e' ∧ e'.context = e.context ∧ e'.source = e.source ∧
    e'.result.completed = e.result.completed) ∨ Retired k g

/-- A deletion leaves a key to its object, or retires it. -/
lemma Kept.retired_drops {s t : Site} (h : Kept setup s) (hdrops : Drops setup k s t)
    (hstored : s.registry.stored k = some evidence) (hnone : t.registry.stored k = none) :
    Retired k t.registry := by
  refine ⟨hnone, ?_⟩
  obtain rfl := h.key k evidence hstored
  cases hdrops with
  | idle hregistry _ =>
    rw [hregistry] at hnone
    exact nomatch hstored.symm.trans hnone
  | staged e he _ hstage =>
    obtain rfl := Option.some.inj (hstored.symm.trans he)
    cases hstage with
    | whole hknown _ => exact nomatch hknown.stored.symm.trans hnone
    | emptied hknown _ => exact nomatch hknown.stored.symm.trans hnone
    | removed hknown _ => exact nomatch hknown.stored.symm.trans hnone
    | gone hgone =>
      obtain ⟨e, he, -⟩ := hgone.deleted
      exact Option.isSome_iff_exists.mpr ⟨e, he⟩
  | cleared e he _ hregistry _ =>
    obtain rfl := Option.some.inj (hstored.symm.trans he)
    rcases hregistry with hregistry | hregistry
    · rw [hregistry] at hnone
      exact nomatch hstored.symm.trans hnone
    · rw [hregistry]
      exact Option.isSome_iff_exists.mpr ⟨evidence, Function.update_self ..⟩

lemma Retired.drops {s t : Site} (h : Retired k s.registry) (hdrops : Drops setup k s t) :
    t.registry = s.registry := by
  cases hdrops with
  | idle hregistry _ => exact hregistry
  | staged e he _ _ => exact nomatch h.1.symm.trans he
  | cleared e he _ _ _ => exact nomatch h.1.symm.trans he

lemma Retired.completes {g g' : Registry} {k' : ℕ × String} (h : Retired k g)
    (hcompletes : Completes k' g g') : Retired k g' := by
  refine ⟨?_, by rw [hcompletes.deleted]; exact h.2⟩
  cases hafter : g'.stored k with
  | none => rfl
  | some e' =>
    obtain ⟨e, he, -⟩ := hcompletes.before hafter
    exact nomatch h.1.symm.trans he

/-- A key that has been retired stays so, as long as the process lives. -/
lemma Retired.leads (h : Retired k s.site.registry) (hkept : Kept setup s.site)
    (hstep : op.Leads setup s t) (hlives : op.Lives) : Retired k t.site.registry := by
  have hlooks : op.Quiet → Retired k t.site.registry := fun hquiet => by
    rwa [(hstep.quiet hquiet).1]
  cases op with
  | store r =>
    obtain ⟨⟨x, hcall⟩, -⟩ := hstep
    rcases (advances_of_calls hkept hcall).1 with ⟨hregistry, -⟩ | ⟨e, hentered⟩
    · rwa [hregistry]
    · have hk : k ≠ e.key := by
        rintro rfl
        have hsome := h.2
        rw [hentered.deleted] at hsome
        exact nomatch hsome
      refine ⟨(hentered.stored_of_ne hk).trans h.1, ?_⟩
      rw [hentered.registry]
      exact h.2
  | delete c reference =>
    obtain ⟨⟨x, hcall⟩, -⟩ := hstep
    by_cases hk : k = stateKey c reference
    · rwa [h.drops (hk ▸ (hkept.drops hcall).1)]
    · have helse := hkept.elsewhere hcall
      rw [Retired, helse.stored k hk, helse.deleted k hk]
      exact h
  | retryCleanup r result =>
    obtain ⟨⟨x, hcall⟩, -⟩ := hstep
    exact h.completes (completes_of_calls hcall).1
  | restart => exact hlives.elim
  | _ => exact hlooks trivial

/-- What every operation of a living process keeps of the registry, a run of them keeps. -/
lemma Performs.keeps {I : Registry → Prop} (hrun : Performs setup ops s t)
    (hkept : Kept setup s.site) (hlives : ∀ op ∈ ops, op.Lives) (h : I s.site.registry)
    (hstep : ∀ {op : Operation} {s t : Provider}, I s.site.registry → Kept setup s.site →
      op.Leads setup s t → op.Lives → I t.site.registry) : I t.site.registry := by
  induction ops generalizing s with
  | nil =>
    obtain rfl : s = t := hrun
    exact h
  | cons op ops ih =>
    obtain ⟨u, hleads, hrest⟩ := hrun
    exact ih hrest (hkept.leads hleads) (fun op' hop' => hlives op' (List.mem_cons_of_mem op hop'))
      (hstep h hkept hleads (hlives op List.mem_cons_self))

/-- A key stays with its object, as long as the process lives. -/
lemma Bound.leads (h : Bound k evidence s.site.registry) (hkept : Kept setup s.site)
    (hstep : op.Leads setup s t) (hlives : op.Lives) : Bound k evidence t.site.registry := by
  rcases h with ⟨e', hstored, hsame⟩ | hretired
  · by_cases hspares : op.Spares k
    · obtain ⟨e'', hstored', rfl | rfl⟩ := hstep.stored hkept hspares hlives hstored
      · exact .inl ⟨e'', hstored', hsame⟩
      · exact .inl ⟨e'.completed, hstored', hsame⟩
    · cases op with
      | delete c reference =>
        obtain rfl : stateKey c reference = k := not_not.mp hspares
        obtain ⟨⟨x, hcall⟩, -⟩ := hstep
        have hdrops := (hkept.drops hcall).1
        cases hafter : t.site.registry.stored (stateKey c reference) with
        | none => exact .inr (hkept.retired_drops hdrops hstored hafter)
        | some e'' =>
          obtain ⟨e, hremains⟩ := hkept.remains hdrops hafter
          obtain rfl := Option.some.inj (hstored.symm.trans hremains.before)
          obtain ⟨hcontext, hsource, hresult⟩ := hsame
          exact .inl ⟨e'', hafter, hremains.context.trans hcontext,
            hremains.source.trans hsource, (congrArg _ hremains.result).trans hresult⟩
      | _ => exact absurd trivial hspares
  · exact .inr (hretired.leads hkept hstep hlives)

/-- Two results of one process with the same reference, in one workspace, were returned to the same
request and are the same up to the clean-up of the staged artifact, whatever was asked in
between. -/
theorem references_name_one_object (before between : List Operation) {r' : Request} {x y : Site}
    {result result' : StoredResult} (hempty : s.site.registry = {}) (hvalid : s.site.disk.Valid)
    (hbefore : Performs setup before s t)
    (hstore : Calls setup (storeEncryptedArtifact setup r) t.site (.ok (.returned result)) x)
    (hbetween : Performs setup between ⟨x, t.attested⟩ v) (hlives : ∀ op ∈ between, op.Lives)
    (hagain : Calls setup (storeEncryptedArtifact setup r') v.site (.ok (.returned result')) y)
    (hsame : stateKey r'.context result'.reference = stateKey r.context result.reference) :
    r' = r ∧ result'.completed = result.completed := by
  have hkept := (kept_empty hempty hvalid).performs hbefore
  obtain ⟨e, hcontext, hsource, rfl, hstored, -⟩ := hkept.returned hstore
  have hafter : Kept setup (Provider.site ⟨x, t.attested⟩) := hkept.store hstore
  obtain ⟨e', hcontext', hsource', rfl, -, -, hold⟩ :=
    (hafter.performs hbetween).returned hagain
  have hkey : e'.key = e.key := by
    rw [Evidence.key, Evidence.key, hcontext', hsame, hcontext]
  have hbound : Bound e.key e v.site.registry :=
    hbetween.keeps hafter hlives (.inl ⟨e, hstored, rfl, rfl, rfl⟩) Bound.leads
  rw [hkey] at hold
  rcases hbound with ⟨e'', hstored'', h₁, h₂, h₃⟩ | ⟨hnone, hdeleted⟩
  · rcases hold with hold | ⟨hnone, -⟩
    · obtain rfl := Option.some.inj (hold.symm.trans hstored'')
      refine ⟨?_, h₃⟩
      have hctx : r'.context = r.context := hcontext'.symm.trans (h₁.trans hcontext)
      have hsrc : r'.encryptedArtifact = r.encryptedArtifact :=
        hsource'.symm.trans (h₂.trans hsource)
      calc r' = ⟨r'.context, r'.encryptedArtifact⟩ := rfl
        _ = ⟨r.context, r.encryptedArtifact⟩ := by rw [hctx, hsrc]
        _ = r := rfl
    · cases hstored''.symm.trans hnone
  · rcases hold with hold | ⟨-, hnone'⟩
    · cases hold.symm.trans hnone
    · rw [hnone'] at hdeleted
      cases hdeleted

/-- After a deletion that returned, the object is never owned or opened again by the process, and
its reference is never returned for another. -/
theorem deletions_are_final (before later : List Operation) {b : Bool} {x : Site}
    (hempty : s.site.registry = {}) (hvalid : s.site.disk.Valid)
    (hbefore : Performs setup before s t)
    (hdelete : Calls setup (deleteStoredObject setup c reference) t.site (.ok b) x)
    (hlater : Performs setup later ⟨x, t.attested⟩ v) (hlives : ∀ op ∈ later, op.Lives) :
    ownsStoredObjectReference v.site.registry c reference = false ∧
      (∀ a y, Calls setup (openStoredObject setup c reference) v.site a y →
        a = .error (.engine .notFound)) ∧
      ∀ r result y, Calls setup (storeEncryptedArtifact setup r) v.site (.ok (.returned result)) y →
        stateKey r.context result.reference ≠ stateKey c reference := by
  have hkept := (kept_empty hempty hvalid).performs hbefore
  have hafter : Kept setup (Provider.site ⟨x, t.attested⟩) := hkept.delete hdelete
  have hretired : Retired (stateKey c reference) (Provider.site ⟨x, t.attested⟩).registry :=
    (hkept.drops hdelete).2 b rfl
  obtain ⟨hnone, hdeleted⟩ := hlater.keeps hafter hlives hretired Retired.leads
  refine ⟨?_, fun a y hcall => ?_, fun r result y hcall hsame => ?_⟩
  · rw [ownsStoredObjectReference, hnone]
    rfl
  · obtain ⟨l, hends, -⟩ := hcall
    have hopen : Meets (reliable setup) (openStoredObject setup c reference)
        (fun _ _ _ => False) (fun f _ _ => f = .engine .notFound) { registry := v.site.registry }
        v.site.disk := by
      rw [openStoredObject, meets_bind, meets_get, hnone]
      exact meets_throw.mpr rfl
    have hend := hends.of_follows hopen
    cases a with
    | ok bytes => exact hend.elim
    | error f => exact congrArg Except.error hend
  · obtain ⟨e, hcontext, -, rfl, -, -, hold⟩ := (hafter.performs hlater).returned hcall
    have hkey : e.key = stateKey c reference := by
      rw [Evidence.key, hcontext, hsame]
    rw [hkey] at hold
    rcases hold with hold | ⟨-, hold⟩
    · cases hold.symm.trans hnone
    · rw [hold] at hdeleted
      cases hdeleted

/-! ## A shelf -/

/-- A vault that names its objects one after the other. -/
def shelf : Setup :=
  { vault with
    references := fun n => if n = 0 then "first" else "second"
    artifact := fun _ => some [[5, 6], [7]] }

def secondRequest : Request := { vaultRequest with encryptedArtifact := ⟨2, 3, "three", true⟩ }

def firstResult : StoredResult := ⟨"first", 3, "three", "backup", "shop", 7, false⟩

/-- The shelf with one object, with two, and with the second alone. -/
def oneStored : Site := (answered shelf (storeEncryptedArtifact shelf vaultRequest) emptySite).2

def twoStored : Site := (answered shelf (storeEncryptedArtifact shelf secondRequest) oneStored).2

def firstDeleted : Site :=
  (answered shelf (deleteStoredObject shelf vaultRequest.context "first") twoStored).2

def secondDeleted : Site :=
  (answered shelf (deleteStoredObject shelf vaultRequest.context "second") twoStored).2

lemma calls_of_answered {α : Type} (setup : Setup) (code : Code α) (s : Site) :
    Calls setup code s (answered setup code s).1 (answered setup code s).2 :=
  calls_of_serve (fun _ _ => ⟨.served, rfl, fun _ => rfl⟩) code s

lemma calls_first : Calls shelf (storeEncryptedArtifact shelf vaultRequest) emptySite
    (.ok (.returned firstResult)) oneStored := by
  have hcall := calls_of_answered shelf (storeEncryptedArtifact shelf vaultRequest) emptySite
  have hanswer : (answered shelf (storeEncryptedArtifact shelf vaultRequest) emptySite).1 =
      .ok (.returned firstResult) := by decide +kernel
  rwa [hanswer] at hcall

lemma calls_firstDeleted : Calls shelf (deleteStoredObject shelf vaultRequest.context "first")
    twoStored (.ok true) firstDeleted := by
  have hcall := calls_of_answered shelf (deleteStoredObject shelf vaultRequest.context "first")
    twoStored
  have hanswer : (answered shelf (deleteStoredObject shelf vaultRequest.context "first")
      twoStored).1 = .ok true := by decide +kernel
  rwa [hanswer] at hcall

/-- A provider with nothing re-attested. -/
def Site.fresh (s : Site) : Provider where
  site := s

lemma attested_fresh (s t : Site) : t.fresh.attested = s.fresh.attested := rfl

lemma leads_firstStored : (Operation.store vaultRequest).Leads shelf emptySite.fresh
    oneStored.fresh :=
  ⟨⟨_, calls_first⟩, attested_fresh _ _⟩

lemma leads_secondStored : (Operation.store secondRequest).Leads shelf oneStored.fresh
    twoStored.fresh := by
  have hcall := calls_of_answered shelf (storeEncryptedArtifact shelf secondRequest) oneStored
  exact ⟨⟨_, hcall⟩, attested_fresh _ _⟩

lemma leads_secondDeleted : (Operation.delete vaultRequest.context "second").Leads shelf
    twoStored.fresh secondDeleted.fresh := by
  have hcall := calls_of_answered shelf (deleteStoredObject shelf vaultRequest.context "second")
    twoStored
  exact ⟨⟨_, hcall⟩, attested_fresh _ _⟩

lemma performs_twoStored : Performs shelf [.store vaultRequest, .store secondRequest]
    emptySite.fresh twoStored.fresh :=
  ⟨oneStored.fresh, leads_firstStored, twoStored.fresh, leads_secondStored, rfl⟩

lemma performs_secondDeleted :
    Performs shelf [.store secondRequest, .delete vaultRequest.context "second"] oneStored.fresh
      secondDeleted.fresh :=
  ⟨twoStored.fresh, leads_secondStored, secondDeleted.fresh, leads_secondDeleted, rfl⟩

/-- The second object comes and goes, and the first is still there. -/
theorem stored_objects_last_shelf : ∃ chunks, shelf.artifact 1 = some chunks ∧
    Available shelf vaultRequest firstResult (readBytes chunks) secondDeleted := by
  have hbefore : Performs shelf [] emptySite.fresh emptySite.fresh := rfl
  obtain ⟨chunks, hartifact, -, -, hlater⟩ :=
    stored_objects_last [] rfl emptySite_valid hbefore calls_first
  have hspares : ∀ op ∈ [Operation.store secondRequest, .delete vaultRequest.context "second"],
      op.Spares (stateKey vaultRequest.context firstResult.reference) := by
    simp only [List.forall_mem_cons]
    refine ⟨trivial, ?_, fun _ h => (List.not_mem_nil h).elim⟩
    rw [Operation.Spares]
    decide
  have hlives : ∀ op ∈ [Operation.store secondRequest, .delete vaultRequest.context "second"],
      op.Lives := by
    simp only [List.forall_mem_cons]
    exact ⟨trivial, trivial, fun _ h => (List.not_mem_nil h).elim⟩
  have hthere := hlater _ secondDeleted.fresh performs_secondDeleted hspares hlives
  exact ⟨chunks, hartifact, hthere⟩

theorem references_name_one_object_shelf : ∃ result y,
    Calls shelf (storeEncryptedArtifact shelf vaultRequest) twoStored (.ok (.returned result)) y ∧
      result.completed = firstResult.completed := by
  have hcall := calls_of_answered shelf (storeEncryptedArtifact shelf vaultRequest) twoStored
  have hanswer : (answered shelf (storeEncryptedArtifact shelf vaultRequest) twoStored).1 =
      .ok (.returned firstResult) := by decide +kernel
  rw [hanswer] at hcall
  have hbefore : Performs shelf [] emptySite.fresh emptySite.fresh := rfl
  have hbetween : Performs shelf [.store secondRequest] oneStored.fresh twoStored.fresh :=
    ⟨twoStored.fresh, leads_secondStored, rfl⟩
  have hlives : ∀ op ∈ [Operation.store secondRequest], op.Lives := by
    simp only [List.forall_mem_cons]
    exact ⟨trivial, fun _ h => (List.not_mem_nil h).elim⟩
  exact ⟨firstResult, _, hcall, (references_name_one_object [] _ rfl emptySite_valid hbefore
    calls_first hbetween hlives hcall rfl).2⟩

theorem deletions_are_final_shelf :
    ownsStoredObjectReference firstDeleted.registry vaultRequest.context "first" = false := by
  have hlater : Performs shelf [] firstDeleted.fresh firstDeleted.fresh := rfl
  exact (deletions_are_final _ [] rfl emptySite_valid performs_twoStored calls_firstDeleted hlater
    fun _ h => (List.not_mem_nil h).elim).1

end NexaPos.Backups.DurableStorage
