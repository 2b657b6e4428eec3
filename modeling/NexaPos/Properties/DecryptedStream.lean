import NexaPos.Backups.DecryptingReader

/-!
# What the decrypting reader releases

The bytes that the calls of `read` return are the decryption of the pieces the reader has
accepted, in order.  A reader is `Live` while that is all there is to say, and `Dead` once the
deadline has passed, the plaintext has become too long or the whole ciphertext has failed to
authenticate: a dead reader returns no more bytes.  A failure of the source leaves the reader
live, so that a later call goes on; only the end of the stream waits for the authentication.
-/

namespace NexaPos.Backups.Artifacts

open StreamCipher

variable {σ : Type} {S : Setting} {source : Source σ} {r : Reader σ} {out : Bytes}

/-! ## Live and dead readers -/

/-- Tag, byte count and digest match. -/
def Setting.Authentic (S : Setting) (ciphertext plaintext : Bytes) : Prop :=
  S.aead.tag ciphertext = S.tag ∧ plaintext.length = S.expectedCount ∧
    S.sha256 plaintext = S.expectedSha256

/-- The reader has released the plaintext of what it has accepted, and counted and hashed it. -/
structure Live (S : Setting) (r : Reader σ) (out : Bytes) : Prop where
  hashed : r.hashed = out
  plain : S.aead.decrypt r.decryptor.taken = out
  count : r.count = out.length
  context : r.decryptor.finalized = r.finalized
  complete : r.finalized = true → r.remaining = 0 ∧ S.Authentic r.decryptor.taken out

/-- The reader cannot finalize any more. -/
def Dead (S : Setting) (r : Reader σ) : Prop :=
  r.finalized = false ∧
    (S.expired r.checks = true ∨ S.expectedCount < r.count ∨
      r.remaining = 0 ∧ (S.aead.tag r.decryptor.taken ≠ S.tag ∨ r.decryptor.finalized = true))

lemma live_new (S : Setting) (file : σ) : Live S (Reader.new S file) [] where
  hashed := rfl
  plain := rfl
  count := rfl
  context := rfl
  complete h := nomatch h

lemma Dead.checked (h : Dead S r) : Dead S r.checked := by
  obtain ⟨hopen, hexpired | hrest⟩ := h
  · exact ⟨hopen, .inl (S.expired_mono _ hexpired)⟩
  · exact ⟨hopen, .inr hrest⟩

/-! ## Finalizing -/

/-- What finalizing leaves alone. -/
lemma finalize_frame (S : Setting) (r : Reader σ) :
    (r.finalize S).2.file = r.file ∧ (r.finalize S).2.remaining = r.remaining ∧
      (r.finalize S).2.closed = r.closed ∧ (r.finalize S).2.delivered = r.delivered ∧
      (r.finalize S).2.decryptor.taken = r.decryptor.taken := by
  unfold Reader.finalize
  split
  · simp
  · split
    · simp [Reader.checked]
    · split
      · simp [Reader.checked]
      · rename_i tail decryptor hfinal
        obtain ⟨-, -, -, rfl⟩ := Decryptor.finalize_eq_ok.mp hfinal
        simp only []
        split <;> simp [Reader.checked]

/-- A live reader that has taken the whole ciphertext finalizes if it is authentic and in time,
and is dead otherwise. -/
lemma Live.finalize (h : Live S r out) (hremaining : r.remaining = 0) :
    ((r.finalize S).1 = .ok () ∧ (r.finalize S).2.finalized = true ∧
      Live S (r.finalize S).2 out) ∨
    (((r.finalize S).1 = .error .deadline ∨ (r.finalize S).1 = .error .rejected) ∧
      Dead S (r.finalize S).2) := by
  unfold Reader.finalize
  cases hfinalized : r.finalized with
  | true => exact .inl ⟨rfl, hfinalized, h⟩
  | false =>
    rw [if_neg Bool.false_ne_true]
    cases hexpired : S.expired r.checks with
    | true =>
      refine .inr ⟨.inl rfl, hfinalized, .inl ?_⟩
      exact S.expired_mono _ hexpired
    | false =>
      rw [if_neg Bool.false_ne_true]
      have hcontext : r.decryptor.finalized = false := by rw [h.context, hfinalized]
      by_cases htag : S.aead.tag r.decryptor.taken = S.tag
      · have hdone : r.decryptor.finalize S.aead S.tag =
            .ok ([], { r.decryptor with finalized := true }) :=
          Decryptor.finalize_eq_ok.mpr ⟨hcontext, htag, rfl, rfl⟩
        simp only [hdone, List.length_nil, Nat.add_zero, List.append_nil]
        by_cases hmatch : r.count ≠ S.expectedCount ∨ S.sha256 r.hashed ≠ S.expectedSha256
        · rw [if_pos hmatch]
          exact .inr ⟨.inr rfl, hfinalized, .inr (.inr ⟨hremaining, .inr rfl⟩)⟩
        · rw [if_neg hmatch]
          push Not at hmatch
          refine .inl ⟨rfl, rfl, h.hashed, h.plain, h.count, rfl, fun _ => ⟨hremaining, htag, ?_⟩⟩
          rw [← h.count, ← h.hashed]
          exact hmatch
      · have hrefused : r.decryptor.finalize S.aead S.tag = .error .invalidTag := by
          rw [Decryptor.finalize, hcontext, if_neg Bool.false_ne_true, if_neg htag]
        rw [hrefused]
        exact .inr ⟨.inr rfl, hfinalized, .inr (.inr ⟨hremaining, .inl htag⟩)⟩

/-- A dead reader does not finalize. -/
lemma Dead.finalize (h : Dead S r) :
    ((r.finalize S).1 = .error .deadline ∨ (r.finalize S).1 = .error .rejected) ∧
      Dead S (r.finalize S).2 := by
  have hchecked := h.checked
  obtain ⟨hopen, hwhy⟩ := h
  unfold Reader.finalize
  rw [hopen, if_neg Bool.false_ne_true]
  cases hexpired : S.expired r.checks with
  | true => exact ⟨.inl rfl, hchecked⟩
  | false =>
    rw [if_neg Bool.false_ne_true]
    cases hfinal : r.decryptor.finalize S.aead S.tag with
    | error e => exact ⟨.inr rfl, hchecked⟩
    | ok p =>
      obtain ⟨tail, decryptor⟩ := p
      obtain ⟨hcontext, htag, rfl, rfl⟩ := Decryptor.finalize_eq_ok.mp hfinal
      rw [hexpired, hcontext] at hwhy
      have hcount : S.expectedCount < r.count := by
        rcases hwhy with hfalse | hcount | ⟨-, htag' | hfalse⟩
        · exact absurd hfalse Bool.false_ne_true
        · exact hcount
        · exact absurd htag htag'
        · exact absurd hfalse Bool.false_ne_true
      simp only [List.length_nil, Nat.add_zero, List.append_nil]
      rw [if_pos (.inl (by omega))]
      exact ⟨.inr rfl, hopen, .inr (.inl hcount)⟩

/-! ## Reading -/

/-- What a call leaves of the bytes it has taken and been given: nothing new, or one answer of
the source to a request for some bytes, which is accepted when it has the requested length. -/
inductive Took (S : Setting) (source : Source σ) (r r' : Reader σ) : Except Failure Bytes → Prop
  | nothing {result : Except Failure Bytes} (hfile : r'.file = r.file)
      (hdelivered : r'.delivered = r.delivered)
      (htaken : r'.decryptor.taken = r.decryptor.taken) (hremaining : r'.remaining = r.remaining)
      (hempty : ∀ bytes, result = .ok bytes → bytes = []) : Took S source r r' result
  | refused {requested : ℕ} {answer : SourceAnswer} (hrequested : 0 < requested)
      (hanswer : source.read requested r.file = (answer, r'.file))
      (hdelivered : r'.delivered = r.delivered ++ answer.delivered)
      (hlength : answer.delivered.length ≠ requested)
      (htaken : r'.decryptor.taken = r.decryptor.taken) (hremaining : r'.remaining = r.remaining) :
      Took S source r r' (.error .source)
  | accepted {requested : ℕ} {piece : Bytes} {result : Except Failure Bytes}
      (hrequested : 0 < requested) (hle : requested ≤ r.remaining)
      (hanswer : source.read requested r.file = (.bytes piece, r'.file))
      (hdelivered : r'.delivered = r.delivered ++ piece) (hlength : piece.length = requested)
      (htaken : r'.decryptor.taken = r.decryptor.taken ++ piece)
      (hremaining : r'.remaining + piece.length = r.remaining) : Took S source r r' result

/-- The reader once a piece is decrypted and counted. -/
def Reader.counted (r : Reader σ) (piece : Bytes) : Reader σ :=
  { r with
    decryptor := { r.decryptor with taken := r.decryptor.taken ++ piece }
    remaining := r.remaining - piece.length
    count := r.count + piece.length }

/-- The plaintext of the next piece. -/
def Reader.plainOf (S : Setting) (r : Reader σ) (piece : Bytes) : Bytes :=
  combine S.aead.keystream r.decryptor.taken.length piece

@[simp] lemma length_plainOf (piece : Bytes) : (r.plainOf S piece).length = piece.length :=
  length_combine _ _

lemma decrypt_counted (piece : Bytes) :
    S.aead.decrypt (r.counted piece).decryptor.taken =
      S.aead.decrypt r.decryptor.taken ++ r.plainOf S piece := by
  show combine _ 0 (r.decryptor.taken ++ piece) = _
  rw [combine_append, Nat.zero_add]
  rfl

/-- Accepting a piece while the cipher is open. -/
lemma accept_eq (hcontext : r.decryptor.finalized = false) (piece : Bytes) :
    r.accept S piece =
      if S.expectedCount < r.count + piece.length then (.error .rejected, r.counted piece)
      else Reader.release S (r.plainOf S piece)
        { r.counted piece with hashed := r.hashed ++ r.plainOf S piece } := by
  have hupdate : r.decryptor.update S.aead piece =
      .ok (r.plainOf S piece, { r.decryptor with taken := r.decryptor.taken ++ piece }) :=
    Decryptor.update_eq_ok.mpr ⟨hcontext, rfl, rfl⟩
  unfold Reader.accept
  simp only [hupdate, length_plainOf, ne_eq, not_true_eq_false, if_false]
  rfl

/-- A live reader that releases plaintext has finalized at the end; otherwise it is dead. -/
lemma Live.release (h : Live S r out) (plain : Bytes) :
    ((r.release S plain).1 = .ok plain ∧ Live S (r.release S plain).2 out ∧
        ((r.release S plain).2.remaining = 0 → (r.release S plain).2.finalized = true)) ∨
    (((r.release S plain).1 = .error .deadline ∨ (r.release S plain).1 = .error .rejected) ∧
      Dead S (r.release S plain).2) := by
  unfold Reader.release
  by_cases hremaining : r.remaining = 0
  · rw [if_pos hremaining]
    have hfinalize := h.finalize hremaining
    generalize r.finalize S = p at hfinalize
    obtain ⟨result, r'⟩ := p
    rcases hfinalize with ⟨hok, hfinalized, hlive⟩ | ⟨herror, hdead⟩
    · obtain rfl : result = .ok () := hok
      exact .inl ⟨rfl, hlive, fun _ => hfinalized⟩
    · right
      rcases herror with herror | herror <;> obtain rfl := herror
      · exact ⟨.inl rfl, hdead⟩
      · exact ⟨.inr rfl, hdead⟩
  · rw [if_neg hremaining]
    exact .inl ⟨rfl, h, fun hzero => absurd hzero hremaining⟩

/-- A live reader accepts a piece and stays live, or is dead. -/
lemma Live.accept (h : Live S r out) (hremaining : r.remaining ≠ 0) (piece : Bytes) :
    ((r.accept S piece).1 = .ok (r.plainOf S piece) ∧
        Live S (r.accept S piece).2 (out ++ r.plainOf S piece) ∧
        ((r.accept S piece).2.remaining = 0 → (r.accept S piece).2.finalized = true)) ∨
    (((r.accept S piece).1 = .error .deadline ∨ (r.accept S piece).1 = .error .rejected) ∧
      Dead S (r.accept S piece).2) := by
  have hopen : r.finalized = false := by
    cases hfinalized : r.finalized with
    | false => rfl
    | true => exact absurd (h.complete hfinalized).1 hremaining
  have hcontext : r.decryptor.finalized = false := by rw [h.context, hopen]
  rw [accept_eq hcontext]
  by_cases hcount : S.expectedCount < r.count + piece.length
  · rw [if_pos hcount]
    exact .inr ⟨.inr rfl, hopen, .inr (.inl hcount)⟩
  · rw [if_neg hcount]
    apply Live.release
    constructor
    · show r.hashed ++ _ = _
      rw [h.hashed]
    · show S.aead.decrypt (r.counted piece).decryptor.taken = _
      rw [decrypt_counted, h.plain]
    · show r.count + piece.length = _
      rw [h.count, List.length_append, length_plainOf]
    · exact h.context
    · intro hfinalized
      exact absurd (hopen.symm.trans hfinalized) Bool.false_ne_true

/-- No piece is released once there is too much plaintext. -/
lemma accept_of_excess (hopen : r.finalized = false) (hcount : S.expectedCount < r.count)
    (piece : Bytes) : (r.accept S piece).1 = .error .rejected ∧ Dead S (r.accept S piece).2 := by
  cases hcontext : r.decryptor.finalized with
  | true =>
    have hrefused : r.decryptor.update S.aead piece = .error .alreadyFinalized := by
      rw [Decryptor.update, hcontext, if_pos rfl]
    unfold Reader.accept
    rw [hrefused]
    exact ⟨rfl, hopen, .inr (.inl hcount)⟩
  | false =>
    rw [accept_eq hcontext, if_pos (by omega)]
    refine ⟨rfl, hopen, .inr (.inl ?_)⟩
    show S.expectedCount < r.count + piece.length
    omega

/-- What accepting a piece takes. -/
lemma accept_took (S : Setting) (r : Reader σ) (piece : Bytes)
    (hcontext : r.decryptor.finalized = false) :
    (r.accept S piece).2.file = r.file ∧ (r.accept S piece).2.delivered = r.delivered ∧
      (r.accept S piece).2.closed = r.closed ∧
      (r.accept S piece).2.decryptor.taken = r.decryptor.taken ++ piece ∧
      (r.accept S piece).2.remaining = r.remaining - piece.length := by
  rw [accept_eq hcontext]
  split
  · exact ⟨rfl, rfl, rfl, rfl, rfl⟩
  · unfold Reader.release
    split
    · have hframe := finalize_frame S
        { r.counted piece with hashed := r.hashed ++ r.plainOf S piece }
      split <;> rename_i hfinal <;> rw [hfinal] at hframe <;>
        exact ⟨hframe.1, hframe.2.2.2.1, hframe.2.2.1, hframe.2.2.2.2, hframe.2.1⟩
    · exact ⟨rfl, rfl, rfl, rfl, rfl⟩

/-! ### One call -/

/-- What the reader counts of the ciphertext, as long as it is not closed. -/
structure Sound (S : Setting) (r : Reader σ) : Prop where
  isOpen : r.closed = false
  context : r.decryptor.finalized = true → r.remaining = 0
  total : r.remaining + r.decryptor.taken.length = S.ciphertextBytes

lemma sound_new (S : Setting) (file : σ) : Sound S (Reader.new S file) :=
  ⟨rfl, nofun, Nat.add_zero _⟩

/-- Finalizing a reader that has taken the whole ciphertext. -/
lemma Sound.finalize (h : Sound S r) (hremaining : r.remaining = 0) :
    Sound S (r.finalize S).2 := by
  obtain ⟨-, hremaining', hclosed, -, htaken⟩ := finalize_frame S r
  refine ⟨by rw [hclosed, h.isOpen], fun _ => by rw [hremaining', hremaining], ?_⟩
  rw [hremaining', htaken, h.total]

lemma finalized_release (S : Setting) (plain : Bytes) (h : r.decryptor.finalized = false) :
    (r.release S plain).2.decryptor.finalized = true → (r.release S plain).2.remaining = 0 := by
  unfold Reader.release
  split
  · rename_i hzero
    have hframe := finalize_frame S r
    split <;> rename_i hfinal <;> rw [hfinal] at hframe <;> exact fun _ => hframe.2.1.trans hzero
  · intro hfinalized
    exact absurd (h.symm.trans hfinalized) Bool.false_ne_true

/-- A piece that is accepted is no longer than what remains. -/
lemma Sound.accept (h : Sound S r) (hremaining : r.remaining ≠ 0) {piece : Bytes}
    (hpiece : piece.length ≤ r.remaining) : Sound S (r.accept S piece).2 := by
  have hcontext : r.decryptor.finalized = false := by
    cases hfinalized : r.decryptor.finalized with
    | false => rfl
    | true => exact absurd (h.context hfinalized) hremaining
  obtain ⟨-, -, hclosed, htaken, hremaining'⟩ := accept_took S r piece hcontext
  have htotal := h.total
  refine ⟨by rw [hclosed, h.isOpen], ?_, ?_⟩
  · rw [accept_eq hcontext]
    split
    · intro hfinalized
      exact absurd (hcontext.symm.trans hfinalized) Bool.false_ne_true
    · exact finalized_release S _ hcontext
  · rw [hremaining', htaken, List.length_append]
    omega

/-- One piece from the source. -/
lemma Sound.readPiece (h : Sound S r) {requested : ℕ} (hrequested : 0 < requested)
    (hle : requested ≤ r.remaining) :
    Sound S (r.readPiece S source requested).2 ∧
      Took S source r (r.readPiece S source requested).2 (r.readPiece S source requested).1 := by
  unfold Reader.readPiece
  split
  · exact ⟨⟨h.isOpen, h.context, h.total⟩, .nothing rfl rfl rfl rfl nofun⟩
  · rcases hanswer : source.read requested r.file with ⟨answer, file⟩
    have hsound : Sound S (r.answered answer file) := ⟨h.isOpen, h.context, h.total⟩
    have hrefused (hlength : answer.delivered.length ≠ requested) :
        Took S source r (r.answered answer file) (.error .source) :=
      .refused hrequested hanswer rfl hlength rfl rfl
    cases answer with
    | bytes piece =>
      simp only []
      by_cases hlength : piece.length = requested
      · rw [if_neg (not_not_intro hlength)]
        have hremaining : r.remaining ≠ 0 := by omega
        have hcontext : r.decryptor.finalized = false := by
          cases hfinalized : r.decryptor.finalized with
          | false => rfl
          | true => exact absurd (h.context hfinalized) hremaining
        obtain ⟨hfile, hdelivered, -, htaken, hremaining'⟩ :=
          accept_took S (r.answered (.bytes piece) file) piece hcontext
        refine ⟨hsound.accept hremaining (hlength.trans_le hle), ?_⟩
        refine .accepted hrequested hle ?_ hdelivered hlength htaken ?_
        · rw [hanswer, hfile]
          rfl
        · rw [hremaining']
          show r.remaining - piece.length + piece.length = r.remaining
          omega
      · rw [if_pos hlength]
        exact ⟨hsound, hrefused hlength⟩
    | other => exact ⟨hsound, hrefused hrequested.ne⟩
    | ioError => exact ⟨hsound, hrefused hrequested.ne⟩
    | raised => exact ⟨hsound, hrefused hrequested.ne⟩

/-- One call of `read`. -/
lemma Sound.read (h : Sound S r) (source : Source σ) (size : Option ℤ) :
    Sound S (r.read S source size).2 ∧
      Took S source r (r.read S source size).2 (r.read S source size).1 := by
  unfold Reader.read
  rw [h.isOpen, if_neg Bool.false_ne_true]
  split
  · rename_i hremaining
    have hframe := finalize_frame S r
    have hsound := h.finalize hremaining
    split <;> rename_i hfinal <;> rw [hfinal] at hframe hsound
    · refine ⟨hsound, .nothing hframe.1 hframe.2.2.2.1 hframe.2.2.2.2 hframe.2.1 ?_⟩
      rintro bytes ⟨⟩
      rfl
    · exact ⟨hsound, .nothing hframe.1 hframe.2.2.2.1 hframe.2.2.2.2 hframe.2.1 nofun⟩
  · rename_i hremaining
    split
    · exact ⟨h, .nothing rfl rfl rfl rfl nofun⟩
    · split
      · refine ⟨h, .nothing rfl rfl rfl rfl ?_⟩
        rintro bytes ⟨⟩
        rfl
      · rename_i size hsize
        exact h.readPiece (by omega) (Nat.min_le_right _ _)

/-- What a call of `read` may do to a reader that has released `out`. -/
inductive Outcome (S : Setting) (r r' : Reader σ) (out : Bytes) (size : Option ℤ) :
    Except Failure Bytes → Prop
  /-- Bytes are released, and the end is reported only by a finalized reader. -/
  | released {bytes : Bytes} (hnot : ¬ Dead S r) (hlive : Live S r' (out ++ bytes))
      (hend : r'.remaining = 0 → r'.finalized = true)
      (hempty : bytes = [] → size ≠ some 0 → r'.remaining = 0) : Outcome S r r' out size (.ok bytes)
  /-- Nothing was asked for. -/
  | idle (hsize : size = some 0) (hremaining : r.remaining ≠ 0) (hsame : r' = r) :
    Outcome S r r' out size (.ok [])
  /-- The caller or the source is at fault; the reader goes on. -/
  | fault {e : Failure} (he : e = .malformedSize ∨ e = .source)
      (hlive : Live S r out → Live S r' out) (hdead : Dead S r → Dead S r') :
    Outcome S r r' out size (.error e)
  /-- The reader is dead. -/
  | failed {e : Failure} (he : e = .deadline ∨ e = .rejected) (hdead : Dead S r') :
    Outcome S r r' out size (.error e)

lemma Live.answered (h : Live S r out) (answer : SourceAnswer) (file : σ) :
    Live S (r.answered answer file) out :=
  ⟨h.hashed, h.plain, h.count, h.context, h.complete⟩

lemma Dead.answered (h : Dead S r) (answer : SourceAnswer) (file : σ) :
    Dead S (r.answered answer file) := h.checked

/-- A piece is read if what becomes of an expired reader, and of the bytes asked for, is known. -/
lemma readPiece_outcome {size : Option ℤ} {requested : ℕ}
    (hexpired : S.expired r.checks = true → Dead S r.checked)
    (haccept : S.expired r.checks = false → ∀ piece file, piece.length = requested →
      Outcome S r ((r.answered (.bytes piece) file).accept S piece).2 out size
        ((r.answered (.bytes piece) file).accept S piece).1) :
    Outcome S r (r.readPiece S source requested).2 out size
      (r.readPiece S source requested).1 := by
  unfold Reader.readPiece
  cases hexpiry : S.expired r.checks with
  | true => exact .failed (.inl rfl) (hexpired hexpiry)
  | false =>
    rw [if_neg Bool.false_ne_true]
    rcases source.read requested r.file with ⟨answer, file⟩
    have hfault : Outcome S r (r.answered answer file) out size (.error .source) :=
      .fault (.inr rfl) (fun h => h.answered answer file) (fun h => h.answered answer file)
    cases answer with
    | bytes piece =>
      simp only []
      by_cases hlength : piece.length = requested
      · rw [if_neg (not_not_intro hlength)]
        exact haccept hexpiry piece file hlength
      · rw [if_pos hlength]
        exact hfault
    | other => exact hfault
    | ioError => exact hfault
    | raised => exact hfault

/-- A piece read by a live reader. -/
lemma Live.readPiece (h : Live S r out) (hnot : ¬ Dead S r) {size : Option ℤ} {requested : ℕ}
    (hrequested : 0 < requested) (hle : requested ≤ r.remaining) :
    Outcome S r (r.readPiece S source requested).2 out size
      (r.readPiece S source requested).1 := by
  have hremaining : r.remaining ≠ 0 := by omega
  have hopen : r.finalized = false := by
    cases hfinalized : r.finalized with
    | false => rfl
    | true => exact absurd (h.complete hfinalized).1 hremaining
  refine readPiece_outcome (fun hexpired => ⟨hopen, .inl (S.expired_mono _ hexpired)⟩)
    fun _ piece file hlength => ?_
  have haccept := (h.answered (.bytes piece) file).accept hremaining piece
  generalize (r.answered (.bytes piece) file).accept S piece = p at haccept
  obtain ⟨result, r'⟩ := p
  rcases haccept with ⟨hresult, hlive, hend⟩ | ⟨hresult, hdead⟩
  · obtain rfl := hresult
    refine .released hnot hlive hend fun hempty _ => ?_
    have hzero := congrArg List.length hempty
    rw [length_plainOf, hlength] at hzero
    exact absurd hzero hrequested.ne'
  · rcases hresult with hresult | hresult <;> obtain rfl := hresult
    · exact .failed (.inl rfl) hdead
    · exact .failed (.inr rfl) hdead

/-- No piece is read by a dead reader. -/
lemma Dead.readPiece (h : Dead S r) {size : Option ℤ} {requested : ℕ}
    (hrequested : 0 < requested) (hle : requested ≤ r.remaining) :
    Outcome S r (r.readPiece S source requested).2 out size
      (r.readPiece S source requested).1 := by
  refine readPiece_outcome (fun _ => h.checked) fun hexpired piece file _ => ?_
  have hcount : S.expectedCount < r.count := by
    obtain ⟨-, hfalse | hcount | ⟨hzero, -⟩⟩ := h
    · exact absurd (hexpired.symm.trans hfalse) Bool.false_ne_true
    · exact hcount
    · omega
  have hexcess := accept_of_excess (r := r.answered (.bytes piece) file) h.1 hcount piece
  generalize (r.answered (.bytes piece) file).accept S piece = p at hexcess
  obtain ⟨result, r'⟩ := p
  obtain ⟨hresult, hdead⟩ := hexcess
  obtain rfl := hresult
  exact .failed (.inr rfl) hdead

/-- One call of `read`. -/
lemma read_outcome (hopen : r.closed = false) (h : Live S r out ∨ Dead S r) (source : Source σ)
    (size : Option ℤ) :
    Outcome S r (r.read S source size).2 out size (r.read S source size).1 := by
  unfold Reader.read
  rw [hopen, if_neg Bool.false_ne_true]
  by_cases hremaining : r.remaining = 0
  · rw [if_pos hremaining]
    have hframe := (finalize_frame S r).2.1
    have hfinalize : (¬ Dead S r ∧ (r.finalize S).1 = .ok () ∧
        (r.finalize S).2.finalized = true ∧ Live S (r.finalize S).2 out) ∨
        (((r.finalize S).1 = .error .deadline ∨ (r.finalize S).1 = .error .rejected) ∧
          Dead S (r.finalize S).2) := by
      by_cases hdead : Dead S r
      · exact .inr hdead.finalize
      · exact ((h.resolve_right hdead).finalize hremaining).imp_left fun h => ⟨hdead, h⟩
    generalize r.finalize S = p at hframe hfinalize
    obtain ⟨result, r'⟩ := p
    rcases hfinalize with ⟨hnot, hresult, hfinalized, hlive⟩ | ⟨hresult, hdead⟩
    · obtain rfl := hresult
      refine .released hnot ?_ (fun _ => hfinalized) fun _ _ => hframe.trans hremaining
      rw [List.append_nil]
      exact hlive
    · rcases hresult with hresult | hresult <;> obtain rfl := hresult
      · exact .failed (.inl rfl) hdead
      · exact .failed (.inr rfl) hdead
  · rw [if_neg hremaining]
    cases size with
    | none => exact .fault (.inl rfl) id id
    | some size =>
      simp only []
      by_cases hrequested : S.requested size = 0
      · rw [if_pos hrequested]
        refine .idle ?_ hremaining rfl
        have hchunk := S.chunkBytes_pos
        unfold Setting.requested at hrequested
        rw [Option.some.injEq]
        split at hrequested <;> omega
      · rw [if_neg hrequested]
        have hpos : 0 < min (S.requested size) r.remaining := by omega
        by_cases hdead : Dead S r
        · exact hdead.readPiece hpos (Nat.min_le_right _ _)
        · exact (h.resolve_right hdead).readPiece hdead hpos (Nat.min_le_right _ _)

/-! ## Sequences of calls -/

/-- What is kept between the calls: the released bytes are plaintext of what was accepted. -/
structure Keeps (S : Setting) (r : Reader σ) (out : Bytes) : Prop where
  sound : Sound S r
  status : Live S r out ∨ Dead S r
  isPrefix : out <+: S.aead.decrypt r.decryptor.taken

lemma keeps_new (S : Setting) (file : σ) : Keeps S (Reader.new S file) [] :=
  ⟨sound_new S file, .inl (live_new S file), List.nil_prefix⟩

lemma Took.taken_isPrefix {r' : Reader σ} {result : Except Failure Bytes}
    (h : Took S source r r' result) : r.decryptor.taken <+: r'.decryptor.taken := by
  cases h with
  | nothing _ _ htaken _ _ => rw [htaken]
  | refused _ _ _ _ htaken _ => rw [htaken]
  | accepted _ _ _ _ _ htaken _ => rw [htaken]; exact List.prefix_append _ _

/-- One call keeps it. -/
lemma Keeps.read (h : Keeps S r out) (source : Source σ) (size : Option ℤ) :
    Keeps S (r.read S source size).2 (out ++ bytesOf (r.read S source size).1) := by
  obtain ⟨hsound, htook⟩ := h.sound.read source size
  have houtcome := read_outcome h.sound.isOpen h.status source size
  have hgrown : out <+: S.aead.decrypt (r.read S source size).2.decryptor.taken :=
    h.isPrefix.trans (S.aead.decrypt_isPrefix htook.taken_isPrefix)
  generalize r.read S source size = p at hsound houtcome hgrown
  obtain ⟨result, r'⟩ := p
  cases houtcome with
  | released hnot hlive hend hempty => exact ⟨hsound, .inl hlive, by rw [hlive.plain]; rfl⟩
  | idle hsize hremaining hsame =>
    subst hsame
    simp only [bytesOf, List.append_nil]
    exact ⟨hsound, h.status, hgrown⟩
  | fault he hlive hdead =>
    simp only [bytesOf, List.append_nil]
    exact ⟨hsound, h.status.imp hlive hdead, hgrown⟩
  | failed he hdead =>
    simp only [bytesOf, List.append_nil]
    exact ⟨hsound, .inr hdead, hgrown⟩

/-- A call that reports the end of the stream finds everything authentic. -/
lemma Keeps.of_end (h : Keeps S r out) {size : Option ℤ} {c : Call σ}
    (hc : c = ⟨size, (r.read S source size).1, (r.read S source size).2⟩) (hend : c.ReportsEnd) :
    Live S c.reader (out ++ c.returned) ∧ c.reader.finalized = true := by
  have houtcome := read_outcome h.sound.isOpen h.status source size
  subst hc
  unfold Call.ReportsEnd at hend
  simp only [Call.returned] at hend ⊢
  generalize r.read S source size = p at houtcome hend
  obtain ⟨result, r'⟩ := p
  cases houtcome with
  | released hnot hlive hfinalized hempty =>
    refine ⟨hlive, hfinalized ?_⟩
    rcases hend with ⟨hresult, hsize⟩ | ⟨bytes, -, -, hremaining⟩
    · cases hresult
      exact hempty rfl hsize
    · exact hremaining
  | idle hsize hremaining hsame =>
    rcases hend with ⟨-, hsize'⟩ | ⟨bytes, hresult, hbytes, -⟩
    · exact absurd hsize hsize'
    · cases hresult
      exact absurd rfl hbytes
  | fault he hlive hdead => rcases hend with ⟨hresult, -⟩ | ⟨_, hresult, -⟩ <;> cases hresult
  | failed he hdead => rcases hend with ⟨hresult, -⟩ | ⟨_, hresult, -⟩ <;> cases hresult

/-- A call of a dead reader returns nothing, reports no end and leaves the reader dead. -/
lemma Dead.read (h : Dead S r) (hsound : Sound S r) (source : Source σ) (size : Option ℤ) :
    Dead S (r.read S source size).2 ∧ ∀ c : Call σ,
      c = ⟨size, (r.read S source size).1, (r.read S source size).2⟩ →
        c.returned = [] ∧ ¬ c.ReportsEnd := by
  have houtcome : Outcome S r _ ([] : Bytes) size _ :=
    read_outcome hsound.isOpen (.inr h) source size
  generalize r.read S source size = p at houtcome
  obtain ⟨result, r'⟩ := p
  have hsilent {e : Failure} (c : Call σ) (hc : c = ⟨size, .error e, r'⟩) :
      c.returned = [] ∧ ¬ c.ReportsEnd := by
    subst hc
    refine ⟨rfl, ?_⟩
    rintro (⟨hresult, -⟩ | ⟨_, hresult, -⟩) <;> cases hresult
  cases houtcome with
  | released hnot hlive hend hempty => exact absurd h hnot
  | idle hsize hremaining hsame =>
    subst hsame
    refine ⟨h, ?_⟩
    rintro c rfl
    refine ⟨rfl, ?_⟩
    rintro (⟨-, hsize'⟩ | ⟨bytes, hresult, hbytes, -⟩)
    · exact hsize' hsize
    · cases hresult
      exact hbytes rfl
  | fault he hlive hdead => exact ⟨hdead h, hsilent⟩
  | failed he hdead => exact ⟨hdead, hsilent⟩

/-- A dead reader returns nothing and reports no end any more. -/
lemma Dead.silent (h : Dead S r) (hsound : Sound S r) (source : Source σ)
    (sizes : List (Option ℤ)) :
    ∀ c ∈ calls S source r sizes, c.returned = [] ∧ ¬ c.ReportsEnd := by
  induction sizes generalizing r with
  | nil => simp [calls]
  | cons size sizes ih =>
    obtain ⟨hdead, hcall⟩ := h.read hsound source size
    intro c hc
    rcases List.mem_cons.mp hc with hfirst | hrest
    · exact hcall c hfirst
    · exact ih hdead (hsound.read source size).1 c hrest

/-- A call that fails for good leaves the reader dead. -/
lemma Keeps.dead_of_failsForGood (h : Keeps S r out) {size : Option ℤ} {c : Call σ}
    (hc : c = ⟨size, (r.read S source size).1, (r.read S source size).2⟩)
    (hfails : c.FailsForGood) : Dead S c.reader := by
  have houtcome := read_outcome h.sound.isOpen h.status source size
  subst hc
  obtain ⟨e, he, hsize, hsource⟩ := hfails
  show Dead S (r.read S source size).2
  replace he : (r.read S source size).1 = .error e := he
  rw [he] at houtcome
  cases houtcome with
  | fault he hlive hdead => exact absurd he (not_or_intro hsize hsource)
  | failed he hdead => exact hdead

variable {sizes : List (Option ℤ)}

/-- A whole sequence of calls keeps it. -/
lemma Keeps.run (h : Keeps S r out) (source : Source σ) (sizes : List (Option ℤ)) :
    Keeps S (readAll S source r sizes) (out ++ released (calls S source r sizes)) := by
  induction sizes generalizing r out with
  | nil => simpa [readAll, calls, released] using h
  | cons size sizes ih =>
    have hnext := ih (h.read source size)
    rw [List.append_assoc] at hnext
    exact hnext

/-- The end is reported only where everything is authentic, and then all has been released. -/
lemma Keeps.end_authentic (h : Keeps S r out) {i : ℕ} {c : Call σ}
    (hc : (calls S source r sizes)[i]? = some c) (hend : c.ReportsEnd) :
    ∃ ciphertext, S.Authentic ciphertext
        (out ++ released ((calls S source r sizes).take (i + 1))) ∧
      out ++ released ((calls S source r sizes).take (i + 1)) = S.aead.decrypt ciphertext ∧
      ciphertext.length = S.ciphertextBytes ∧ c.reader.decryptor.taken = ciphertext := by
  induction sizes generalizing r out i with
  | nil => simp [calls] at hc
  | cons size sizes ih =>
    cases i with
    | zero =>
      have hfirst : c = ⟨size, (r.read S source size).1, (r.read S source size).2⟩ :=
        (Option.some.inj hc).symm
      obtain ⟨hlive, hfinalized⟩ := h.of_end hfirst hend
      obtain ⟨hremaining, hauthentic⟩ := hlive.complete hfinalized
      have hsound : Sound S c.reader := by
        rw [hfirst]
        exact (h.sound.read source size).1
      have htotal := hsound.total
      rw [hremaining, Nat.zero_add] at htotal
      have hreleased : released ((calls S source r (size :: sizes)).take (0 + 1)) =
          c.returned := by
        rw [hfirst]
        simp [calls, released]
      rw [hreleased]
      exact ⟨c.reader.decryptor.taken, hauthentic, hlive.plain.symm, htotal, rfl⟩
    | succ i =>
      have hrest := ih (h.read source size) (i := i) hc
      rw [List.append_assoc] at hrest
      exact hrest

/-- After a call that failed for good nothing is returned and no end is reported. -/
lemma Keeps.silent_after (h : Keeps S r out) {i j : ℕ} {c d : Call σ} (hij : i < j)
    (hc : (calls S source r sizes)[i]? = some c) (hfails : c.FailsForGood)
    (hd : (calls S source r sizes)[j]? = some d) : d.returned = [] ∧ ¬ d.ReportsEnd := by
  induction sizes generalizing r out i j with
  | nil => simp [calls] at hc
  | cons size sizes ih =>
    obtain ⟨j, rfl⟩ := Nat.exists_eq_add_of_lt hij
    cases i with
    | zero =>
      have hfirst : c = ⟨size, (r.read S source size).1, (r.read S source size).2⟩ :=
        (Option.some.inj hc).symm
      have hdead := h.dead_of_failsForGood hfirst hfails
      rw [hfirst] at hdead
      rw [Nat.zero_add] at hd
      exact hdead.silent (h.sound.read source size).1 source sizes d (List.mem_of_getElem? hd)
    | succ i =>
      refine ih (h.read source size) (i := i) (j := i + j + 1) (by omega) hc ?_
      rw [← hd, show i + 1 + j + 1 = i + j + 1 + 1 by omega]
      rfl

/-- Without a failure the reader has accepted all that the source has delivered. -/
lemma delivered_of_ok (hsound : Sound S r) (h : r.delivered = r.decryptor.taken)
    (hok : ∀ c ∈ calls S source r sizes, ¬ c.Fails) :
    (readAll S source r sizes).delivered = (readAll S source r sizes).decryptor.taken := by
  induction sizes generalizing r with
  | nil => exact h
  | cons size sizes ih =>
    obtain ⟨hnext, htook⟩ := hsound.read source size
    have hfirst : ¬ ∃ e, (r.read S source size).1 = .error e := hok _ List.mem_cons_self
    have hsame : (r.read S source size).2.delivered =
        (r.read S source size).2.decryptor.taken := by
      generalize (r.read S source size).1 = result at htook hfirst
      cases htook with
      | nothing _ hdelivered htaken _ _ => rw [hdelivered, htaken, h]
      | refused _ _ _ _ _ _ => exact absurd ⟨_, rfl⟩ hfirst
      | accepted _ _ _ hdelivered _ htaken _ => rw [hdelivered, htaken, h]
    exact ih hnext hsame fun c hc => hok c (List.mem_cons_of_mem _ hc)

/-! ### Sources that deliver a given ciphertext -/

/-- What was accepted is the beginning of the content, and the source stands behind it or at its
end. -/
def Aligned (content : Bytes) (position : σ → ℕ) (r : Reader σ) : Prop :=
  r.decryptor.taken <+: content ∧
    (position r.file = r.decryptor.taken.length ∨ content.length ≤ position r.file)

lemma Took.aligned {content : Bytes} {position : σ → ℕ} (hsource : source.Delivers content position)
    {r' : Reader σ} {result : Except Failure Bytes} (htook : Took S source r r' result)
    (h : Aligned content position r) : Aligned content position r' := by
  obtain ⟨hbefore, hposition⟩ := h
  cases htook with
  | nothing hfile _ htaken _ _ => exact ⟨by rw [htaken]; exact hbefore, by rwa [hfile, htaken]⟩
  | @refused requested answer hrequested hanswer _ hlength htaken _ =>
    refine ⟨by rw [htaken]; exact hbefore, ?_⟩
    have hread := hsource requested r.file
    rw [hanswer] at hread
    rw [htaken]
    cases answer with
    | bytes chunk =>
      obtain ⟨hchunk, hnext⟩ := hread
      -- A short answer means that the content ends here.
      right
      have hshort : chunk.length ≠ requested := hlength
      have hmin := congrArg List.length hchunk
      rw [List.length_take, List.length_drop] at hmin
      omega
    | other => exact hposition.imp hread.trans (fun h => h.trans_eq hread.symm)
    | ioError => exact hposition.imp hread.trans (fun h => h.trans_eq hread.symm)
    | raised => exact hposition.imp hread.trans (fun h => h.trans_eq hread.symm)
  | @accepted requested piece _ hrequested _ hanswer _ hlength htaken _ =>
    have hread := hsource requested r.file
    rw [hanswer] at hread
    obtain ⟨hchunk, hnext⟩ := hread
    have hmin := congrArg List.length hchunk
    rw [List.length_take, List.length_drop] at hmin
    have hplace : position r.file = r.decryptor.taken.length := by omega
    refine ⟨?_, .inl ?_⟩
    · obtain ⟨rest, rfl⟩ := hbefore
      rw [hplace, List.drop_left] at hchunk
      rw [htaken, hchunk]
      exact (List.prefix_append_right_inj _).mpr (List.take_prefix _ _)
    · rw [hnext, htaken, List.length_append, hplace]

lemma aligned_run {content : Bytes} {position : σ → ℕ}
    (hsource : source.Delivers content position) (hsound : Sound S r)
    (h : Aligned content position r) :
    Aligned content position (readAll S source r sizes) := by
  induction sizes generalizing r with
  | nil => exact h
  | cons size sizes ih =>
    obtain ⟨hnext, htook⟩ := hsound.read source size
    exact ih hnext (htook.aligned hsource h)

/-! ## The whole stream -/

/-- What a sequence of calls of `read` on a new reader guarantees. -/
structure Guarded (S : Setting) (source : Source σ) (file : σ) (sizes : List (Option ℤ)) :
    Prop where
  /-- Up to the first failure: a prefix of the decryption of what the source has delivered. -/
  isPrefix : (∀ c ∈ calls S source (Reader.new S file) sizes, ¬ c.Fails) →
    released (calls S source (Reader.new S file) sizes) <+:
      S.aead.decrypt (readAll S source (Reader.new S file) sizes).delivered
  /-- With failures too, where the source reads a given ciphertext in order. -/
  isPrefix_content : ∀ (content : Bytes) (position : σ → ℕ),
    source.Delivers content position → position file = 0 →
    released (calls S source (Reader.new S file) sizes) <+: S.aead.decrypt content
  /-- The end is reported only when tag, count and digest match, with the whole decryption. -/
  ending : ∀ (i : ℕ) (c : Call σ),
    (calls S source (Reader.new S file) sizes)[i]? = some c → c.ReportsEnd → ∃ ciphertext,
      S.Authentic ciphertext (released ((calls S source (Reader.new S file) sizes).take (i + 1))) ∧
      released ((calls S source (Reader.new S file) sizes).take (i + 1)) =
        S.aead.decrypt ciphertext ∧ ciphertext.length = S.ciphertextBytes
  /-- Nothing is released after a failure that is not the caller's or the source's. -/
  silent : ∀ (i j : ℕ) (c d : Call σ), i < j →
    (calls S source (Reader.new S file) sizes)[i]? = some c →
    (calls S source (Reader.new S file) sizes)[j]? = some d → c.FailsForGood →
    d.returned = [] ∧ ¬ d.ReportsEnd

/-- For every setting, every source and every sequence of sizes. -/
theorem decryption_guarded (S : Setting) (source : Source σ) (file : σ)
    (sizes : List (Option ℤ)) : Guarded S source file sizes where
  isPrefix hok := by
    have hrun := ((keeps_new S file).run source sizes).isPrefix
    rwa [delivered_of_ok (sound_new S file) rfl hok]
  isPrefix_content content position hsource hposition := by
    have hrun := ((keeps_new S file).run source sizes).isPrefix
    have haligned : Aligned content position (readAll S source (Reader.new S file) sizes) :=
      aligned_run hsource (sound_new S file) ⟨List.nil_prefix, .inl hposition⟩
    exact hrun.trans (S.aead.decrypt_isPrefix haligned.1)
  ending i c hc hend := by
    obtain ⟨ciphertext, hauthentic, hplain, hlength, -⟩ :=
      (keeps_new S file).end_authentic hc hend
    exact ⟨ciphertext, hauthentic, hplain, hlength⟩
  silent i j c d hij hc hd hfails := (keeps_new S file).silent_after hij hc hfails hd

/-! ### A source that runs short in the middle -/

/-- A source that answers from a list, whatever it is asked for. -/
def scriptedSource : Source (List SourceAnswer) where
  read _ script := (script.head?.getD (.bytes []), script.tail)

/-- Four bytes under a keystream that counts. -/
def fourBytes : Setting where
  aead := { keystream := UInt8.ofNat, tag := id }
  tag := [10, 11, 12, 13]
  sha256 := fun bytes => bytes.map fun b => Char.ofNat b.toNat
  chunkBytes := 4096
  chunkBytes_pos := by decide
  ciphertextBytes := 4
  expectedCount := 4
  expectedSha256 := [10, 10, 14, 14].map Char.ofNat
  expired := fun _ => false
  expired_mono := nofun

/-- The source answers the first request for two bytes with one: the call fails, the next one
decrypts the bytes behind it as if they came first.  And a request for no bytes is answered with
no bytes before anything is authenticated. -/
theorem released_after_fault :
    (calls fourBytes scriptedSource
      (Reader.new fourBytes [.bytes [10], .bytes [11, 12], .bytes [13]])
      [some 0, some 2, some 2]).map Call.result = [.ok [], .error .source, .ok [11, 13]] ∧
    ¬ ([11, 13] : Bytes) <+: fourBytes.aead.decrypt [10, 11, 12, 13] := by
  decide +kernel

end NexaPos.Backups.Artifacts
