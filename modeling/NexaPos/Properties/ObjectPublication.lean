import NexaPos.Backups.DurableStorage
import Mathlib.Data.List.Dedup

/-!
# Publication of stored objects

A call of the store that fails leaves nothing of its own but the directories that objects share, or
says that something was left, or has stored an object that is complete.

This rests on two looks that must get their answer: `os.path.lexists` takes a look that fails for
an absent path, and a directory whose first state is not read is not known to the clean-up.
-/

namespace NexaPos.Backups.DurableStorage

open FileTree Routine

/-! ## Trees -/

/-- Every path is taken once, its parent is a directory, and inodes are used up. -/
structure Disk.Valid (d : Disk) : Prop where
  nodup : (paths d.tree).Nodup
  closed : ∀ x ∈ d.tree, x.1 = [] ∨ ∃ i, (x.1.dropLast, .directory i) ∈ d.tree
  inodes : ∀ x ∈ d.tree, ∀ i, x.2.isFile i = true → i < d.nextInode

/-- Nothing is below a path that is not taken. -/
lemma not_below_of_closed {t : Tree} {p : Path}
    (hclosed : ∀ x ∈ t, x.1 = [] ∨ ∃ i, (x.1.dropLast, Node.directory i) ∈ t) (hne : p ≠ [])
    (hp : p ∉ paths t) : ∀ x ∈ t, ¬ p <+: x.1 := by
  have hlength : ∀ n, ∀ x ∈ t, x.1.length = n → ¬ p <+: x.1 := by
    intro n
    induction n with
    | zero =>
      intro x _ hx hprefix
      rw [List.length_eq_zero_iff.mp hx, List.prefix_nil] at hprefix
      exact hne hprefix
    | succ n ih =>
      intro x hx hn hprefix
      rcases hclosed x hx with hroot | ⟨i, hparent⟩
      · rw [hroot] at hn
        exact nomatch hn
      · refine ih _ hparent (by rw [List.length_dropLast, hn, Nat.add_sub_cancel]) ?_
        have hxne : p ≠ x.1 := fun h => hp (h ▸ mem_paths_of_mem hx)
        obtain ⟨q, hq⟩ := hprefix
        have hqne : q ≠ [] := by
          rintro rfl
          rw [List.append_nil] at hq
          exact hxne hq
        rw [← hq, List.dropLast_append_of_ne_nil hqne]
        exact List.prefix_append p q.dropLast
  exact fun x hx => hlength _ x hx rfl

lemma valid_insert {d : Disk} (h : d.Valid) {p : Path} {n : Node} {t : Tree}
    (ht : insert d.tree p n = some t) {m : ℕ} (hle : d.nextInode ≤ m)
    (hn : ∀ i, n.isFile i = true → i < m) :
    ({ d with tree := t, nextInode := m } : Disk).Valid := by
  obtain ⟨rfl, hp, hparent⟩ := insert_eq_some ht
  refine ⟨?_, fun x hx => ?_, fun x hx i hi => ?_⟩
  · rw [paths_append]
    exact h.nodup.append (List.nodup_singleton p) (List.disjoint_singleton.mpr hp)
  · rcases List.mem_append.mp hx with hx | hx
    · exact (h.closed x hx).imp_right fun ⟨i, hi⟩ => ⟨i, List.mem_append_left _ hi⟩
    · cases List.mem_singleton.mp hx
      obtain ⟨i, hi⟩ := hparent
      exact .inr ⟨i, List.mem_append_left _ hi⟩
  · rcases List.mem_append.mp hx with hx | hx
    · exact Nat.lt_of_lt_of_le (h.inodes x hx i hi) hle
    · cases List.mem_singleton.mp hx
      exact hn i hi

/-- Removing an entry that is no parent. -/
lemma valid_remove {d : Disk} (h : d.Valid) {p : Path}
    (hparent : ∀ x ∈ d.tree, x.1 ≠ [] → x.1.dropLast ≠ p) :
    ({ d with tree := remove d.tree p } : Disk).Valid := by
  refine ⟨?_, fun x hx => ?_, fun x hx i hi => h.inodes x (mem_remove.mp hx).1 i hi⟩
  · exact h.nodup.sublist (List.Sublist.map _ List.filter_sublist)
  · obtain ⟨hx, -⟩ := mem_remove.mp hx
    by_cases hroot : x.1 = []
    · exact .inl hroot
    · obtain ⟨i, hi⟩ := (h.closed x hx).resolve_left hroot
      exact .inr ⟨i, mem_remove.mpr ⟨hi, hparent x hx hroot⟩⟩

lemma valid_unlink {d : Disk} (h : d.Valid) {p : Path} {t : Tree}
    (ht : FileTree.unlink d.tree p = some t) : ({ d with tree := t } : Disk).Valid := by
  obtain rfl := unlink_eq_some ht
  refine valid_remove h fun x hx hne heq => ?_
  obtain ⟨i, hi⟩ := (h.closed x hx).resolve_left hne
  rw [heq] at hi
  rw [FileTree.unlink, (find_eq_some h.nodup).mpr hi] at ht
  cases ht

lemma valid_rmdir {d : Disk} (h : d.Valid) {p : Path} {t : Tree}
    (ht : removeDirectory d.tree p = some t) : ({ d with tree := t } : Disk).Valid := by
  obtain rfl := removeDirectory_eq_some ht
  refine valid_remove h fun x hx hne heq => ?_
  rw [removeDirectory] at ht
  split at ht
  · rw [Option.ite_none_right_eq_some] at ht
    have hchild := List.all_eq_true.mp ht.1 x hx
    simp [hne, heq] at hchild
  · cases ht

lemma valid_append {d : Disk} (h : d.Valid) (i : ℕ) (chunk : Bytes) :
    ({ d with tree := append d.tree i chunk } : Disk).Valid := by
  refine ⟨?_, fun x hx => ?_, fun x hx j hj => ?_⟩
  · rw [paths_fileAppend]
    exact h.nodup
  · obtain ⟨y, hy, rfl⟩ := mem_fileAppend.mp hx
    exact (h.closed y hy).imp_right fun ⟨j, hj⟩ => ⟨j, mem_fileAppend_of_mem hj rfl⟩
  · obtain ⟨y, hy, rfl⟩ := mem_fileAppend.mp hx
    exact h.inodes y hy j (Node.isFile_append ▸ hj)

/-! ## Calls that fail -/

/-- The looks that must get their answer. -/
def StorageCall.crucial : StorageCall → Bool
  | .lstat _ => true
  | .statMade _ => true
  | _ => false

/-- Any other call can fail at any time. -/
def reliable (setup : Setup) : Protocol Disk StorageCall StorageCall.Result Fault where
  may _ _ := True
  next d i r d' := ∃ c, (machine setup).answer () i d c = (r, d') ∧
    (i.crucial = true → c = .served)

variable {setup : Setup} {α β : Type} {l : Locals} {d : Disk} {p : Path} {e : StorageError}
  {Q : α → Locals → Disk → Prop} {R : Locals → Disk → Prop}

/-- The code ends where `Q` holds, or raises where `R` holds. -/
def Does (setup : Setup) (x : Code α) (Q : α → Locals → Disk → Prop) (R : Locals → Disk → Prop)
    (l : Locals) (d : Disk) : Prop :=
  Meets (reliable setup) x Q (fun _ l d => R l d) l d

@[simp] lemma does_pure {a : α} : Does setup (pure a) Q R l d ↔ Q a l d := meets_pure

@[simp] lemma does_bind {x : Code α} {f : α → Code β} {Q : β → Locals → Disk → Prop} :
    Does setup (x >>= f) Q R l d ↔
      Does setup x (fun a l d => Does setup (f a) Q R l d) R l d := meets_bind

@[simp] lemma does_modify {f : Locals → Locals} {Q : PUnit → Locals → Disk → Prop} :
    Does setup (modify f : Code PUnit) Q R l d ↔ Q ⟨⟩ (f l) d := meets_modify

@[simp] lemma does_get {Q : Locals → Locals → Disk → Prop} :
    Does setup (get : Code Locals) Q R l d ↔ Q l l d := meets_get

lemma Does.mono {x : Code α} {Q' : α → Locals → Disk → Prop} {R' : Locals → Disk → Prop}
    (h : Does setup x Q R l d) (hQ : ∀ a l d, Q a l d → Q' a l d)
    (hR : ∀ l d, R l d → R' l d) : Does setup x Q' R' l d :=
  Meets.mono h hQ fun _ => hR

lemma does_tryCatch {x : Code α} {h : Fault → Code α}
    (hx : Does setup x Q (fun l d => ∀ f, Does setup (h f) Q R l d) l d) :
    Does setup (tryCatch x h) Q R l d :=
  meets_tryCatch.mpr (Meets.mono hx (fun _ _ _ hQ => hQ) fun f _ _ hR => hR f)

lemma does_refuseIf {c : Prop} [Decidable c] {Q : Unit → Locals → Disk → Prop} (hR : c → R l d)
    (hQ : ¬ c → Q ⟨⟩ l d) : Does setup (refuseIf c e) Q R l d := by
  rw [refuseIf]
  split
  · exact hR (by assumption)
  · exact hQ (by assumption)

lemma does_onOs {x : Code α} (h : Does setup x Q R l d) : Does setup (onOs e x) Q R l d := by
  refine does_tryCatch (h.mono (fun _ _ _ hQ => hQ) fun l d hR f => ?_)
  split
  · exact hR
  · exact hR

/-- A call that fails has had its effect, or none. -/
lemma does_ask {i : StorageCall} {Q : i.Result → Locals → Disk → Prop} (hR : R l d)
    (htorn : R l (exec setup i d).2) (hok : ∀ a d', exec setup i d = (.ok a, d') → Q a l d') :
    Does setup (ask i) Q R l d := by
  refine meets_perform.mpr ⟨trivial, fun r d' hn => ?_⟩
  obtain ⟨c, hc, -⟩ := hn
  cases c with
  | served =>
    cases r with
    | ok a => exact hok a d' hc
    | error f =>
      obtain rfl : (exec setup i d).2 = d' := congrArg Prod.snd hc
      exact htorn
  | raised f =>
    cases hc
    exact hR
  | lost f =>
    cases hc
    show R l (if (machine setup).torn i = true then (exec setup i d).2 else d)
    split
    · exact htorn
    · exact hR

/-- A call that is answered. -/
lemma does_served {i : StorageCall} {Q : i.Result → Locals → Disk → Prop}
    (hi : i.crucial = true) (hR : ∀ f d', exec setup i d = (.error f, d') → R l d')
    (hok : ∀ a d', exec setup i d = (.ok a, d') → Q a l d') :
    Does setup (ask i) Q R l d := by
  refine meets_perform.mpr ⟨trivial, fun r d' hn => ?_⟩
  obtain ⟨c, hc, hserved⟩ := hn
  obtain rfl := hserved hi
  cases r with
  | ok a => exact hok a d' hc
  | error f => exact hR f d' hc

/-- `os.path.lexists`, when its look is answered. -/
@[simp] lemma does_lexists {Q : Bool → Locals → Disk → Prop} :
    Does setup (lexists p) Q R l d ↔ Q (decide (p ∈ paths d.tree)) l d := by
  have hlook : exec setup (.lstat p) d =
      (if p ∈ paths d.tree then .ok ⟨⟩ else .error .os, d) := by
    cases hfind : find d.tree p with
    | none => simp [exec, hfind, find_eq_none.mp hfind]
    | some n => simp [exec, hfind, mem_paths_of_mem (mem_of_find hfind)]
  have hserved : ∀ r d', (reliable setup).next d (.lstat p) r d' ↔
      exec setup (.lstat p) d = (r, d') := by
    intro r d'
    constructor
    · rintro ⟨c, hc, hserved⟩
      obtain rfl := hserved rfl
      exact hc
    · exact fun h => ⟨.served, h, fun _ => rfl⟩
  simp only [Does, lexists, meets_tryCatch, Routine.meets_bind, meets_perform, hserved, hlook]
  by_cases hp : p ∈ paths d.tree <;> simp [hp, reliable]

/-! ## Code that only looks -/

/-- The tree and its inodes are as they were. -/
def Same (d d' : Disk) : Prop := d'.tree = d.tree ∧ d'.nextInode = d.nextInode

lemma Same.refl (d : Disk) : Same d d := ⟨rfl, rfl⟩

lemma Same.trans {d d' d'' : Disk} (h : Same d d') (h' : Same d' d'') : Same d d'' :=
  ⟨h'.1.trans h.1, h'.2.trans h.2⟩

/-- The variables and the tree stay as they are. -/
def Looks (setup : Setup) (x : Code α) : Prop :=
  ∀ l d, Does setup x (fun _ l' d' => l' = l ∧ Same d d') (fun l' d' => l' = l ∧ Same d d') l d

def StorageCall.quiet : StorageCall → Bool
  | .ensureDirectory _ => false
  | .mkdir _ => false
  | .create _ => false
  | .write .. => false
  | .link .. => false
  | .unlink _ => false
  | .rmdir _ => false
  | _ => true

lemma exec_quiet {i : StorageCall} (hi : i.quiet = true) (d : Disk) :
    Same d (exec setup i d).2 := by
  cases i <;> simp only [StorageCall.quiet, Bool.false_eq_true] at hi <;> first
    | exact ⟨rfl, rfl⟩
    | (simp only [exec, Disk.look]; split <;> exact ⟨rfl, rfl⟩)

lemma looks_ask {i : StorageCall} (hi : i.quiet = true) : Looks setup (ask i) := fun l d => by
  have hsame : Same d (exec setup i d).2 := exec_quiet hi d
  refine does_ask ⟨rfl, Same.refl d⟩ ⟨rfl, hsame⟩ fun a d' hexec => ⟨rfl, ?_⟩
  rw [hexec] at hsame
  exact hsame

lemma looks_pure {a : α} : Looks setup (pure a) := fun _ d => ⟨rfl, Same.refl d⟩

lemma looks_fail : Looks setup (fail e : Code α) := fun _ d => ⟨rfl, Same.refl d⟩

lemma looks_get : Looks setup (get : Code Locals) := fun _ d => ⟨rfl, Same.refl d⟩

lemma looks_lexists : Looks setup (lexists p) := fun _ d => does_lexists.mpr ⟨rfl, Same.refl d⟩

lemma Looks.bind {x : Code α} {f : α → Code β} (hx : Looks setup x)
    (hf : ∀ a, Looks setup (f a)) : Looks setup (x >>= f) := fun l d => by
  rw [does_bind]
  refine (hx l d).mono (fun a l' d' h => ?_) fun _ _ h => h
  obtain ⟨rfl, hsame⟩ := h
  exact (hf a l' d').mono (fun _ _ _ h => h.imp_right hsame.trans)
    fun _ _ h => h.imp_right hsame.trans

lemma looks_refuseIf {c : Prop} [Decidable c] : Looks setup (refuseIf c e) := fun _ d =>
  does_refuseIf (fun _ => ⟨rfl, Same.refl d⟩) fun _ => ⟨rfl, Same.refl d⟩

lemma Looks.tryCatch {x : Code α} {h : Fault → Code α} (hx : Looks setup x)
    (hh : ∀ f, Looks setup (h f)) : Looks setup (tryCatch x h) := fun l d => by
  refine does_tryCatch ((hx l d).mono (fun _ _ _ h => h) fun l' d' hl f => ?_)
  obtain ⟨rfl, hsame⟩ := hl
  exact (hh f l' d').mono (fun _ _ _ h => h.imp_right hsame.trans)
    fun _ _ h => h.imp_right hsame.trans

lemma Looks.onOs {x : Code α} (hx : Looks setup x) : Looks setup (onOs e x) := fun l d =>
  does_onOs (hx l d)

/-- Code that only looks, before code that starts from the same. -/
lemma Looks.does_bind {x : Code α} {f : α → Code β} {Q : β → Locals → Disk → Prop}
    (hx : Looks setup x) (hR : ∀ d', Same d d' → R l d')
    (hf : ∀ a d', Same d d' → Does setup (f a) Q R l d') : Does setup (x >>= f) Q R l d := by
  rw [DurableStorage.does_bind]
  refine (hx l d).mono (fun a l' d' h => ?_) fun l' d' h => ?_
  · obtain ⟨rfl, hsame⟩ := h
    exact hf a d' hsame
  · obtain ⟨rfl, hsame⟩ := h
    exact hR d' hsame

lemma looks_directoryState : Looks setup (directoryState p e) :=
  (looks_ask rfl).onOs.bind fun _ => looks_refuseIf.bind fun _ => looks_pure

lemma looks_regularFileState : Looks setup (regularFileState p e) :=
  (looks_ask rfl).onOs.bind fun _ => looks_refuseIf.bind fun _ => looks_pure

lemma looks_objectPaths {c : Context} {reference : String} :
    Looks setup (objectPaths setup c reference e) :=
  Looks.onOs <| (looks_ask rfl).bind fun _ => (looks_ask rfl).bind fun _ =>
    (looks_ask rfl).bind fun _ => (looks_ask rfl).bind fun _ => looks_ask rfl

lemma looks_hashPath {expectedIdentity : ℕ} : Looks setup (hashPath setup p expectedIdentity e) :=
  Looks.onOs <| (looks_ask rfl).bind fun _ => looks_refuseIf.bind fun _ =>
    (looks_ask rfl).bind fun _ => looks_refuseIf.bind fun _ => looks_pure

lemma looks_validatePath {evidence : Evidence} : Looks setup (validatePath setup evidence e) :=
  looks_objectPaths.bind fun _ => looks_directoryState.bind fun _ =>
  looks_directoryState.bind fun _ => looks_directoryState.bind fun _ =>
  looks_directoryState.bind fun _ => looks_directoryState.bind fun _ =>
  looks_refuseIf.bind fun _ =>
  (Looks.onOs <| (looks_ask rfl).bind fun _ => (looks_ask rfl).bind fun _ =>
    (looks_ask rfl).bind fun _ => (looks_ask rfl).bind fun _ => looks_ask rfl).bind fun _ =>
  (looks_ask rfl).bind fun _ => looks_refuseIf.bind fun _ =>
  looks_regularFileState.bind fun _ => looks_refuseIf.bind fun _ =>
  (looks_ask rfl).onOs.bind fun _ => looks_hashPath.bind fun _ =>
  looks_refuseIf.bind fun _ =>
  Looks.tryCatch
    ((looks_ask rfl).bind fun _ => looks_refuseIf.bind fun _ => (looks_ask rfl).bind fun _ =>
      looks_ask rfl)
    fun f => by
      split
      · exact looks_fail
      · exact fun _ d => ⟨rfl, Same.refl d⟩

/-! ## Inside the object's directory -/

/-- The tree is another one with entries of its own below a path, whose files are new. -/
structure Confined (base : Disk) (D : Path) (d : Disk) : Prop where
  valid : d.Valid
  outside : ∀ x ∈ base.tree, ¬ D <+: x.1
  older : ∀ x ∈ base.tree, ∀ i, x.2.isFile i = true → i < base.nextInode
  own : ∃ own, d.tree = base.tree ++ own ∧
    ∀ x ∈ own, D <+: x.1 ∧ ∀ i, x.2.isFile i = true → base.nextInode ≤ i
  le : base.nextInode ≤ d.nextInode

variable {base : Disk} {D : Path}

lemma Disk.Valid.congr {d d' : Disk} (h : d.Valid) (hsame : Same d d') : d'.Valid := by
  obtain ⟨tree, nextInode, _, _⟩ := d'
  obtain ⟨rfl, rfl⟩ : tree = d.tree ∧ nextInode = d.nextInode := hsame
  exact ⟨h.nodup, h.closed, h.inodes⟩

lemma Confined.congr {d' : Disk} (h : Confined base D d) (hsame : Same d d') :
    Confined base D d' where
  valid := h.valid.congr hsame
  outside := h.outside
  older := h.older
  own := by
    rw [hsame.1]
    exact h.own
  le := by
    rw [hsame.2]
    exact h.le

lemma Confined.not_mem_base (h : Confined base D d) {q : Path} (hq : D <+: q) :
    q ∉ paths base.tree := fun hmem => by
  obtain ⟨x, hx, rfl⟩ := List.mem_map.mp hmem
  exact h.outside x hx hq

lemma Confined.insert (h : Confined base D d) {q : Path} {n : Node} {t : Tree} {m : ℕ}
    (hq : D <+: q) (ht : FileTree.insert d.tree q n = some t) (hle : d.nextInode ≤ m)
    (hn : ∀ i, n.isFile i = true → base.nextInode ≤ i ∧ i < m) :
    Confined base D { d with tree := t, nextInode := m } where
  valid := valid_insert h.valid ht hle fun i hi => (hn i hi).2
  outside := h.outside
  older := h.older
  own := by
    obtain ⟨rfl, -, -⟩ := insert_eq_some ht
    obtain ⟨own, htree, hown⟩ := h.own
    refine ⟨own ++ [(q, n)], by rw [htree, List.append_assoc], fun x hx => ?_⟩
    rcases List.mem_append.mp hx with hx | hx
    · exact hown x hx
    · cases List.mem_singleton.mp hx
      exact ⟨hq, fun i hi => (hn i hi).1⟩
  le := Nat.le_trans h.le hle

lemma Confined.remove (h : Confined base D d) {q : Path} (hq : D <+: q)
    (hvalid : ({ d with tree := FileTree.remove d.tree q } : Disk).Valid) :
    Confined base D { d with tree := FileTree.remove d.tree q } where
  valid := hvalid
  outside := h.outside
  older := h.older
  own := by
    obtain ⟨own, htree, hown⟩ := h.own
    refine ⟨FileTree.remove own q, ?_, fun x hx => hown x (mem_remove.mp hx).1⟩
    show FileTree.remove d.tree q = _
    rw [htree, remove_append_of_not_mem (h.not_mem_base hq)]
  le := h.le

lemma Confined.append (h : Confined base D d) {q : Path} {i : ℕ} {bytes chunk : Bytes}
    (hq : D <+: q) (hfile : find d.tree q = some (.file i bytes)) :
    Confined base D { d with tree := FileTree.append d.tree i chunk } where
  valid := valid_append h.valid i chunk
  outside := h.outside
  older := h.older
  own := by
    obtain ⟨own, htree, hown⟩ := h.own
    have hmem := mem_of_find hfile
    have hnew : base.nextInode ≤ i := by
      rw [htree] at hmem
      rcases List.mem_append.mp hmem with hbase | hmine
      · exact absurd hq (h.outside _ hbase)
      · exact (hown _ hmine).2 i (by simp [Node.isFile])
    refine ⟨FileTree.append own i chunk, ?_, fun x hx => ?_⟩
    · show FileTree.append d.tree i chunk = _
      rw [htree, fileAppend_append, fileAppend_eq_self fun x hx => ?_]
      cases hfileNode : x.2.isFile i with
      | false => rfl
      | true => exact absurd (h.older x hx i hfileNode) (Nat.not_lt.mpr hnew)
    · obtain ⟨y, hy, rfl⟩ := mem_fileAppend.mp hx
      exact ⟨(hown y hy).1, fun j hj => (hown y hy).2 j (Node.isFile_append ▸ hj)⟩
  le := h.le

/-- A call that changes the tree below a path only. -/
def StorageCall.Within (D : Path) : StorageCall → Prop
  | .ensureDirectory _ => False
  | .mkdir p => D <+: p
  | .create p => D <+: p
  | .write p _ => D <+: p
  | .link source target => D <+: source ∧ D <+: target
  | .unlink p => D <+: p
  | .rmdir p => D <+: p
  | _ => True

lemma Confined.exec {i : StorageCall} (h : Confined base D d) (hi : i.Within D) :
    Confined base D (exec setup i d).2 := by
  have hnew : ∀ {q : Path} {n : Node}, D <+: q → (∀ j, n.isFile j = true → j = d.nextInode) →
      Confined base D (d.onNew (FileTree.insert d.tree q n)).2 := by
    intro q n hq hn
    cases ht : FileTree.insert d.tree q n with
    | none => exact h
    | some t =>
      refine h.insert hq ht (Nat.le_succ _) fun j hj => ?_
      rw [hn j hj]
      exact ⟨h.le, Nat.lt_succ_self _⟩
  cases i with
  | ensureDirectory q => exact hi.elim
  | mkdir q => exact hnew hi fun j hj => nomatch hj
  | create q => exact hnew hi fun j hj => (beq_iff_eq.mp hj).symm
  | write q chunk =>
    simp only [DurableStorage.exec]
    split
    · exact h.append hi (by assumption)
    · exact h
  | link source target =>
    simp only [DurableStorage.exec]
    cases ht : FileTree.link d.tree source target with
    | none => exact h
    | some t =>
      obtain ⟨i, bytes, hfind, hinsert⟩ := link_eq_some ht
      refine h.insert (m := d.nextInode) hi.2 hinsert (Nat.le_refl _) fun j hj => ?_
      have hmem := mem_of_find hfind
      refine ⟨?_, h.valid.inodes _ hmem j hj⟩
      obtain ⟨own, htree, hown⟩ := h.own
      rw [htree] at hmem
      rcases List.mem_append.mp hmem with hbase | hmine
      · exact absurd hi.1 (h.outside _ hbase)
      · exact (hown _ hmine).2 j hj
  | unlink q =>
    simp only [DurableStorage.exec]
    cases ht : FileTree.unlink d.tree q with
    | none => exact h
    | some t =>
      have hvalid := valid_unlink h.valid ht
      obtain rfl := unlink_eq_some ht
      exact h.remove hi hvalid
  | rmdir q =>
    simp only [DurableStorage.exec]
    cases ht : removeDirectory d.tree q with
    | none => exact h
    | some t =>
      have hvalid := valid_rmdir h.valid ht
      obtain rfl := removeDirectory_eq_some ht
      exact h.remove hi hvalid
  | _ => exact h.congr (exec_quiet rfl d)

/-- When the directory is gone, so is all that was in it. -/
lemma Confined.tree_eq (h : Confined base D d) (hne : D ≠ []) (hD : D ∉ paths d.tree) :
    d.tree = base.tree := by
  obtain ⟨own, htree, hown⟩ := h.own
  have hnone : own = [] := List.eq_nil_iff_forall_not_mem.mpr fun x hx =>
    not_below_of_closed h.valid.closed hne hD x (htree ▸ List.mem_append_right _ hx) (hown x hx).1
  rw [htree, hnone, List.append_nil]

/-! ## The directories above an object -/

variable {c : Context} {start : Disk} {reference : String}

/-- Nothing is new but directories that lead to the objects of a backup. -/
def Shared (setup : Setup) (c : Context) (t t' : Tree) : Prop :=
  ∃ made, t' = t ++ made ∧ ∀ x ∈ made, x.1 <+: setup.backup c ∧ x.2.isDirectory = true

lemma Shared.refl (t : Tree) : Shared setup c t t :=
  ⟨[], (List.append_nil t).symm, fun _ hx => (List.not_mem_nil hx).elim⟩

/-- The disk is ready for an object, or on the way there. -/
structure Prepared (setup : Setup) (c : Context) (start d : Disk) : Prop where
  valid : d.Valid
  shared : Shared setup c start.tree d.tree

lemma Prepared.congr {d' : Disk} (h : Prepared setup c start d) (hsame : Same d d') :
    Prepared setup c start d' where
  valid := h.valid.congr hsame
  shared := by
    rw [hsame.1]
    exact h.shared

lemma Prepared.ensure (h : Prepared setup c start d) (hp : p <+: setup.backup c) :
    Prepared setup c start (exec setup (.ensureDirectory p) d).2 := by
  have hnew : Prepared setup c start (d.onNew (makeDirectory d.tree d.nextInode p)).2 := by
    cases ht : makeDirectory d.tree d.nextInode p with
    | none => exact h
    | some t =>
      refine ⟨valid_insert h.valid ht (Nat.le_succ _) (fun j hj => nomatch hj), ?_⟩
      obtain ⟨rfl, -, -⟩ := insert_eq_some ht
      obtain ⟨made, hmade, hdirs⟩ := h.shared
      refine ⟨made ++ [(p, .directory d.nextInode)], ?_, fun x hx => ?_⟩
      · show d.tree ++ _ = _
        rw [hmade, List.append_assoc]
      · rcases List.mem_append.mp hx with hx | hx
        · exact hdirs x hx
        · cases List.mem_singleton.mp hx
          exact ⟨hp, rfl⟩
  simp only [exec]
  split
  · exact h
  · exact hnew

/-- The variables stay as they are, and the disk is on the way to be ready. -/
def Prepares (setup : Setup) (c : Context) (x : Code α) : Prop :=
  ∀ (start : Disk) (l₀ : Locals),
    Keeps (reliable setup) (fun l d => l = l₀ ∧ Prepared setup c start d) x

lemma Looks.prepares {x : Code α} (hx : Looks setup x) : Prepares setup c x := by
  rintro start l₀ l d ⟨rfl, hd⟩
  exact (hx l d).mono (fun _ _ _ h => ⟨h.1, hd.congr h.2⟩) fun _ _ h => ⟨h.1, hd.congr h.2⟩

lemma Prepares.bind {x : Code α} {f : α → Code β} (hx : Prepares setup c x)
    (hf : ∀ a, Prepares setup c (f a)) : Prepares setup c (x >>= f) := fun start l₀ =>
  keeps_bind (hx start l₀) fun a => hf a start l₀

lemma prepares_onOs {x : Code α} (hx : Prepares setup c x) : Prepares setup c (onOs e x) :=
  fun start l₀ => keeps_tryCatch (hx start l₀) fun _ => keeps_ite keeps_throw keeps_throw

lemma prepares_ensure (hp : p <+: setup.backup c) :
    Prepares setup c (ask (.ensureDirectory p)) := by
  rintro start l₀ l d ⟨rfl, hd⟩
  have hafter := hd.ensure hp
  refine does_ask (R := fun l' d' => l' = l ∧ Prepared setup c start d') ⟨rfl, hd⟩ ⟨rfl, hafter⟩
    fun a d' hexec => ⟨rfl, ?_⟩
  rw [hexec] at hafter
  exact hafter

lemma prepares_ensureDirectory (hp : p <+: setup.backup c) :
    Prepares setup c (ensureDirectory p) := by
  refine looks_lexists.prepares.bind fun existed => (prepares_onOs (prepares_ensure hp)).bind
    fun _ => looks_directoryState.prepares.bind fun _ => (looks_ask rfl).onOs.prepares.bind
    fun _ => ?_
  split
  · exact (looks_directoryState.bind fun _ => looks_refuseIf.bind fun _ =>
      looks_directoryState).prepares
  · exact looks_directoryState.prepares

lemma prepares_makeParents {ps : List Path} (hps : ∀ p ∈ ps, p <+: setup.backup c) :
    Prepares setup c (makeParents ps) := by
  induction ps with
  | nil => exact looks_pure.prepares
  | cons p ps ih =>
    exact (prepares_onOs (prepares_ensure (hps p List.mem_cons_self))).bind fun _ =>
      ih fun q hq => hps q (List.mem_cons_of_mem p hq)

lemma root_prefix : setup.root <+: setup.backup c :=
  (List.prefix_append _ _).trans ((List.prefix_append _ _).trans (List.prefix_append _ _))

lemma prepares_makeRoot : Prepares setup c (makeRoot setup) := by
  refine looks_lexists.prepares.bind fun there => ?_
  split
  · exact looks_pure.prepares
  · refine prepares_makeParents fun p hp => ?_
    obtain ⟨n, -, rfl⟩ := List.mem_map.mp hp
    exact (List.take_prefix _ _).trans root_prefix

lemma prepares_prepareHierarchy : Prepares setup c (prepareHierarchy setup c) := by
  have hobjects : setup.objects <+: setup.backup c :=
    (List.prefix_append _ _).trans (List.prefix_append _ _)
  have htenant : setup.tenant c <+: setup.backup c := List.prefix_append _ _
  exact (looks_ask rfl).prepares.bind fun _ => prepares_makeRoot.bind fun _ =>
    (prepares_ensureDirectory root_prefix).bind fun _ =>
    (looks_ask rfl).prepares.bind fun _ => (looks_ask rfl).prepares.bind fun _ =>
    (prepares_ensureDirectory hobjects).bind fun _ => (looks_ask rfl).prepares.bind fun _ =>
    (prepares_ensureDirectory htenant).bind fun _ => (looks_ask rfl).prepares.bind fun _ =>
    (prepares_ensureDirectory (List.prefix_refl _)).bind fun _ => looks_pure.prepares

/-! ## Before an object is published -/

variable {r : Request} {g : Registry} {k : ℕ}

/-- Nothing of an object has been made. -/
structure Before (setup : Setup) (r : Request) (g : Registry) (start : Disk) (l : Locals)
    (d : Disk) : Prop where
  registry : l.registry = g
  published : l.publishedEvidence = none
  result : l.result = none
  complete : l.cleanupIncomplete = false
  directory : l.directoryIdentity = none
  file : l.fileIdentity = none
  prepared : Prepared setup r.context start d

/-- The object's directory has been made and is known. -/
structure Working (g : Registry) (base : Disk) (D : Path) (k : ℕ) (l : Locals) (d : Disk) :
    Prop where
  registry : l.registry = g
  published : l.publishedEvidence = none
  result : l.result = none
  complete : l.cleanupIncomplete = false
  directory : l.directory = some D
  identity : l.directoryIdentity = some k
  part : ∀ p, l.partPath = some p → D <+: p
  final : ∀ p, l.finalPath = some p → D <+: p
  confined : Confined base D d

/-- No object has been published. -/
def Unpublished (setup : Setup) (r : Request) (g : Registry) (start : Disk) (l : Locals)
    (d : Disk) : Prop :=
  Before setup r g start l d ∨ ∃ base D k, D ≠ [] ∧ Shared setup r.context start.tree base.tree ∧
    Working g base D k l d

lemma Working.congr {d' : Disk} (h : Working g base D k l d) (hsame : Same d d') :
    Working g base D k l d' :=
  { h with confined := h.confined.congr hsame }

lemma directory_ne_nil : setup.directory c reference ≠ [] :=
  List.append_ne_nil_of_right_ne_nil _ (List.cons_ne_nil _ _)

/-- Where an object is going to be. -/
def Placed (setup : Setup) (r : Request) (plan : Plan) (l : Locals) (d : Disk) : Prop :=
  l.directory = some (setup.directory r.context plan.reference) ∧
    l.finalPath = some (setup.final r.context plan.reference) ∧ l.partPath = none ∧
    setup.directory r.context plan.reference ∉ paths d.tree

lemma does_admitArtifact (hd : Prepared setup r.context start d) :
    Does setup (admitArtifact setup r)
      (fun plan l' d' => Before setup r g start l' d' ∧ Placed setup r plan l' d')
      (Before setup r g start) { registry := g } d := by
  have hbefore : ∀ d', Prepared setup r.context start d' →
      Before setup r g start { registry := g } d' := fun d' hd' =>
    ⟨rfl, rfl, rfl, rfl, rfl, rfl, hd'⟩
  have hlook : ∀ d', Same d d' → Before setup r g start { registry := g } d' := fun d' hsame =>
    hbefore d' (hd.congr hsame)
  refine looks_refuseIf.does_bind hlook fun _ d₁ h₁ => ?_
  have howned : Looks setup (tryCatch (ask .validateOwned)
      fun f => if f = .abort then throw f else fail .coordination) :=
    (looks_ask rfl).tryCatch fun f => by
      split
      · exact fun _ d => ⟨rfl, Same.refl d⟩
      · exact looks_fail
  refine howned.does_bind (fun d' h' => hlook d' (h₁.trans h')) fun _ d₂ h₂ => ?_
  replace h₂ := h₁.trans h₂
  refine (looks_ask rfl).does_bind (fun d' h' => hlook d' (h₂.trans h'))
    fun reference d₃ h₃ => ?_
  replace h₃ := h₂.trans h₃
  refine looks_get.does_bind (fun d' h' => hlook d' (h₃.trans h')) fun l₁ d₄ h₄ => ?_
  replace h₄ := h₃.trans h₄
  refine looks_refuseIf.does_bind (fun d' h' => hlook d' (h₄.trans h')) fun _ d₅ h₅ => ?_
  replace h₅ := h₄.trans h₅
  refine (looks_ask rfl).does_bind (fun d' h' => hlook d' (h₅.trans h')) fun storedAt d₆ h₆ => ?_
  replace h₆ := h₅.trans h₆
  -- from here on the shared directories may be new
  refine (prepares_prepareHierarchy start _).meets_bind (I := fun l' d' =>
      l' = { registry := g } ∧ Prepared setup r.context start d') ⟨rfl, hd.congr h₆⟩
    (fun _ l' d' h => by obtain ⟨rfl, h'⟩ := h; exact hbefore d' h')
    fun hierarchy l' d₇ h₇ => ?_
  obtain ⟨rfl, h₇⟩ := h₇
  refine (looks_ask rfl).does_bind (fun d' h' => hbefore d' (h₇.congr h')) fun free d₈ h₈ => ?_
  replace h₈ := h₇.congr h₈
  refine looks_refuseIf.does_bind (fun d' h' => hbefore d' (h₈.congr h')) fun _ d₉ h₉ => ?_
  replace h₉ := h₈.congr h₉
  refine looks_objectPaths.does_bind (fun d' h' => hbefore d' (h₉.congr h')) fun _ d' h' => ?_
  replace h' := h₉.congr h'
  rw [does_bind, does_modify, does_bind, does_lexists, does_bind]
  refine does_refuseIf (fun _ => ⟨rfl, rfl, rfl, rfl, rfl, rfl, h'⟩) fun hfree => ?_
  exact ⟨⟨rfl, rfl, rfl, rfl, rfl, rfl, h'⟩, rfl, rfl, rfl, by simpa using hfree⟩

/-- The making of the object's directory. -/
lemma does_mkdir {Q : Unit → Locals → Disk → Prop} (hR : R l d)
    (hok : ∀ t, insert d.tree p (.directory d.nextInode) = some t →
      Q ⟨⟩ l { d with tree := t, nextInode := d.nextInode + 1 }) :
    Does setup (ask (.mkdir p)) Q R l d := by
  refine meets_perform.mpr ⟨trivial, fun x d' hn => ?_⟩
  obtain ⟨a, ha, -⟩ := hn
  cases a with
  | raised f =>
    cases ha
    exact hR
  | lost f =>
    cases ha
    exact hR
  | served =>
    simp only [Machine.answer, machine, exec, makeDirectory, Disk.onNew] at ha
    split at ha
    · cases ha
      exact hok _ (by assumption)
    · cases ha
      exact hR

lemma does_createDirectory {plan : Plan} (h : Before setup r g start l d)
    (hplaced : Placed setup r plan l d) :
    Does setup (createDirectory (setup.directory r.context plan.reference))
      (fun k l' d' => ∃ base, Shared setup r.context start.tree base.tree ∧
        Working g base (setup.directory r.context plan.reference) k l' d')
      (Unpublished setup r g start) l d := by
  obtain ⟨hdirectory, hfinal, hpart, hfree⟩ := hplaced
  rw [createDirectory, does_bind]
  refine does_mkdir (.inl h) fun t ht => ?_
  have hconfined : Confined d (setup.directory r.context plan.reference)
      { d with tree := t, nextInode := d.nextInode + 1 } := by
    have hself : Confined d (setup.directory r.context plan.reference) d :=
      { valid := h.prepared.valid
        outside := not_below_of_closed h.prepared.valid.closed directory_ne_nil hfree
        older := h.prepared.valid.inodes
        own := ⟨[], (List.append_nil _).symm, fun x hx => (List.not_mem_nil hx).elim⟩
        le := Nat.le_refl _ }
    exact hself.insert (List.prefix_refl _) ht (Nat.le_succ _) fun j hj => nomatch hj
  have hfind : find t (setup.directory r.context plan.reference) =
      some (.directory d.nextInode) := by
    refine (find_eq_some hconfined.valid.nodup).mpr ?_
    obtain ⟨rfl, -, -⟩ := insert_eq_some ht
    exact List.mem_append_right _ List.mem_cons_self
  have hmade : Working g d (setup.directory r.context plan.reference) d.nextInode
      { l with directoryIdentity := some d.nextInode }
      { d with tree := t, nextInode := d.nextInode + 1 } :=
    { registry := h.registry
      published := h.published
      result := h.result
      complete := h.complete
      directory := hdirectory
      identity := rfl
      part := fun p hp => nomatch hpart.symm.trans hp
      final := fun p hp => by
        obtain rfl := Option.some.inj (hfinal.symm.trans hp)
        exact List.prefix_append _ _
      confined := hconfined }
  have hraised : ∀ d', Same { d with tree := t, nextInode := d.nextInode + 1 } d' →
      Unpublished setup r g start { l with directoryIdentity := some d.nextInode } d' :=
    fun d' hsame => .inr ⟨d, _, _, directory_ne_nil, h.prepared.shared, hmade.congr hsame⟩
  rw [does_bind]
  have hlook : exec setup (.statMade (setup.directory r.context plan.reference))
      { d with tree := t, nextInode := d.nextInode + 1 } =
        (.ok ⟨.directory, d.nextInode, 1, 0⟩,
          { d with tree := t, nextInode := d.nextInode + 1 }) := by
    simp only [exec, Disk.look, hfind, fileState]
  refine does_onOs (does_served rfl (fun f d' hexec => nomatch hlook.symm.trans hexec)
    fun a d' hexec => ?_)
  obtain ⟨hstate, rfl⟩ := Prod.mk.inj (hlook.symm.trans hexec)
  obtain rfl := Except.ok.inj hstate
  rw [does_bind]
  refine does_refuseIf (fun hkind => absurd rfl hkind) fun _ => ?_
  rw [does_bind, does_modify]
  exact (looks_ask rfl).onOs.does_bind hraised fun _ d₁ h₁ =>
    (looks_ask rfl).does_bind (fun d' h' => hraised d' (h₁.trans h')) fun _ d₂ h₂ =>
      ⟨d, h.prepared.shared, hmade.congr (h₁.trans h₂)⟩

/-! ## Writing and publishing -/

section Working

variable {part : Path} {identity : ℕ}

/-- The code stays inside the object's directory. -/
abbrev Works (setup : Setup) (g : Registry) (base : Disk) (D : Path) (k : ℕ) (x : Code α) : Prop :=
  Keeps (reliable setup) (Working g base D k) x

lemma Looks.works {x : Code α} (hx : Looks setup x) : Works setup g base D k x := fun l d h =>
  (hx l d).mono (fun _ l' _ h' => by obtain ⟨rfl, hsame⟩ := h'; exact h.congr hsame)
    fun l' _ h' => by obtain ⟨rfl, hsame⟩ := h'; exact h.congr hsame

lemma works_ask {i : StorageCall} (hi : i.Within D) : Works setup g base D k (ask i) := by
  intro l d h
  have hafter : Working g base D k l (exec setup i d).2 :=
    { h with confined := h.confined.exec hi }
  refine does_ask (R := Working g base D k) h hafter fun a d' hexec => ?_
  rw [hexec] at hafter
  exact hafter

lemma works_onOs {x : Code α} (hx : Works setup g base D k x) :
    Works setup g base D k (onOs e x) :=
  keeps_tryCatch hx fun _ => keeps_ite keeps_throw keeps_throw

lemma works_copyChunks (hpart : D <+: part) {chunks : List Bytes} {copied : Bytes} :
    Works setup g base D k (copyChunks setup part chunks copied) := by
  induction chunks generalizing copied with
  | nil =>
    exact keeps_bind (looks_ask rfl).works fun _ => keeps_bind (looks_ask rfl).works fun _ =>
      keeps_pure
  | cons chunk chunks ih =>
    refine keeps_bind (looks_ask rfl).works fun _ => keeps_bind (looks_ask rfl).works fun _ =>
      keeps_bind looks_refuseIf.works fun _ => ?_
    refine keeps_ite keeps_pure ?_
    exact keeps_bind looks_refuseIf.works fun _ =>
      keeps_bind (works_onOs (works_ask hpart)) fun _ => ih

lemma works_writePart (hpart : D <+: part) : Works setup g base D k (writePart setup r part) := by
  refine keeps_bind (looks_ask rfl).onOs.works fun _ => keeps_bind (keeps_modify fun l d h => ?_)
    fun _ => keeps_bind (works_ask hpart) fun _ => keeps_bind (keeps_modify fun _ _ h => ?_)
    fun _ => keeps_bind (looks_ask rfl).works fun _ => keeps_bind looks_refuseIf.works
    fun _ => keeps_bind (keeps_modify fun _ _ h => ?_) fun _ =>
    keeps_bind (looks_ask rfl).onOs.works fun _ => keeps_bind ?_ fun _ =>
    keeps_bind looks_refuseIf.works fun _ => keeps_bind (looks_ask rfl).works fun _ =>
    keeps_bind (looks_ask rfl).works fun _ => keeps_bind (keeps_modify fun _ _ h => ?_) fun _ =>
    keeps_bind looks_regularFileState.works fun _ => keeps_bind looks_refuseIf.works fun _ =>
    keeps_pure
  · exact { h with part := fun p hp => by obtain rfl := Option.some.inj hp; exact hpart }
  · exact { h with }
  · exact { h with }
  · refine keeps_tryCatch (keeps_bind (looks_ask rfl).works fun _ =>
      keeps_ensure (works_copyChunks hpart) (looks_ask rfl).works) fun f => ?_
    exact keeps_ite keeps_throw keeps_throw
  · exact { h with }

lemma looks_checkLinked {ps : List Path} : Looks setup (checkLinked identity ps) := by
  induction ps with
  | nil => exact looks_pure
  | cons p ps ih => exact (looks_ask rfl).bind fun _ => looks_refuseIf.bind fun _ => ih

lemma works_publishPart {plan : Plan} (hpart : D <+: part)
    (hfinal : D <+: setup.final r.context plan.reference) :
    Works setup g base D k (publishPart setup r plan part identity) :=
  keeps_bind (looks_ask rfl).works fun _ => keeps_bind (works_ask ⟨hpart, hfinal⟩) fun _ =>
    keeps_bind looks_checkLinked.works fun _ => keeps_bind (looks_ask rfl).works fun _ =>
    keeps_bind (works_ask hpart) fun _ =>
    keeps_bind (keeps_modify fun _ _ h => { h with part := fun _ hp => nomatch hp }) fun _ =>
    keeps_bind looks_regularFileState.works fun _ => keeps_bind looks_refuseIf.works fun _ =>
    keeps_bind (looks_ask rfl).onOs.works fun _ => (looks_ask rfl).works

end Working

/-! ## Objects that are complete -/

variable {evidence : Evidence}

/-- The directory at a path is the one of an identity. -/
def IsDirectory (d : Disk) (p : Path) (identity : ℕ) : Prop :=
  find d.tree p = some (.directory identity)

/-- The object of an evidence is there, whole and valid. -/
structure Intact (setup : Setup) (d : Disk) (evidence : Evidence) : Prop where
  root : IsDirectory d setup.root evidence.rootIdentity
  objects : IsDirectory d setup.objects evidence.objectsIdentity
  tenant : IsDirectory d (setup.tenant evidence.context) evidence.tenantIdentity
  backup : IsDirectory d (setup.backup evidence.context) evidence.backupIdentity
  directory : IsDirectory d (setup.directory evidence.context evidence.result.reference)
    evidence.directoryIdentity
  links : ∀ p ∈ [setup.objects, setup.tenant evidence.context, setup.backup evidence.context,
    setup.directory evidence.context evidence.result.reference,
    setup.final evidence.context evidence.result.reference], d.passesLink p = false
  names : (childNames d.tree (setup.directory evidence.context evidence.result.reference)).dedup =
    [storedObjectFileName]
  file : ∃ i bytes, evidence.fileIdentity = some i ∧
    find d.tree (setup.final evidence.context evidence.result.reference) = some (.file i bytes) ∧
    FileTree.links d.tree i = 1 ∧ bytes.length = evidence.result.byteCount ∧
    bytes.length = evidence.source.encryptedByteCount ∧
    setup.sha256 bytes = evidence.result.sha256 ∧
    setup.sha256 bytes = evidence.source.ciphertextSha256 ∧
    bytes.length ≤ setup.maximumObjectBytes ∧
    setup.validStream evidence.context evidence.source bytes = true

lemma Intact.congr {d' : Disk} (h : Intact setup d evidence) (htree : d'.tree = d.tree) :
    Intact setup d' evidence := by
  obtain ⟨tree, _, _, _⟩ := d'
  obtain rfl : tree = d.tree := htree
  exact ⟨h.root, h.objects, h.tenant, h.backup, h.directory, h.links, h.names, h.file⟩

/-- What a call that only looks answers. -/
lemma does_look {i : StorageCall} (hi : i.quiet = true) {Q : i.Result → Locals → Disk → Prop}
    (hR : ∀ d', Same d d' → R l d')
    (hok : ∀ a d', exec setup i d = (.ok a, d') → Same d d' → Q a l d') :
    Does setup (ask i) Q R l d := by
  have hsame : Same d (exec setup i d).2 := exec_quiet hi d
  refine does_ask (hR d (Same.refl d)) (hR _ hsame) fun a d' hexec => hok a d' hexec ?_
  rw [hexec] at hsame
  exact hsame

lemma does_contained {Q : Unit → Locals → Disk → Prop} (hR : ∀ d', Same d d' → R l d')
    (hok : d.passesLink p = false → Q ⟨⟩ l d) : Does setup (ask (.contained p)) Q R l d := by
  refine does_look rfl hR fun a d' hexec _ => ?_
  simp only [exec] at hexec
  split at hexec
  · exact nomatch (Prod.mk.inj hexec).1
  · rename_i hlink
    obtain ⟨-, rfl⟩ := Prod.mk.inj hexec
    exact hok (by simpa using hlink)

lemma does_directoryState {Q : FileState → Locals → Disk → Prop} (hR : ∀ d', Same d d' → R l d')
    (hok : ∀ i, IsDirectory d p i → Q ⟨.directory, i, 1, 0⟩ l d) :
    Does setup (directoryState p e) Q R l d := by
  rw [directoryState, does_bind]
  refine does_onOs (does_look rfl hR fun a d' hexec hsame => ?_)
  simp only [exec, Disk.look] at hexec
  split at hexec
  · rename_i n hn
    obtain ⟨ha, rfl⟩ := Prod.mk.inj hexec
    obtain rfl := Except.ok.inj ha
    rw [does_bind]
    refine does_refuseIf (fun _ => hR _ hsame) fun hkind => ?_
    cases n with
    | directory i => exact hok i hn
    | file i bytes => exact absurd (fun h => nomatch h) hkind
    | other => exact absurd (fun h => nomatch h) hkind
  · exact nomatch (Prod.mk.inj hexec).1

lemma does_regularFileState {Q : FileState → Locals → Disk → Prop}
    (hR : ∀ d', Same d d' → R l d')
    (hok : ∀ i bytes, find d.tree p = some (.file i bytes) → FileTree.links d.tree i = 1 →
      Q ⟨.regular, i, 1, bytes.length⟩ l d) :
    Does setup (regularFileState p e) Q R l d := by
  rw [regularFileState, does_bind]
  refine does_onOs (does_look rfl hR fun a d' hexec hsame => ?_)
  simp only [exec, Disk.look] at hexec
  split at hexec
  · rename_i n hn
    obtain ⟨ha, rfl⟩ := Prod.mk.inj hexec
    obtain rfl := Except.ok.inj ha
    rw [does_bind]
    refine does_refuseIf (fun _ => hR _ hsame) fun hkind => ?_
    cases n with
    | file i bytes =>
      have hlinks : FileTree.links d.tree i = 1 := by simpa [fileState] using hkind
      rw [does_pure, fileState, hlinks]
      exact hok i bytes hn hlinks
    | directory i => exact absurd (.inl fun h => nomatch h) hkind
    | other => exact absurd (.inl fun h => nomatch h) hkind
  · exact nomatch (Prod.mk.inj hexec).1

lemma does_readFile {Q : FileState × Bytes → Locals → Disk → Prop}
    (hR : ∀ d', Same d d' → R l d')
    (hok : ∀ i bytes, find d.tree p = some (.file i bytes) →
      Q (⟨.regular, i, FileTree.links d.tree i, bytes.length⟩, bytes) l d) :
    Does setup (ask (.readFile p)) Q R l d := by
  refine does_look rfl hR fun a d' hexec _ => ?_
  simp only [exec] at hexec
  split at hexec
  · rename_i i bytes hfind
    obtain ⟨ha, rfl⟩ := Prod.mk.inj hexec
    obtain rfl := Except.ok.inj ha
    exact hok i bytes hfind
  · exact nomatch (Prod.mk.inj hexec).1

/-- A call whose answer is known and that leaves the disk as it is. -/
lemma does_still {i : StorageCall} {a : i.Result} {Q : i.Result → Locals → Disk → Prop}
    (hexec : exec setup i d = (.ok a, d)) (hR : R l d) (hok : Q a l d) :
    Does setup (ask i) Q R l d := by
  refine does_ask hR (by rw [hexec]; exact hR) fun a' d' hexec' => ?_
  obtain ⟨ha, rfl⟩ := Prod.mk.inj (hexec.symm.trans hexec')
  obtain rfl := Except.ok.inj ha
  exact hok

lemma does_objectPaths {Q : Unit → Locals → Disk → Prop} (hR : ∀ d', Same d d' → R l d')
    (hok : (∀ p ∈ [setup.objects, setup.tenant c, setup.backup c, setup.directory c reference,
      setup.final c reference], d.passesLink p = false) → Q ⟨⟩ l d) :
    Does setup (objectPaths setup c reference e) Q R l d := by
  refine does_onOs ?_
  rw [does_bind]
  refine does_contained hR fun h₁ => ?_
  rw [does_bind]
  refine does_contained hR fun h₂ => ?_
  rw [does_bind]
  refine does_contained hR fun h₃ => ?_
  rw [does_bind]
  refine does_contained hR fun h₄ => does_contained hR fun h₅ => hok ?_
  simp only [List.forall_mem_cons]
  exact ⟨h₁, h₂, h₃, h₄, h₅, fun _ hp => (List.not_mem_nil hp).elim⟩

lemma does_hashPath {Q : ℕ × String → Locals → Disk → Prop} {expectedIdentity : ℕ}
    (hR : ∀ d', Same d d' → R l d')
    (hok : ∀ bytes, find d.tree p = some (.file expectedIdentity bytes) →
      bytes.length ≤ setup.maximumObjectBytes → Q (bytes.length, setup.sha256 bytes) l d) :
    Does setup (hashPath setup p expectedIdentity e) Q R l d := by
  have hstay := hR d (Same.refl d)
  refine does_onOs ?_
  rw [does_bind]
  refine does_readFile hR fun i bytes hfind => ?_
  rw [does_bind]
  refine does_refuseIf (fun _ => hstay) fun hopened => ?_
  simp only [not_or, not_not] at hopened
  rw [hopened.1] at hfind
  rw [does_bind]
  refine does_still rfl hstay ?_
  rw [does_bind]
  exact does_refuseIf (fun _ => hstay) fun hlength => hok bytes hfind (Nat.not_lt.mp hlength)

/-- A validation that succeeds has seen the object. -/
lemma does_validatePath (hR : ∀ d', Same d d' → R l d') :
    Does setup (validatePath setup evidence e)
      (fun _ l' d' => l' = l ∧ d' = d ∧ Intact setup d evidence) R l d := by
  have hstay := hR d (Same.refl d)
  rw [validatePath, does_bind]
  refine does_objectPaths hR fun hlinks => ?_
  rw [does_bind]
  refine does_directoryState hR fun i₁ h₁ => ?_
  rw [does_bind]
  refine does_directoryState hR fun i₂ h₂ => ?_
  rw [does_bind]
  refine does_directoryState hR fun i₃ h₃ => ?_
  rw [does_bind]
  refine does_directoryState hR fun i₄ h₄ => ?_
  rw [does_bind]
  refine does_directoryState hR fun i₅ h₅ => ?_
  rw [does_bind]
  refine does_refuseIf (fun _ => hstay) fun hidentities => ?_
  simp only [not_or, not_not] at hidentities
  obtain ⟨rfl, rfl, rfl, rfl, rfl, hfile⟩ := hidentities
  rw [does_bind]
  refine does_onOs ?_
  rw [does_bind]
  refine does_still rfl hstay ?_
  rw [does_bind]
  refine does_still rfl hstay ?_
  rw [does_bind]
  refine does_still rfl hstay ?_
  rw [does_bind]
  refine does_still rfl hstay (does_still rfl hstay ?_)
  rw [does_bind]
  refine does_still rfl hstay ?_
  rw [does_bind]
  refine does_refuseIf (fun _ => hstay) fun hnames => ?_
  rw [does_bind]
  refine does_regularFileState hR fun i bytes hfind honce => ?_
  rw [does_bind]
  refine does_refuseIf (fun _ => hstay) fun hcurrent => ?_
  rw [does_bind]
  refine does_onOs (does_still rfl hstay ?_)
  rw [does_bind]
  refine does_hashPath hR fun bytes' hfind' hlength => ?_
  obtain rfl : bytes = bytes' := (Node.file.inj (Option.some.inj (hfind.symm.trans hfind'))).2
  rw [does_bind]
  refine does_refuseIf (fun _ => hstay) fun hdigest => ?_
  simp only [not_or, not_not, ne_eq] at hnames hcurrent hdigest
  obtain ⟨hcount, hsha, hcount', hsha'⟩ := hdigest
  refine does_tryCatch ?_
  have hcaught : ∀ d', Same d d' → ∀ f : Fault, Does setup
      (if f = .os ∨ f = .artifact then (fail e : Code Unit) else throw f)
      (fun _ l' d' => l' = l ∧ d' = d ∧ Intact setup d evidence) R l d' := by
    intro d' hsame f
    split
    · exact hR d' hsame
    · exact hR d' hsame
  rw [does_bind]
  refine does_readFile hcaught fun i' bytes' hfind'' => ?_
  obtain rfl : bytes = bytes' := (Node.file.inj (Option.some.inj (hfind.symm.trans hfind''))).2
  rw [does_bind]
  refine does_refuseIf (fun _ => hcaught d (Same.refl d)) fun _ => ?_
  rw [does_bind]
  refine does_look rfl hcaught fun a d' hexec _ => ?_
  simp only [exec] at hexec
  split at hexec
  · rename_i hvalid
    obtain ⟨-, rfl⟩ := Prod.mk.inj hexec
    exact does_still rfl (hcaught d (Same.refl d))
      ⟨rfl, rfl, h₁, h₂, h₃, h₄, h₅, hlinks, hnames, i, bytes, hcurrent.1, hfind, honce, hcount,
        hcount', hsha, hsha', hlength, hvalid⟩
  · exact nomatch (Prod.mk.inj hexec).1

/-! ## The body of a call -/

/-- The provider has stored the object of an evidence. -/
structure Stored (setup : Setup) (g : Registry) (d : Disk) (evidence : Evidence) : Prop where
  stored : g.stored (stateKey evidence.context evidence.result.reference) = some evidence
  deleted : g.deleted (stateKey evidence.context evidence.result.reference) = none
  bySource : g.bySource (sourceKey evidence.context evidence.source) =
    some (stateKey evidence.context evidence.result.reference)
  intact : Intact setup d evidence
  valid : d.Valid

/-- The object of the request has been stored. -/
def Published (setup : Setup) (r : Request) (l : Locals) (d : Disk) : Prop :=
  ∃ evidence, l.publishedEvidence = some evidence ∧ l.result = some evidence.result ∧
    evidence.context = r.context ∧ evidence.source = r.encryptedArtifact ∧
    Stored setup l.registry d evidence

/-- However the body of a call ends. -/
def Ended (setup : Setup) (r : Request) (g : Registry) (start : Disk) (l : Locals) (d : Disk) :
    Prop :=
  Unpublished setup r g start l d ∨ Published setup r l d

lemma Stored.congr {d' : Disk} (h : Stored setup g d evidence) (hsame : Same d d') :
    Stored setup g d' evidence :=
  { h with intact := h.intact.congr hsame.1, valid := h.valid.congr hsame }

lemma Published.congr {d' : Disk} (h : Published setup r l d) (hsame : Same d d') :
    Published setup r l d' := by
  obtain ⟨evidence, hpublished, hresult, hcontext, hsource, hstored⟩ := h
  exact ⟨evidence, hpublished, hresult, hcontext, hsource, hstored.congr hsame⟩

lemma does_register (h : Intact setup d evidence) (hvalid : d.Valid)
    (hcontext : evidence.context = r.context) (hsource : evidence.source = r.encryptedArtifact)
    (hR : R l d) :
    Does setup (register evidence)
      (fun _ l' d' => l'.publishedEvidence = some evidence ∧ Published setup r l' d') R l d := by
  rw [register, does_bind, does_get, does_bind]
  refine does_refuseIf (fun _ => hR) fun hfree => ?_
  simp only [not_or, Bool.not_eq_true, Option.isSome_eq_false_iff, Option.isNone_iff_eq_none]
    at hfree
  refine ⟨rfl, evidence, rfl, rfl, hcontext, hsource, ?_, hfree.2.1, ?_, h, hvalid⟩
  · exact Function.update_self ..
  · exact Function.update_self ..

lemma Intact.completed (h : Intact setup d evidence) : Intact setup d evidence.completed :=
  ⟨h.root, h.objects, h.tenant, h.backup, h.directory, h.links, h.names, h.file⟩

/-- The clean-up of the staged artifact, and what is made of its failure. -/
lemma looks_cleanupArtifact {reference : ℕ} : Looks setup (tryCatch
    (do
      ask (.cleanupArtifact reference)
      pure true)
    fun f => if f = .artifactCleanup then pure false else throw f) :=
  ((looks_ask rfl).bind fun _ => looks_pure).tryCatch fun f => by
    split
    · exact looks_pure
    · exact fun _ d => ⟨rfl, Same.refl d⟩

lemma does_cleanStaging (hevidence : l.publishedEvidence = some evidence)
    (h : Published setup r l d) :
    Does setup (cleanStaging evidence) (fun _ l' d' => Published setup r l' d')
      (Published setup r) l d := by
  rw [cleanStaging]
  refine (looks_ask rfl).does_bind (fun d' => h.congr) fun _ d₁ h₁ => ?_
  refine looks_cleanupArtifact.does_bind (fun d' h' => h.congr (h₁.trans h'))
    fun cleaned d₂ h₂ => ?_
  replace h := h.congr (h₁.trans h₂)
  split
  · rw [does_bind, does_get, does_bind]
    refine does_refuseIf (fun _ => h) fun _ => ?_
    obtain ⟨evidence', hpublished, hresult, hcontext, hsource, hstored⟩ := h
    obtain rfl := Option.some.inj (hevidence.symm.trans hpublished)
    exact ⟨evidence.completed, rfl, rfl, hcontext, hsource, Function.update_self ..,
      hstored.deleted, hstored.bySource, hstored.intact.completed, hstored.valid⟩
  · exact h

lemma does_storeBody (hd : start.Valid) :
    Does setup (storeBody setup r) (fun _ l' d' => Published setup r l' d')
      (Ended setup r g start) { registry := g } start := by
  rw [storeBody, does_bind]
  have hadmit : Does setup (admitArtifact setup r)
      (fun plan l' d' => Before setup r g start l' d' ∧ Placed setup r plan l' d')
      (Before setup r g start) { registry := g } start :=
    does_admitArtifact ⟨hd, Shared.refl start.tree⟩
  refine hadmit.mono (fun plan l₁ d₁ h₁ => ?_) fun l' d' h' => .inl (.inl h')
  obtain ⟨hbefore, hplaced⟩ := h₁
  rw [does_bind]
  refine (does_createDirectory hbefore hplaced).mono (fun directoryIdentity l₂ d₂ h₂ => ?_)
    fun l' d' h' => .inl h'
  obtain ⟨base, hshared, hworking⟩ := h₂
  have hraised : ∀ l' d', Working g base (setup.directory r.context plan.reference)
      directoryIdentity l' d' → Ended setup r g start l' d' := fun l' d' h' =>
    .inl (.inr ⟨base, _, directoryIdentity, directory_ne_nil, hshared, h'⟩)
  refine Keeps.meets_bind (looks_ask rfl).works hworking (fun _ => hraised) fun name l₃ d₃ h₃ => ?_
  refine Keeps.meets_bind (works_writePart (List.prefix_append _ _)) h₃ (fun _ => hraised)
    fun identity l₄ d₄ h₄ => ?_
  refine Keeps.meets_bind (works_publishPart (List.prefix_append _ _) (List.prefix_append _ _)) h₄
    (fun _ => hraised) fun _ l₅ d₅ h₅ => ?_
  refine does_bind.mpr ((does_validatePath fun d' hsame => hraised l₅ d' (h₅.congr hsame)).mono
    (fun _ l₆ d₆ h₆ => ?_) fun _ _ h' => h')
  obtain ⟨rfl, rfl, hintact⟩ := h₆
  rw [does_bind]
  refine (does_register hintact h₅.confined.valid rfl rfl (hraised _ _ h₅)).mono
    (fun _ l₇ d₇ h₇ => ?_) fun _ _ h' => h'
  exact (does_cleanStaging h₇.1 h₇.2).mono (fun _ _ _ h' => h') fun _ _ h' => .inr h'

/-! ## Cleaning up -/

/-- What the clean-up keeps: the registry, that there is no result, and that the disk is confined
to what the call has made. -/
structure Cleaning (g : Registry) (base : Disk) (D : Path) (l : Locals) (d : Disk) : Prop where
  registry : l.registry = g
  result : l.result = none
  confined : Confined base D d

lemma does_orIncomplete {x : Code Unit} {Q : Unit → Locals → Disk → Prop}
    (h : Does setup x Q (fun l d => Q ⟨⟩ { l with cleanupIncomplete := true } d) l d) :
    Does setup (orIncomplete x) Q R l d :=
  does_tryCatch (h.mono (fun _ _ _ hQ => hQ) fun _ _ hQ _ => hQ)

lemma Cleaning.congr {d' : Disk} (h : Cleaning g base D l d) (hsame : Same d d') :
    Cleaning g base D l d' :=
  { h with confined := h.confined.congr hsame }

lemma Cleaning.incomplete (h : Cleaning g base D l d) :
    Cleaning g base D { l with cleanupIncomplete := true } d := { h with }

lemma Looks.cleaning {x : Code α} (hx : Looks setup x) :
    Keeps (reliable setup) (Cleaning g base D) x := fun l d h =>
  (hx l d).mono (fun _ l' _ h' => by obtain ⟨rfl, hsame⟩ := h'; exact h.congr hsame)
    fun l' _ h' => by obtain ⟨rfl, hsame⟩ := h'; exact h.congr hsame

lemma cleaning_ask {i : StorageCall} (hi : i.Within D) :
    Keeps (reliable setup) (Cleaning g base D) (ask i) := by
  intro l d h
  have hafter : Cleaning g base D l (exec setup i d).2 :=
    { h with confined := h.confined.exec hi }
  refine does_ask (R := Cleaning g base D) h hafter fun a d' hexec => ?_
  rw [hexec] at hafter
  exact hafter

lemma looks_ownedPaths {ps : List (Option Path)} : Looks setup (ownedPaths ps) := by
  induction ps with
  | nil => exact looks_pure
  | cons p ps ih =>
    cases p with
    | none => exact ih
    | some p => exact looks_lexists.bind fun _ => ih.bind fun _ => looks_pure

/-- The paths that are there are some of those asked for. -/
lemma does_ownedPaths {ps : List (Option Path)} :
    Does setup (ownedPaths ps) (fun owned l' d' => (l' = l ∧ Same d d') ∧ ∀ q ∈ owned, some q ∈ ps)
      (fun l' d' => l' = l ∧ Same d d') l d := by
  induction ps generalizing l d with
  | nil => exact ⟨⟨rfl, Same.refl d⟩, fun _ hq => (List.not_mem_nil hq).elim⟩
  | cons p ps ih =>
    cases p with
    | none => exact (ih (l := l) (d := d)).mono (fun _ _ _ h =>
        ⟨h.1, fun q hq => List.mem_cons_of_mem _ (h.2 q hq)⟩) fun _ _ h => h
    | some p =>
      rw [ownedPaths, does_bind, does_lexists, does_bind]
      refine (ih (l := l) (d := d)).mono (fun owned l' d' h => ⟨h.1, fun q hq => ?_⟩)
        fun _ _ h => h
      split at hq
      · rcases List.mem_cons.mp hq with rfl | hq
        · exact List.mem_cons_self
        · exact List.mem_cons_of_mem _ (h.2 q hq)
      · exact List.mem_cons_of_mem _ (h.2 q hq)

lemma cleaning_removeOwned {expectedIdentity : ℕ} {ps : List Path} (hps : ∀ q ∈ ps, D <+: q) :
    Keeps (reliable setup) (Cleaning g base D) (removeOwned expectedIdentity ps) := by
  induction ps with
  | nil => exact keeps_pure
  | cons q ps ih =>
    exact keeps_bind (looks_ask rfl).onOs.cleaning fun _ => keeps_bind looks_refuseIf.cleaning
      fun _ => keeps_bind (cleaning_ask (hps q List.mem_cons_self)) fun _ =>
      keeps_bind looks_lexists.cleaning fun _ => keeps_bind looks_refuseIf.cleaning fun _ =>
      ih fun q' hq' => hps q' (List.mem_cons_of_mem q hq')

lemma cleaning_cleanFiles {l₀ : Locals} (hpart : ∀ p, l₀.partPath = some p → D <+: p)
    (hfinal : ∀ p, l₀.finalPath = some p → D <+: p) :
    Keeps (reliable setup) (Cleaning g base D) (cleanFiles l₀) := by
  rw [cleanFiles]
  cases l₀.fileIdentity with
  | none => exact keeps_bind looks_ownedPaths.cleaning fun _ => looks_refuseIf.cleaning
  | some identity =>
    intro l d h
    show Does setup (cleanupOwnedFiles _ identity) _ _ l d
    rw [cleanupOwnedFiles, does_bind]
    refine does_ownedPaths.mono (fun owned l' d' h' => ?_) fun l' d' h' => ?_
    · obtain ⟨⟨rfl, hsame⟩, howned⟩ := h'
      refine cleaning_removeOwned (fun q hq => ?_) l' d' (h.congr hsame)
      have hq' := howned q hq
      simp only [List.mem_cons, List.not_mem_nil, or_false] at hq'
      exact hq'.elim (fun h => hpart q h.symm) fun h => hfinal q h.symm
    · obtain ⟨rfl, hsame⟩ := h'
      exact h.congr hsame

/-- After the clean-up of the directory, it is gone or said to be left. -/
lemma does_cleanDirectory {l₀ : Locals} (hD : l₀.directory = some D)
    (hk : l₀.directoryIdentity = some k) (h : Cleaning g base D l d) :
    Does setup (cleanDirectory l₀)
      (fun _ l' d' => Cleaning g base D l' d' ∧ (l'.cleanupIncomplete = true ∨ D ∉ paths d'.tree))
      (Cleaning g base D) l d := by
  rw [cleanDirectory, hD, hk]
  dsimp only
  rw [does_bind, removeEmptyDirectory, does_bind, does_lexists]
  have hcheck : ∀ l d, Cleaning g base D l d → Does setup
      (do
        let there ← lexists D
        if there then modify fun l => { l with cleanupIncomplete := true } else pure ())
      (fun _ l' d' => Cleaning g base D l' d' ∧ (l'.cleanupIncomplete = true ∨ D ∉ paths d'.tree))
      (Cleaning g base D) l d := by
    intro l d h
    rw [does_bind, does_lexists]
    split
    · exact ⟨h.incomplete, .inl rfl⟩
    · rename_i hgone
      exact ⟨h, .inr (by simpa using hgone)⟩
  split
  · refine Keeps.meets_bind looks_directoryState.cleaning h (fun _ _ _ h' => h')
      fun state l₁ d₁ h₁ => ?_
    refine Keeps.meets_bind looks_refuseIf.cleaning h₁ (fun _ _ _ h' => h') fun _ l₂ d₂ h₂ => ?_
    refine Keeps.meets_bind (looks_ask rfl).cleaning h₂ (fun _ _ _ h' => h')
      fun names l₃ d₃ h₃ => ?_
    split
    · exact hcheck l₃ d₃ h₃
    · refine Keeps.meets_bind (cleaning_ask (List.prefix_refl D)) h₃ (fun _ _ _ h' => h')
        fun _ l₄ d₄ h₄ => ?_
      refine does_bind.mpr (does_lexists.mpr ?_)
      rw [does_bind]
      exact does_refuseIf (fun _ => h₄) fun hgone => ⟨h₄, .inr (by simpa using hgone)⟩
  · exact hcheck l d h

/-- What is left when nothing was published. -/
def Cleaned (setup : Setup) (r : Request) (g : Registry) (start : Disk) (l : Locals) (d : Disk) :
    Prop :=
  l.registry = g ∧ l.result = none ∧
    (l.cleanupIncomplete = true ∨ Shared setup r.context start.tree d.tree)

/-- Nothing is cleaned up before the object's directory is known. -/
lemma does_cleanUp_before (h : Before setup r g start l d) :
    Does setup cleanUp (fun _ l' d' => Cleaned setup r g start l' d') (fun _ _ => False) l d := by
  let I : Locals → Disk → Prop := fun l' d' => l'.registry = g ∧ l'.result = none ∧
    Prepared setup r.context start d'
  have hlooks : ∀ {x : Code Unit}, Looks setup x → ∀ {l' d'}, I l' d' →
      Does setup (orIncomplete x) (fun _ => I) (fun _ _ => False) l' d' := by
    intro x hx l' d' hI
    refine does_orIncomplete ((hx l' d').mono (fun _ _ _ h' => ?_) fun _ _ h' => ?_)
    · obtain ⟨rfl, hsame⟩ := h'
      exact ⟨hI.1, hI.2.1, hI.2.2.congr hsame⟩
    · obtain ⟨rfl, hsame⟩ := h'
      exact ⟨hI.1, hI.2.1, hI.2.2.congr hsame⟩
  have hfiles : Looks setup (cleanFiles l) := by
    rw [cleanFiles, h.file]
    exact looks_ownedPaths.bind fun _ => looks_refuseIf
  have hdirectory : Looks setup (cleanDirectory l) := by
    rw [cleanDirectory, h.directory]
    cases l.directory <;> exact looks_pure
  rw [cleanUp, does_bind, does_get, h.published]
  simp only [Option.isSome_none, Bool.false_eq_true, if_false]
  rw [does_bind]
  have hclose : Does setup (closeDescriptor l) (fun _ => I) (fun _ _ => False) l d := by
    rw [closeDescriptor]
    split
    · exact hlooks (looks_ask rfl) ⟨h.registry, h.result, h.prepared⟩
    · exact ⟨h.registry, h.result, h.prepared⟩
  refine hclose.mono (fun _ l₁ d₁ h₁ => ?_) fun _ _ h' => h'
  rw [does_bind]
  refine (hlooks hfiles h₁).mono (fun _ l₂ d₂ h₂ => ?_) fun _ _ h' => h'
  exact (hlooks hdirectory h₂).mono (fun _ l₃ d₃ h₃ => ⟨h₃.1, h₃.2.1, .inr h₃.2.2.shared⟩)
    fun _ _ h' => h'

lemma does_cleanUp_working (hne : D ≠ []) (hshared : Shared setup r.context start.tree base.tree)
    (h : Working g base D k l d) :
    Does setup cleanUp (fun _ l' d' => Cleaned setup r g start l' d') (fun _ _ => False) l d := by
  have hkeeps : ∀ {x : Code Unit}, Keeps (reliable setup) (Cleaning g base D) x → ∀ {l' d'},
      Cleaning g base D l' d' →
      Does setup (orIncomplete x) (fun _ => Cleaning g base D) (fun _ _ => False) l' d' :=
    fun hx _ _ hI => does_orIncomplete ((hx _ _ hI).mono (fun _ _ _ h' => h')
      fun _ _ _ h' => h'.incomplete)
  have hstart : Cleaning g base D l d := ⟨h.registry, h.result, h.confined⟩
  rw [cleanUp, does_bind, does_get, h.published]
  simp only [Option.isSome_none, Bool.false_eq_true, if_false]
  rw [does_bind]
  have hclose : Does setup (closeDescriptor l) (fun _ => Cleaning g base D) (fun _ _ => False) l
      d := by
    rw [closeDescriptor]
    split
    · exact hkeeps (looks_ask rfl).cleaning hstart
    · exact hstart
  refine hclose.mono (fun _ l₁ d₁ h₁ => ?_) fun _ _ h' => h'
  rw [does_bind]
  refine (hkeeps (cleaning_cleanFiles h.part h.final) h₁).mono (fun _ l₂ d₂ h₂ => ?_)
    fun _ _ h' => h'
  refine does_orIncomplete ((does_cleanDirectory h.directory h.identity h₂).mono
    (fun _ l₃ d₃ h₃ => ?_) fun l₃ d₃ h₃ => ?_)
  · obtain ⟨hcleaning, hend⟩ := h₃
    refine ⟨hcleaning.registry, hcleaning.result, hend.imp_right fun hgone => ?_⟩
    rw [hcleaning.confined.tree_eq hne hgone]
    exact hshared
  · exact ⟨h₃.registry, h₃.result, .inl rfl⟩

lemma does_cleanUp (h : Unpublished setup r g start l d) :
    Does setup cleanUp (fun _ l' d' => Cleaned setup r g start l' d') (fun _ _ => False) l d := by
  rcases h with h | ⟨base, D, k, hne, hshared, h⟩
  · exact does_cleanUp_before h
  · exact does_cleanUp_working hne hshared h

/-- After a publication there is nothing to clean up. -/
lemma does_cleanUp_published (h : Published setup r l d) :
    Does setup cleanUp (fun _ l' d' => Published setup r l' d') (fun _ _ => False) l d := by
  obtain ⟨evidence, hpublished, hrest⟩ := h
  rw [cleanUp, does_bind, does_get, hpublished]
  exact ⟨evidence, hpublished, hrest⟩

/-! ## A call of the store -/

/-- What a call that failed may leave. -/
def Fails (setup : Setup) (r : Request) (g : Registry) (start : Disk) (incomplete : Bool)
    (l : Locals) (d : Disk) : Prop :=
  (l.registry = g ∧ (Shared setup r.context start.tree d.tree ∨ incomplete = true)) ∨
    Published setup r l d

/-- A new object that is returned has been stored. -/
def Succeeds (setup : Setup) (r : Request) (g : Registry) (result : StoredResult) (l : Locals)
    (d : Disk) : Prop :=
  existingEvidence g r = none → ∃ evidence, evidence.result = result ∧
    evidence.context = r.context ∧ evidence.source = r.encryptedArtifact ∧
    Stored setup l.registry d evidence

lemma does_storeEncryptedArtifact (hd : start.Valid) :
    Does setup (storeEncryptedArtifact setup r)
      (fun a l' d' => match a with
        | .returned result => Succeeds setup r g result l' d'
        | .raised _ incomplete => Fails setup r g start incomplete l' d')
      (fun _ _ => False) { registry := g } start := by
  rw [storeEncryptedArtifact, does_bind, does_get]
  dsimp only
  cases hexisting : existingEvidence g r with
  | some existing =>
    have hlooks : Looks setup (do
        refuseIf (existing.context ≠ r.context ∨ existing.source ≠ r.encryptedArtifact)
          .coordination
        validatePath setup existing .validation
        pure (Answer.returned existing.result)) :=
      looks_refuseIf.bind fun _ => looks_validatePath.bind fun _ => looks_pure
    refine does_tryCatch ?_
    rw [does_bind]
    have hfails : ∀ l' d', l' = { registry := g } ∧ Same start d' → ∀ f : Fault,
        Does setup (pure (Answer.raised f false) : Code Answer)
          (fun a l' d' => match a with
            | .returned result => Succeeds setup r g result l' d'
            | .raised _ incomplete => Fails setup r g start incomplete l' d')
          (fun _ _ => False) l' d' := by
      rintro l' d' ⟨rfl, hsame⟩ f
      refine .inl ⟨rfl, .inl ?_⟩
      rw [hsame.1]
      exact Shared.refl start.tree
    refine does_refuseIf (fun _ => hfails _ _ ⟨rfl, Same.refl start⟩) fun _ => ?_
    exact looks_validatePath.does_bind (fun d' hsame => hfails _ d' ⟨rfl, hsame⟩)
      fun _ _ _ hnone => nomatch hnone.symm.trans hexisting
  | none =>
    have hbody : Does setup
        (tryCatch
          (do
            storeBody setup r
            pure none)
          fun f => pure (some f))
        (fun raised l' d' => Ended setup r g start l' d' ∧
          (raised = none → Published setup r l' d'))
        (fun _ _ => False) { registry := g } start := by
      refine does_tryCatch (does_bind.mpr ?_)
      exact (does_storeBody hd).mono (fun _ _ _ h => ⟨.inr h, fun _ => h⟩)
        fun _ _ h f => ⟨h, fun hnone => nomatch hnone⟩
    rw [does_bind]
    refine hbody.mono (fun raised l₁ d₁ h₁ => ?_) fun _ _ h => h
    obtain ⟨hended, hdone⟩ := h₁
    rw [does_bind]
    rcases hended with hunpublished | hpublished
    · refine (does_cleanUp hunpublished).mono (fun _ l₂ d₂ h₂ => ?_) fun _ _ h => h
      obtain ⟨hregistry, hresult, hleft⟩ := h₂
      rw [does_bind, does_get, hresult]
      cases raised with
      | none => exact .inl ⟨hregistry, hleft.symm⟩
      | some f => exact .inl ⟨hregistry, hleft.symm⟩
    · refine (does_cleanUp_published hpublished).mono (fun _ l₂ d₂ h₂ => ?_) fun _ _ h => h
      rw [does_bind, does_get]
      cases raised with
      | some f => exact .inr h₂
      | none =>
        obtain ⟨evidence, -, hresult, hcontext, hsource, hstored⟩ := h₂
        rw [hresult]
        exact fun _ => ⟨evidence, rfl, hcontext, hsource, hstored⟩

end NexaPos.Backups.DurableStorage
