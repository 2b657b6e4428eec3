import NexaPos.Backups.MediaRestore
import Mathlib.Data.List.Induction

/-!
# Publication of media and its undoing

While media are published, the tree is the one before with entries added, and each of them is one
that the evidence records, the temporary file, or a directory that has been made and not yet
looked at.  A rollback removes exactly what is recorded, so it restores the tree when nothing else
was left.
-/

namespace NexaPos.Backups.MediaRestore

open FileTree Routine

/-! ## What is recorded -/

/-- The tree `t` has grown from `before`, and what was added is recorded in the targets `ts` or the
directories `ds`, but for the loose paths. -/
structure Ledger (before : Tree) (ts ds : List (Path × ℕ)) (t : Tree) (nextInode nextName : ℕ)
    (loose : List Path) : Prop where
  grown : before <+: t
  accounted : ∀ x ∈ t, x ∈ before ∨ (∃ i, (x.1, i) ∈ ds) ∨ (∃ i, (x.1, i) ∈ ts) ∨ x.1 ∈ loose
  nodup : (paths t).Nodup
  closed : ∀ x ∈ t, x.1 = [] ∨ ∃ i, (x.1.dropLast, .directory i) ∈ t
  directories : ∀ x ∈ ds, (x.1, .directory x.2) ∈ t ∧ x.1 ∉ paths before
  targets : ∀ x ∈ ts, (∃ bytes, (x.1, .file x.2 bytes) ∈ t) ∧ x.1 ∉ paths before ∧
    ∀ y ∈ t, y.2.isFile x.2 = true → y.1 = x.1 ∨ y.1 ∈ loose
  unrecorded : ∀ p ∈ loose, p ∈ paths t ∧ p ∉ paths before ∧ (∀ x ∈ ds, x.1 ≠ p) ∧
    ∀ x ∈ ts, x.1 ≠ p
  inodes : ∀ x ∈ t, ∀ i, x.2.hasInode i = true → i < nextInode
  names : ∀ p n, p ++ [.temporary n] ∈ paths t → n < nextName
  ordered : ds.Pairwise fun a b => a.1.dropLast ≠ b.1
  onceDirectories : (ds.map (·.1)).Nodup
  onceTargets : (ts.map (·.1)).Nodup

/-- The ledger of an evidence. -/
abbrev Books (before : Tree) (l : Locals) (d : Disk) (loose : List Path) : Prop :=
  Ledger before l.createdTargets l.createdDirectories d.tree d.nextInode d.nextName loose

/-- A tree that nobody is publishing to. -/
structure Disk.Valid (d : Disk) : Prop where
  nodup : (paths d.tree).Nodup
  closed : ∀ x ∈ d.tree, x.1 = [] ∨ ∃ i, (x.1.dropLast, .directory i) ∈ d.tree
  root : ∃ i, ([], .directory i) ∈ d.tree
  inodes : ∀ x ∈ d.tree, ∀ i, x.2.hasInode i = true → i < d.nextInode
  names : ∀ p n, p ++ [.temporary n] ∈ paths d.tree → n < d.nextName

variable {before t u : Tree} {ts ds : List (Path × ℕ)} {inode name : ℕ} {loose : List Path}
  {p part target : Path} {k : ℕ} {bytes chunk : Bytes}

lemma Disk.Valid.ledger {d : Disk} (h : d.Valid) : Books d.tree {} d [] where
  grown := List.prefix_refl _
  accounted _ hx := .inl hx
  nodup := h.nodup
  closed := h.closed
  directories _ hx := (List.not_mem_nil hx).elim
  targets _ hx := (List.not_mem_nil hx).elim
  unrecorded _ hx := (List.not_mem_nil hx).elim
  inodes := h.inodes
  names := h.names
  ordered := List.Pairwise.nil
  onceDirectories := List.nodup_nil
  onceTargets := List.nodup_nil

namespace Ledger

lemma name_succ (h : Ledger before ts ds t inode name loose) :
    Ledger before ts ds t inode (name + 1) loose :=
  { h with names := fun p n hp => (h.names p n hp).trans (Nat.lt_succ_self name) }

lemma prefix_insert (h : before <+: t) (x : Path × Node) : before <+: t ++ [x] :=
  h.trans (List.prefix_append t [x])

/-- What any new entry keeps. -/
lemma nodup_insert (h : (paths t).Nodup) (hp : p ∉ paths t) (n : Node) :
    (paths (t ++ [(p, n)])).Nodup := by
  rw [paths_append]
  exact h.append (List.nodup_singleton p) (List.disjoint_singleton.mpr hp)

lemma closed_insert (h : ∀ x ∈ t, x.1 = [] ∨ ∃ i, (x.1.dropLast, .directory i) ∈ t) {n : Node}
    (hparent : ∃ i, (p.dropLast, Node.directory i) ∈ t) :
    ∀ x ∈ t ++ [(p, n)], x.1 = [] ∨ ∃ i, (x.1.dropLast, .directory i) ∈ t ++ [(p, n)] := by
  intro x hx
  rcases List.mem_append.mp hx with hx | hx
  · exact (h x hx).imp_right fun ⟨i, hi⟩ => ⟨i, List.mem_append_left _ hi⟩
  · cases List.mem_singleton.mp hx
    obtain ⟨i, hi⟩ := hparent
    exact .inr ⟨i, List.mem_append_left _ hi⟩

lemma not_mem_before (h : Ledger before ts ds t inode name loose) (hp : p ∉ paths t) :
    p ∉ paths before := fun hin => hp <| by
  obtain ⟨v, rfl⟩ := h.grown
  exact paths_append before v ▸ List.mem_append_left _ hin

/-- A new entry that is not recorded yet, with an inode of its own. -/
lemma insert_loose (h : Ledger before ts ds t inode name []) {n : Node}
    (hu : FileTree.insert t p n = some u) (hn : ∀ i, n.hasInode i = true → i = inode)
    (hname : ∀ q m, p = q ++ [.temporary m] → m < name) :
    Ledger before ts ds u (inode + 1) name [p] := by
  obtain ⟨rfl, hp, hparent⟩ := insert_eq_some hu
  have hne : ∀ {n}, (p, n) ∉ t := fun hmem => hp (mem_paths_of_mem hmem)
  refine ⟨prefix_insert h.grown _, fun x hx => ?_, nodup_insert h.nodup hp n,
    closed_insert h.closed hparent, fun x hx => ?_, fun x hx => ?_, fun q hq => ?_,
    fun x hx i hi => ?_, fun q m hq => ?_, h.ordered, h.onceDirectories, h.onceTargets⟩
  · rcases List.mem_append.mp hx with hx | hx
    · exact (h.accounted x hx).imp_right (Or.imp_right (Or.imp_right fun hx =>
        (List.not_mem_nil hx).elim))
    · cases List.mem_singleton.mp hx
      exact .inr (.inr (.inr (List.mem_singleton_self p)))
  · exact (h.directories x hx).imp_left (List.mem_append_left _)
  · obtain ⟨⟨bytes, hbytes⟩, hbefore, halone⟩ := h.targets x hx
    refine ⟨⟨bytes, List.mem_append_left _ hbytes⟩, hbefore, fun y hy hyi => ?_⟩
    rcases List.mem_append.mp hy with hy | hy
    · exact (halone y hy hyi).imp_right fun hmem => (List.not_mem_nil hmem).elim
    · cases List.mem_singleton.mp hy
      exact .inr (List.mem_singleton_self p)
  · cases List.mem_singleton.mp hq
    refine ⟨?_, h.not_mem_before hp, ?_, ?_⟩
    · rw [paths_append]
      exact List.mem_append_right _ (List.mem_singleton_self p)
    · rintro x hx rfl
      exact hne (h.directories x hx).1
    · rintro x hx rfl
      obtain ⟨bytes, hbytes⟩ := (h.targets x hx).1
      exact hne hbytes
  · rcases List.mem_append.mp hx with hx | hx
    · exact (h.inodes x hx i hi).trans (Nat.lt_succ_self inode)
    · cases List.mem_singleton.mp hx
      rw [hn i hi]
      exact Nat.lt_succ_self inode
  · rw [paths_append] at hq
    rcases List.mem_append.mp hq with hq | hq
    · exact h.names q m hq
    · exact hname q m (List.mem_singleton.mp hq).symm

/-- A directory that was made is recorded. -/
lemma record_directory (h : Ledger before ts ds t inode name [p])
    (hp : (p, .directory k) ∈ t) (hfree : ∀ x ∈ ds, x.1.dropLast ≠ p) :
    Ledger before ts (ds ++ [(p, k)]) t inode name [] := by
  obtain ⟨-, hbefore, hdirectories, htargets⟩ := h.unrecorded p (List.mem_singleton_self p)
  refine ⟨h.grown, fun x hx => ?_, h.nodup, h.closed, fun x hx => ?_, fun x hx => ?_, nofun,
    h.inodes, h.names, ?_, ?_, h.onceTargets⟩
  · rcases h.accounted x hx with hx | ⟨i, hi⟩ | hx | hx
    · exact .inl hx
    · exact .inr (.inl ⟨i, List.mem_append_left _ hi⟩)
    · exact .inr (.inr (.inl hx))
    · refine .inr (.inl ⟨k, List.mem_append_right _ ?_⟩)
      rw [List.mem_singleton.mp hx]
      exact List.mem_singleton_self _
  · rcases List.mem_append.mp hx with hx | hx
    · exact h.directories x hx
    · cases List.mem_singleton.mp hx
      exact ⟨hp, hbefore⟩
  · obtain ⟨hfile, hbefore', halone⟩ := h.targets x hx
    refine ⟨hfile, hbefore', fun y hy hyi => (halone y hy hyi).imp_right fun hmem => ?_⟩
    -- The loose entry is a directory, and no file.
    obtain ⟨q, n⟩ := y
    cases List.mem_singleton.mp hmem
    rw [node_unique h.nodup hy hp] at hyi
    exact nomatch hyi
  · rw [List.pairwise_append]
    refine ⟨h.ordered, List.pairwise_singleton _ _, fun a ha b hb => ?_⟩
    cases List.mem_singleton.mp hb
    exact hfree a ha
  · rw [List.map_append]
    refine h.onceDirectories.append (List.nodup_singleton p) (List.disjoint_singleton.mpr ?_)
    intro hmem
    obtain ⟨x, hx, hxp⟩ := List.mem_map.mp hmem
    exact hdirectories x hx hxp

/-- A file that was linked is recorded, while its temporary name is there. -/
lemma record_target (h : Ledger before ts ds t inode name [part])
    (hpart : (part, .file k bytes) ∈ t) (halone : ∀ y ∈ t, y.2.isFile k = true → y.1 = part)
    (hu : FileTree.insert t target (.file k bytes) = some u)
    (hname : ∀ q m, target ≠ q ++ [.temporary m]) :
    Ledger before (ts ++ [(target, k)]) ds u inode name [part] := by
  obtain ⟨rfl, htarget, hparent⟩ := insert_eq_some hu
  have hne : ∀ {n}, (target, n) ∉ t := fun hmem => htarget (mem_paths_of_mem hmem)
  obtain ⟨hin, hbefore, hdirectories, htargets⟩ := h.unrecorded part (List.mem_singleton_self part)
  refine ⟨prefix_insert h.grown _, fun x hx => ?_, nodup_insert h.nodup htarget _,
    closed_insert h.closed hparent, fun x hx => ?_, fun x hx => ?_, fun q hq => ?_,
    fun x hx i hi => ?_, fun q m hq => ?_, h.ordered, h.onceDirectories, ?_⟩
  · rcases List.mem_append.mp hx with hx | hx
    · rcases h.accounted x hx with hx | hx | ⟨i, hi⟩ | hx
      · exact .inl hx
      · exact .inr (.inl hx)
      · exact .inr (.inr (.inl ⟨i, List.mem_append_left _ hi⟩))
      · exact .inr (.inr (.inr hx))
    · cases List.mem_singleton.mp hx
      exact .inr (.inr (.inl ⟨k, List.mem_append_right _ (List.mem_singleton_self _)⟩))
  · exact (h.directories x hx).imp_left (List.mem_append_left _)
  · rcases List.mem_append.mp hx with hx | hx
    · obtain ⟨⟨b, hb⟩, hx', halone'⟩ := h.targets x hx
      refine ⟨⟨b, List.mem_append_left _ hb⟩, hx', fun y hy hyi => ?_⟩
      rcases List.mem_append.mp hy with hy | hy
      · exact halone' y hy hyi
      · cases List.mem_singleton.mp hy
        -- Only the temporary file had the inode, and no target is that file.
        have hk : k = x.2 := by simpa [Node.isFile] using hyi
        have hxpart := halone _ hb (by simp [Node.isFile, hk])
        exact absurd hxpart (htargets x hx)
    · cases List.mem_singleton.mp hx
      refine ⟨⟨bytes, List.mem_append_right _ (List.mem_singleton_self _)⟩,
        h.not_mem_before htarget, fun y hy hyi => ?_⟩
      rcases List.mem_append.mp hy with hy | hy
      · rw [halone y hy hyi]
        exact .inr (List.mem_singleton_self part)
      · cases List.mem_singleton.mp hy
        exact .inl rfl
  · cases List.mem_singleton.mp hq
    refine ⟨?_, hbefore, hdirectories, fun x hx => ?_⟩
    · rw [paths_append]
      exact List.mem_append_left _ hin
    · rcases List.mem_append.mp hx with hx | hx
      · exact htargets x hx
      · cases List.mem_singleton.mp hx
        rintro rfl
        exact hne hpart
  · rcases List.mem_append.mp hx with hx | hx
    · exact h.inodes x hx i hi
    · cases List.mem_singleton.mp hx
      exact h.inodes _ hpart i hi
  · rw [paths_append] at hq
    rcases List.mem_append.mp hq with hq | hq
    · exact h.names q m hq
    · exact absurd (List.mem_singleton.mp hq).symm (hname q m)
  · rw [List.map_append]
    refine h.onceTargets.append (List.nodup_singleton target) (List.disjoint_singleton.mpr ?_)
    intro hmem
    obtain ⟨x, hx, hxp⟩ := List.mem_map.mp hmem
    obtain ⟨b, hb⟩ := (h.targets x hx).1
    rw [hxp] at hb
    exact hne hb

/-- Bytes for the temporary file. -/
lemma write (h : Ledger before ts ds t inode name [part])
    (halone : ∀ y ∈ t, y.2.isFile k = true → y.1 = part) :
    Ledger before ts ds (append t k chunk) inode name [part] := by
  obtain ⟨-, hbefore, hdirectories, htargets⟩ := h.unrecorded part (List.mem_singleton_self part)
  have hkeep : ∀ {x : Path × Node}, x ∈ t → x.1 ≠ part → x ∈ append t k chunk :=
    fun {x} hx hne => mem_fileAppend_of_mem hx <| by
      rw [Bool.eq_false_iff]
      exact fun hfile => hne (halone x hx hfile)
  refine ⟨?_, fun x hx => ?_, by rw [paths_fileAppend]; exact h.nodup, fun x hx => ?_,
    fun x hx => ?_, fun x hx => ?_, fun q hq => ?_, fun x hx i hi => ?_, fun q m hq => ?_,
    h.ordered, h.onceDirectories, h.onceTargets⟩
  · obtain ⟨v, hv⟩ := h.grown
    refine ⟨append v k chunk, ?_⟩
    rw [← hv, fileAppend_append]
    congr 1
    refine (fileAppend_eq_self fun x hx => ?_).symm
    rw [Bool.eq_false_iff]
    intro hfile
    have hx' : x ∈ t := hv ▸ List.mem_append_left _ hx
    exact hbefore (halone x hx' hfile ▸ mem_paths_of_mem hx)
  · obtain ⟨y, hy, rfl⟩ := mem_fileAppend.mp hx
    by_cases hne : y.1 = part
    · exact .inr (.inr (.inr (by simp [hne])))
    · have hself : y.2.append k chunk = y.2 := Node.append_eq_self <| by
        rw [Bool.eq_false_iff]
        exact fun hfile => hne (halone y hy hfile)
      rw [hself]
      exact h.accounted y hy
  · obtain ⟨y, hy, rfl⟩ := mem_fileAppend.mp hx
    exact (h.closed y hy).imp_right fun ⟨i, hi⟩ => ⟨i, mem_fileAppend_of_mem hi rfl⟩
  · obtain ⟨hx', hb⟩ := h.directories x hx
    exact ⟨mem_fileAppend_of_mem hx' rfl, hb⟩
  · obtain ⟨⟨b, hb⟩, hx', halone'⟩ := h.targets x hx
    refine ⟨⟨b, hkeep hb (htargets x hx)⟩, hx', fun y hy hyi => ?_⟩
    obtain ⟨z, hz, rfl⟩ := mem_fileAppend.mp hy
    rw [Node.isFile_append] at hyi
    exact halone' z hz hyi
  · rw [paths_fileAppend]
    exact h.unrecorded q hq
  · obtain ⟨y, hy, rfl⟩ := mem_fileAppend.mp hx
    rw [Node.hasInode_append] at hi
    exact h.inodes y hy i hi
  · rw [paths_fileAppend] at hq
    exact h.names q m hq

/-- An entry that was added is removed, wherever it was recorded. -/
lemma remove (h : Ledger before ts ds t inode name loose) (hp : p ∉ paths before)
    (hchild : ∀ x ∈ t, x.1 = [] ∨ x.1.dropLast ≠ p) :
    Ledger before (ts.filter (·.1 != p)) (ds.filter (·.1 != p)) (FileTree.remove t p) inode name
      (loose.filter (· != p)) := by
  have hmem : ∀ {l : List (Path × ℕ)} {x}, x ∈ l.filter (·.1 != p) ↔ x ∈ l ∧ x.1 ≠ p := by
    simp [List.mem_filter]
  have hloose : ∀ {q}, q ∈ loose.filter (· != p) ↔ q ∈ loose ∧ q ≠ p := by
    simp [List.mem_filter]
  refine ⟨prefix_remove h.grown hp, fun x hx => ?_, h.nodup.sublist (List.filter_sublist.map _),
    fun x hx => ?_, fun x hx => ?_, fun x hx => ?_, fun q hq => ?_, fun x hx i hi => ?_,
    fun q m hq => ?_, h.ordered.filter _, h.onceDirectories.sublist (List.filter_sublist.map _),
    h.onceTargets.sublist (List.filter_sublist.map _)⟩
  · obtain ⟨hx, hne⟩ := mem_remove.mp hx
    rcases h.accounted x hx with hx | ⟨i, hi⟩ | ⟨i, hi⟩ | hx
    · exact .inl hx
    · exact .inr (.inl ⟨i, hmem.mpr ⟨hi, hne⟩⟩)
    · exact .inr (.inr (.inl ⟨i, hmem.mpr ⟨hi, hne⟩⟩))
    · exact .inr (.inr (.inr (hloose.mpr ⟨hx, hne⟩)))
  · obtain ⟨hx, hne⟩ := mem_remove.mp hx
    rcases h.closed x hx with hroot | ⟨i, hi⟩
    · exact .inl hroot
    · rcases hchild x hx with hroot | hparent
      · exact .inl hroot
      · exact .inr ⟨i, mem_remove.mpr ⟨hi, hparent⟩⟩
  · obtain ⟨hx, hne⟩ := hmem.mp hx
    obtain ⟨hx', hb⟩ := h.directories x hx
    exact ⟨mem_remove.mpr ⟨hx', hne⟩, hb⟩
  · obtain ⟨hx, hne⟩ := hmem.mp hx
    obtain ⟨⟨b, hb⟩, hx', halone⟩ := h.targets x hx
    refine ⟨⟨b, mem_remove.mpr ⟨hb, hne⟩⟩, hx', fun y hy hyi => ?_⟩
    obtain ⟨hy, hyp⟩ := mem_remove.mp hy
    exact (halone y hy hyi).imp_right fun hin => hloose.mpr ⟨hin, hyp⟩
  · obtain ⟨hq, hne⟩ := hloose.mp hq
    obtain ⟨hin, hbefore, hdirectories, htargets⟩ := h.unrecorded q hq
    exact ⟨mem_paths_remove.mpr ⟨hin, hne⟩, hbefore, fun x hx => hdirectories x (hmem.mp hx).1,
      fun x hx => htargets x (hmem.mp hx).1⟩
  · exact h.inodes x (mem_remove.mp hx).1 i hi
  · exact h.names q m (mem_paths_remove.mp hq).1

/-- A file has no entries below it. -/
lemma no_child_of_file (h : Ledger before ts ds t inode name loose)
    (hp : (p, .file k bytes) ∈ t) : ∀ x ∈ t, x.1 = [] ∨ x.1.dropLast ≠ p := by
  intro x hx
  refine (h.closed x hx).imp_right fun ⟨i, hi⟩ heq => ?_
  rw [heq] at hi
  exact nomatch node_unique h.nodup hi hp

lemma filter_eq_self_of_ne {l : List (Path × ℕ)} (h : ∀ x ∈ l, x.1 ≠ p) :
    l.filter (·.1 != p) = l :=
  List.filter_eq_self.mpr fun x hx => by simpa using h x hx

/-- The temporary file is removed. -/
lemma remove_part (h : Ledger before ts ds t inode name [part])
    (hpart : (part, .file k bytes) ∈ t) :
    Ledger before ts ds (FileTree.remove t part) inode name [] := by
  obtain ⟨-, hbefore, hdirectories, htargets⟩ := h.unrecorded part (List.mem_singleton_self part)
  have hremoved := h.remove hbefore (h.no_child_of_file hpart)
  rwa [filter_eq_self_of_ne htargets, filter_eq_self_of_ne hdirectories,
    List.filter_singleton, bne_self_eq_false] at hremoved

lemma filter_last {l : List (Path × ℕ)} (h : ((l ++ [(p, k)]).map (·.1)).Nodup) :
    (l ++ [(p, k)]).filter (·.1 != p) = l := by
  rw [List.map_append, List.nodup_append'] at h
  rw [List.filter_append, List.filter_singleton, bne_self_eq_false]
  refine (List.append_nil _).trans (filter_eq_self_of_ne fun x hx heq => ?_)
  exact List.disjoint_singleton.mp h.2.2 (List.mem_map.mpr ⟨x, hx, heq⟩)

/-- The target that was linked last is removed. -/
lemma pop_target (h : Ledger before (ts ++ [(p, k)]) ds t inode name []) :
    (∃ bytes, (p, .file k bytes) ∈ t) ∧ links t k = 1 ∧
      Ledger before ts ds (FileTree.remove t p) inode name [] := by
  obtain ⟨⟨bytes, hp⟩, hbefore, halone⟩ := h.targets (p, k) (by simp)
  have hremoved := h.remove hbefore (h.no_child_of_file hp)
  rw [filter_last h.onceTargets, filter_eq_self_of_ne, List.filter_nil] at hremoved
  · refine ⟨⟨bytes, hp⟩, ?_, hremoved⟩
    refine links_eq_one h.nodup hp (by simp [Node.isFile]) fun y hy hyi => ?_
    exact (halone y hy hyi).elim id fun hmem => (List.not_mem_nil hmem).elim
  · rintro x hx rfl
    cases node_unique h.nodup (h.directories x hx).1 hp

/-- When no target is left, the directory that was made last is empty, and is removed. -/
lemma pop_directory (h : Ledger before [] (ds ++ [(p, k)]) t inode name [])
    (hclosed : ∀ x ∈ before, x.1 = [] ∨ x.1.dropLast ∈ paths before)
    (hroot : [] ∈ paths before) :
    (p, .directory k) ∈ t ∧ (∀ x ∈ t, x.1 = [] ∨ x.1.dropLast ≠ p) ∧
      Ledger before [] ds (FileTree.remove t p) inode name [] := by
  obtain ⟨hp, hbefore⟩ := h.directories (p, k) (by simp)
  have hchild : ∀ x ∈ t, x.1 = [] ∨ x.1.dropLast ≠ p := by
    intro x hx
    rcases h.accounted x hx with hx | ⟨i, hi⟩ | ⟨i, hi⟩ | hx
    · exact (hclosed x hx).imp_right fun hin heq => hbefore (heq ▸ hin)
    · rcases List.mem_append.mp hi with hi | hi
      · exact .inr ((List.pairwise_append.mp h.ordered).2.2 _ hi _ (List.mem_singleton_self _))
      · have hxp : x.1 = p := (Prod.mk.inj (List.mem_singleton.mp hi)).1
        refine .inr fun heq => ?_
        -- The root was there before, so the path is not its own parent.
        have hlength := congrArg List.length (heq.trans hxp.symm)
        rw [List.length_dropLast] at hlength
        have hnil : x.1 = [] := List.eq_nil_of_length_eq_zero (by omega)
        exact hbefore (hxp ▸ hnil ▸ hroot)
    · exact (List.not_mem_nil hi).elim
    · exact (List.not_mem_nil hx).elim
  have hremoved := h.remove hbefore hchild
  rw [filter_last h.onceDirectories, List.filter_nil, List.filter_nil] at hremoved
  exact ⟨hp, hchild, hremoved⟩

/-- With nothing recorded and nothing loose, the tree is the one before. -/
lemma eq_before (h : Ledger before [] [] t inode name []) : t = before := by
  obtain ⟨v, hv⟩ := h.grown
  cases v with
  | nil => rw [← hv, List.append_nil]
  | cons x v =>
    have hx : x ∈ t := hv ▸ List.mem_append_right _ List.mem_cons_self
    rcases h.accounted x hx with hbefore | ⟨i, hi⟩ | ⟨i, hi⟩ | hx
    · have hnodup := h.nodup
      rw [← hv, paths_append, List.nodup_append'] at hnodup
      exact absurd (mem_paths_of_mem (n := x.2) (List.mem_cons_self ..))
        (hnodup.2.2 (mem_paths_of_mem hbefore))
    · exact (List.not_mem_nil hi).elim
    · exact (List.not_mem_nil hi).elim
    · exact (List.not_mem_nil hx).elim

end Ledger

/-! ## The trail of a publication -/

/-- What the answers of the calls leave open: a directory that was made and has not been inspected
since, and a temporary file that was created and has not been removed. -/
structure Trail where
  made : Option Path := none
  part : Option Path := none
  deriving DecidableEq

/-- The trail after a call; `done` says that it was served. -/
def Trail.after (g : Trail) (i : MediaCall) (done : Bool) : Trail :=
  match i with
  | .mkdir p => if done then { g with made := some p } else g
  | .stat p => if done ∧ g.made = some p then { g with made := none } else g
  | .createFile p => if done then { g with part := some p } else g
  | .unlink p => if done ∧ g.part = some p then { g with part := none } else g
  | _ => g

lemma Trail.after_refused (g : Trail) (i : MediaCall) : g.after i false = g := by
  cases i <;> simp [Trail.after]

/-- Every directory that was made was inspected, and every temporary file was removed. -/
def Trail.Tidy (g : Trail) : Prop := g.made = none ∧ g.part = none

def Trail.pending (g : Trail) : List Path := g.made.toList ++ g.part.toList

lemma Trail.Tidy.eq {g : Trail} (h : g.Tidy) : g = {} := by
  obtain ⟨made, part⟩ := g
  obtain ⟨rfl, rfl⟩ := h
  rfl

/-- Any call can be refused, and the trail is kept. -/
def journal (setup : MediaSetup) :
    Protocol (Disk × Trail) MediaCall MediaCall.Result MediaFault where
  may _ _ := True
  next g i r g' := ∃ c, (machine setup).answer () i g.1 c = (r, g'.1) ∧
    g'.2 = g.2.after i r.isOk

variable {setup : MediaSetup} {α β : Type} {l : Locals} {g : Disk × Trail}
  {Q : α → Locals → Disk × Trail → Prop} {R : Locals → Disk × Trail → Prop}

/-- The code ends where `Q` holds, or raises where `R` holds. -/
def Does (setup : MediaSetup) (x : Code α) (Q : α → Locals → Disk × Trail → Prop)
    (R : Locals → Disk × Trail → Prop) (l : Locals) (g : Disk × Trail) : Prop :=
  Meets (journal setup) x Q (fun _ l g => R l g) l g

@[simp] lemma does_pure {a : α} : Does setup (pure a) Q R l g ↔ Q a l g := meets_pure

@[simp] lemma does_fail {issue : String} : Does setup (fail issue : Code α) Q R l g ↔ R l g :=
  meets_throw

@[simp] lemma does_bind {x : Code α} {f : α → Code β} {Q : β → Locals → Disk × Trail → Prop} :
    Does setup (x >>= f) Q R l g ↔
      Does setup x (fun a l g => Does setup (f a) Q R l g) R l g := meets_bind

@[simp] lemma does_modify {f : Locals → Locals} {Q : PUnit → Locals → Disk × Trail → Prop} :
    Does setup (modify f : Code PUnit) Q R l g ↔ Q ⟨⟩ (f l) g := meets_modify

@[simp] lemma does_get {Q : Locals → Locals → Disk × Trail → Prop} :
    Does setup (get : Code Locals) Q R l g ↔ Q l l g := meets_get

lemma Does.mono {x : Code α} {Q' : α → Locals → Disk × Trail → Prop}
    {R' : Locals → Disk × Trail → Prop} (h : Does setup x Q R l g)
    (hQ : ∀ a l g, Q a l g → Q' a l g) (hR : ∀ l g, R l g → R' l g) : Does setup x Q' R' l g :=
  Meets.mono h hQ fun _ => hR

/-- What cannot be done changes nothing. -/
lemma exec_error {i : MediaCall} {d d' : Disk} {e : MediaFault}
    (h : exec setup i d = (.error e, d')) : d' = d := by
  cases i <;> simp only [exec, Disk.onTree, Disk.onNew] at h <;>
    first
      | cases h
      | (split at h <;> cases h; rfl)

lemma does_ask {i : MediaCall} {Q : i.Result → Locals → Disk × Trail → Prop} (hR : R l g)
    (hok : ∀ a d', exec setup i g.1 = (.ok a, d') → Q a l (d', g.2.after i true)) :
    Does setup (ask i) Q R l g := by
  refine meets_perform.mpr ⟨trivial, fun r g' hn => ?_⟩
  obtain ⟨c, hc, htrail⟩ := hn
  have herror : ∀ e, r = .error e → g'.1 = g.1 → g' = g := by
    rintro e rfl hdisk
    exact Prod.ext hdisk (htrail.trans (g.2.after_refused i))
  obtain ⟨d', trail⟩ := g'
  cases c with
  | served =>
    cases r with
    | ok a =>
      simp only at htrail
      rw [htrail]
      exact hok a d' hc
    | error e =>
      rw [herror e rfl (exec_error hc)]
      exact hR
  | raised e =>
    cases hc
    rw [herror e rfl rfl]
    exact hR
  | lost e =>
    cases hc
    rw [herror e rfl rfl]
    exact hR

lemma does_onOs {x : Code α} {issue : String} (h : Does setup x Q R l g) :
    Does setup (onOs issue x) Q R l g := by
  rw [Does, onOs, meets_tryCatch]
  refine Meets.mono h (fun _ _ _ hQ => hQ) fun e l g hR => ?_
  split
  · exact hR
  · exact hR

lemma does_dropOs {x : Code Unit} {Q : Unit → Locals → Disk × Trail → Prop}
    (h : Does setup x Q (fun l g => Q ⟨⟩ l g ∧ R l g) l g) : Does setup (dropOs x) Q R l g := by
  rw [Does, dropOs, meets_tryCatch]
  refine Meets.mono h (fun _ _ _ hQ => hQ) fun e l g hR => ?_
  split
  · exact hR.1
  · exact hR.2

lemma does_ensure {x : Code α} {y : Code PUnit}
    (h : Does setup x (fun a l g => Does setup y (fun _ l g => Q a l g) R l g)
      (fun l g => Does setup y (fun _ l g => R l g) R l g) l g) :
    Does setup (Routine.ensure x y) Q R l g :=
  meets_ensure.mpr h

/-- `os.path.lexists`, which says no when the look is refused. -/
lemma does_lexists {p : Path} {Q : Bool → Locals → Disk × Trail → Prop} (hR : R l g)
    (hno : Q false l g) (hyes : p ∈ paths g.1.tree → Q true l g) :
    Does setup (lexists (ask (.lstat p))) Q R l g := by
  rw [lexists, Does, meets_tryCatch, meets_bind]
  have hlook : Does setup (ask (.lstat p)) (fun _ l g => Q true l g)
      (fun l g => Q false l g ∧ R l g) l g := by
    refine does_ask ⟨hno, hR⟩ fun a d' hexec => ?_
    simp only [exec] at hexec
    split at hexec
    · rename_i hfound
      cases hexec
      obtain ⟨n, hn⟩ := Option.isSome_iff_exists.mp hfound
      exact hyes (mem_paths_of_mem (mem_of_find hn))
    · cases hexec
  refine Meets.mono hlook (fun _ _ _ h => h) fun e l g h => ?_
  split
  · exact h.1
  · exact h.2

/-! ## Looks at a file -/

/-- `_file_state`, when no new directory waits for its inspection. -/
lemma does_checkFile {Q : FileState → Locals → Disk × Trail → Prop} (hmade : g.2.made = none)
    (hR : R l g) (hQ : ∀ k bytes, find g.1.tree p = some (.file k bytes) →
      links g.1.tree k = 1 → Q ⟨.regular, k, 1⟩ l g) :
    Does setup (checkFile p) Q R l g := by
  rw [checkFile, does_bind]
  apply does_onOs
  refine does_ask hR fun state d' hexec => ?_
  have hafter : g.2.after (.stat p) true = g.2 := by simp [Trail.after, hmade]
  rw [hafter]
  simp only [exec] at hexec
  split at hexec
  · rename_i n hn
    cases hexec
    split
    · exact does_fail.mpr hR
    · rename_i hregular
      rw [not_or, not_not, not_not] at hregular
      cases n with
      | file k bytes =>
        have hlinks : links g.1.tree k = 1 := hregular.2
        rw [does_pure, fileState, hlinks]
        exact hQ k bytes hn hlinks
      | directory k => exact absurd hregular.1 nofun
      | other => exact absurd hregular.1 nofun
  · cases hexec

/-- A file with the content that the manifest asks for. -/
def Matches (setup : MediaSetup) (byteCount : ℕ) (sha256 : String) (bytes : Bytes) : Prop :=
  bytes.length = byteCount ∧ setup.sha256 bytes = sha256

lemma does_hashFile {Q : ℕ × String → Locals → Disk × Trail → Prop} {identity maximum : ℕ}
    (hfind : find g.1.tree p = some (.file k bytes)) (hR : R l g)
    (hQ : Q (bytes.length, setup.sha256 bytes) l g) :
    Does setup (hashFile setup p identity maximum) Q R l g := by
  rw [hashFile, does_bind]
  apply does_onOs
  refine does_ask hR fun opened d' hexec => ?_
  have hread : exec setup (.readFile p) g.1 =
      (.ok (fileState g.1.tree (.file k bytes), bytes), g.1) := by
    simp only [exec, hfind]
  cases hread.symm.trans hexec
  change Does setup (if _ then _ else if _ then _ else _) _ _ _ g
  split
  · exact does_fail.mpr hR
  split
  · exact does_fail.mpr hR
  · exact does_pure.mpr hQ

lemma does_checkContent {Q : FileState → Locals → Disk × Trail → Prop} {byteCount : ℕ}
    {sha256 issue : String} (hmade : g.2.made = none) (hR : R l g)
    (hQ : ∀ k bytes, find g.1.tree p = some (.file k bytes) → Matches setup byteCount sha256 bytes →
      Q ⟨.regular, k, 1⟩ l g) :
    Does setup (checkContent setup p byteCount sha256 issue) Q R l g := by
  rw [checkContent, does_bind]
  refine does_checkFile hmade hR fun k bytes hfind hlinks => ?_
  rw [does_bind]
  refine does_hashFile hfind hR ?_
  change Does setup
    (if bytes.length ≠ byteCount ∨ setup.sha256 bytes ≠ sha256 then _ else _) _ _ _ _
  split
  · exact does_fail.mpr hR
  · rename_i hcontent
    rw [not_or, not_not, not_not] at hcontent
    exact does_pure.mpr (hQ k bytes hfind hcontent)

/-- `_directory_state` of a directory whose inspection does not matter. -/
lemma does_checkDirectory {Q : FileState → Locals → Disk × Trail → Prop}
    (hmade : g.2.made = none) (hR : R l g) (hQ : ∀ state, Q state l g) :
    Does setup (checkDirectory p) Q R l g := by
  rw [checkDirectory, does_bind]
  apply does_onOs
  refine does_ask hR fun state d' hexec => ?_
  have hafter : g.2.after (.stat p) true = g.2 := by simp [Trail.after, hmade]
  rw [hafter]
  simp only [exec] at hexec
  split at hexec
  · cases hexec
    split
    · exact does_fail.mpr hR
    · exact does_pure.mpr (hQ _)
  · cases hexec

/-! ## Parents -/

/-- Every component of the path comes from a storage name. -/
def AllNamed (p : Path) : Prop := ∀ n ∈ p, ∃ s, n = .named s

lemma AllNamed.not_temporary (h : AllNamed p) (q : Path) (m : ℕ) : p ≠ q ++ [.temporary m] := by
  rintro rfl
  obtain ⟨s, hs⟩ := h (.temporary m) (by simp)
  exact nomatch hs

lemma AllNamed.dropLast (h : AllNamed p) : AllNamed p.dropLast :=
  fun n hn => h n (List.dropLast_subset p hn)

/-- Nothing is changed while the missing parents are looked for. -/
lemma does_missingParents {depth : ℕ} (hp : AllNamed p) (hR : R l g) :
    Does setup (missingParents p depth)
      (fun r l' g' => (l' = l ∧ g' = g) ∧ ∀ q ∈ r.1, AllNamed q) R l g := by
  induction depth generalizing p with
  | zero => exact ⟨⟨rfl, rfl⟩, fun q hq => (List.not_mem_nil hq).elim⟩
  | succ depth ih =>
    rw [missingParents, does_bind]
    refine does_ask hR fun there d' hexec => ?_
    cases hexec
    split
    · exact ⟨⟨rfl, rfl⟩, fun q hq => (List.not_mem_nil hq).elim⟩
    · rw [does_bind]
      refine (ih hp.dropLast).mono (fun r l' g' hr => ?_) fun _ _ h => h
      obtain ⟨⟨rfl, rfl⟩, hnamed⟩ := hr
      refine ⟨⟨rfl, rfl⟩, fun q hq => ?_⟩
      rcases List.mem_cons.mp hq with rfl | hq
      · exact hp
      · exact hnamed q hq

/-- What holds wherever publishing may stop. -/
def Rest (before : Tree) (l : Locals) (g : Disk × Trail) : Prop :=
  Books before l g.1 g.2.pending

/-- What holds between two steps that leave nothing open; the entries of `base` are there. -/
structure Settled (before base : Tree) (l : Locals) (g : Disk × Trail) : Prop where
  books : Books before l g.1 []
  tidy : g.2.Tidy
  kept : ∀ x ∈ base, x ∈ g.1.tree

lemma Settled.rest {base : Tree} (h : Settled before base l g) : Rest before l g := by
  rw [Rest, h.tidy.eq]
  exact h.books

/-- The directories are made, and each is recorded after its inspection. -/
lemma does_makeParents {base : Tree} {directories : List Path}
    (hnamed : ∀ q ∈ directories, AllNamed q) (h : Settled before base l g) :
    Does setup (makeParents directories) (fun _ l' g' => Settled before base l' g')
      (Rest before) l g := by
  induction directories generalizing l g with
  | nil => exact does_pure.mpr h
  | cons q directories ih =>
    rw [makeParents, does_bind]
    apply does_onOs
    refine does_ask h.rest fun _ d' hexec => ?_
    simp only [exec, Disk.onNew] at hexec
    split at hexec
    · rename_i t ht
      cases hexec
      obtain ⟨htree, hfresh, -⟩ := insert_eq_some ht
      have hname := (hnamed q (List.mem_cons_self ..)).not_temporary
      have hloose := h.books.insert_loose ht (fun i hi => (beq_iff_eq.mp hi).symm)
        fun q' m hq => absurd hq (hname q' m)
      have hmem : (q, Node.directory g.1.nextInode) ∈ t := by
        rw [htree]
        exact List.mem_append_right _ (List.mem_singleton_self _)
      have hfree : ∀ x ∈ l.createdDirectories, x.1.dropLast ≠ q := by
        intro x hx heq
        have hx' := (h.books.directories x hx).1
        rcases h.books.closed _ hx' with hroot | ⟨i, hi⟩
        · simp only at hroot
          rw [hroot, List.dropLast_nil] at heq
          rw [hroot, heq] at hx'
          exact hfresh (mem_paths_of_mem hx')
        · exact hfresh (heq ▸ mem_paths_of_mem hi)
      have hmade : g.2.after (.mkdir q) true = { made := some q } := by
        rw [h.tidy.eq]
        rfl
      rw [hmade, does_bind]
      -- The new directory is recorded only once it has been inspected.
      rw [checkDirectory, does_bind]
      apply does_onOs
      refine does_ask hloose fun state d' hexec => ?_
      have hfind : find t q = some (.directory g.1.nextInode) :=
        (find_eq_some hloose.nodup).mpr hmem
      simp only [exec, hfind] at hexec
      cases hexec
      have hinspected : Trail.after { made := some q } (.stat q) true = {} := by
        simp [Trail.after]
      rw [hinspected, if_neg (by simp [fileState]), does_pure, does_bind, does_modify]
      have hrest := fun q' hq' => hnamed q' (List.mem_cons_of_mem _ hq')
      refine ih hrest ⟨?_, ⟨rfl, rfl⟩, fun x hx => ?_⟩
      · exact hloose.record_directory hmem hfree
      · rw [htree]
        exact List.mem_append_left _ (h.kept x hx)
    · cases hexec

lemma does_ensureParents {base : Tree} (hp : AllNamed p) (h : Settled before base l g) :
    Does setup (ensureParents p) (fun _ l' g' => Settled before base l' g') (Rest before) l g := by
  rw [ensureParents, does_bind]
  refine (does_missingParents hp h.rest).mono ?_ fun _ _ h => h
  rintro ⟨missing, lowest⟩ l' g' ⟨⟨rfl, rfl⟩, hnamed⟩
  rw [does_bind]
  refine does_checkDirectory h.tidy.1 h.rest fun _ => ?_
  exact does_makeParents (fun q hq => hnamed q (List.mem_reverse.mp hq)) h

/-! ## One file -/

/-- While the temporary file is written, it is the only file of its inode. -/
structure Writing (before base : Tree) (part : Path) (k : ℕ) (l : Locals) (g : Disk × Trail) :
    Prop where
  books : Books before l g.1 [part]
  trail : g.2 = { part := some part }
  file : ∃ bytes, (part, .file k bytes) ∈ g.1.tree
  alone : ∀ y ∈ g.1.tree, y.2.isFile k = true → y.1 = part
  kept : ∀ x ∈ base, x ∈ g.1.tree ∧ x.1 ≠ part

/-- What holds wherever the `try` of `_publish_one` may stop. -/
structure Stopped (before : Tree) (part : Path) (l : Locals) (g : Disk × Trail) : Prop where
  books : Books before l g.1 g.2.pending
  made : g.2.made = none
  file : (g.2.part = none ∧ part ∉ paths g.1.tree) ∨
    (g.2.part = some part ∧ ∃ k bytes, (part, .file k bytes) ∈ g.1.tree)

/-- What holds after a file was published, or before its temporary file is made. -/
structure Published (before base : Tree) (part : Path) (l : Locals) (g : Disk × Trail) : Prop
    extends Settled before base l g where
  absent : part ∉ paths g.1.tree

section One

variable {base : Tree} {item : StagedObject}

lemma Writing.stopped (h : Writing before base part k l g) : Stopped before part l g := by
  obtain ⟨d, trail⟩ := g
  obtain rfl : trail = { part := some part } := h.trail
  exact ⟨h.books, rfl, .inr ⟨rfl, k, h.file⟩⟩

lemma Published.stopped (h : Published before base part l g) : Stopped before part l g := by
  obtain ⟨d, trail⟩ := g
  obtain rfl : trail = {} := h.tidy.eq
  exact ⟨h.books, rfl, .inl ⟨rfl, h.absent⟩⟩

lemma Stopped.rest (h : Stopped before part l g) : Rest before l g := h.books

/-- Which descriptors are open does not matter. -/
lemma Published.descriptors (h : Published before base part l g) (a b : Bool) :
    Published before base part { l with source := a, target := b } g :=
  ⟨⟨h.books, h.tidy, h.kept⟩, h.absent⟩

lemma Writing.descriptors (h : Writing before base part k l g) (a b : Bool) :
    Writing before base part k { l with source := a, target := b } g :=
  ⟨h.books, h.trail, h.file, h.alone, h.kept⟩

/-- A call that changes neither the disk nor the trail. -/
lemma does_quiet {i : MediaCall} {Q : i.Result → Locals → Disk × Trail → Prop} (hR : R l g)
    (hexec : ∀ a d', exec setup i g.1 = (.ok a, d') → d' = g.1) (hafter : g.2.after i true = g.2)
    (hQ : ∀ a, Q a l g) : Does setup (ask i) Q R l g := by
  refine does_ask hR fun a d' he => ?_
  rw [hexec a d' he, hafter]
  exact hQ a

/-- The temporary file is created under a name that nothing has. -/
lemma does_createFile {Q : Unit → Locals → Disk × Trail → Prop}
    (h : Published before base part l g)
    (hname : ∀ q m, part = q ++ [.temporary m] → m < g.1.nextName)
    (hQ : ∀ k g', Writing before base part k l g' → Q ⟨⟩ l g') :
    Does setup (ask (.createFile part)) Q (Stopped before part) l g := by
  refine does_ask h.stopped fun a d' hexec => ?_
  simp only [exec, Disk.onNew] at hexec
  split at hexec
  · rename_i t ht
    cases hexec
    obtain ⟨htree, -, -⟩ := insert_eq_some ht
    have hafter : g.2.after (.createFile part) true = { part := some part } := by
      rw [h.tidy.eq]
      rfl
    rw [hafter]
    refine hQ g.1.nextInode _ ⟨?_, rfl, ⟨[], ?_⟩, fun y hy hyi => ?_, fun x hx => ⟨?_, ?_⟩⟩
    · exact h.books.insert_loose ht (fun i hi => (beq_iff_eq.mp hi).symm) hname
    · rw [htree]
      exact List.mem_append_right _ (List.mem_singleton_self _)
    · rw [htree] at hy
      rcases List.mem_append.mp hy with hy | hy
      · have hlt := h.books.inodes y hy g.1.nextInode (by
          obtain ⟨q, n⟩ := y
          cases n with
          | file j bytes => exact hyi
          | directory j => exact nomatch hyi
          | other => exact nomatch hyi)
        exact absurd hlt (Nat.lt_irrefl _)
      · rw [List.mem_singleton.mp hy]
    · rw [htree]
      exact List.mem_append_left _ (h.kept x hx)
    · rintro rfl
      exact h.absent (mem_paths_of_mem (h.kept x hx))
  · cases hexec

lemma does_write {Q : Unit → Locals → Disk × Trail → Prop} (h : Writing before base part k l g)
    (hQ : ∀ g', Writing before base part k l g' → Q ⟨⟩ l g') :
    Does setup (ask (.write part chunk)) Q (Stopped before part) l g := by
  refine does_ask h.stopped fun a d' hexec => ?_
  obtain ⟨bytes, hpart⟩ := h.file
  have hfind := (find_eq_some h.books.nodup).mpr hpart
  simp only [exec, hfind] at hexec
  cases hexec
  refine hQ _ ⟨h.books.write h.alone, h.trail, ⟨bytes ++ chunk, ?_⟩, fun y hy hyi => ?_,
    fun x hx => ⟨?_, (h.kept x hx).2⟩⟩
  · exact mem_fileAppend.mpr ⟨_, hpart, by simp [Node.append]⟩
  · obtain ⟨z, hz, rfl⟩ := mem_fileAppend.mp hy
    rw [Node.isFile_append] at hyi
    exact h.alone z hz hyi
  · obtain ⟨hx, hne⟩ := h.kept x hx
    refine mem_fileAppend_of_mem hx ?_
    rw [Bool.eq_false_iff]
    exact fun hfile => hne (h.alone x hx hfile)

lemma does_copyChunks {chunks : List Bytes} (h : Writing before base part k l g) :
    Does setup (copyChunks part chunks)
      (fun _ l' g' => l' = l ∧ Writing before base part k l g') (Stopped before part) l g := by
  induction chunks generalizing g with
  | nil =>
    refine does_quiet h.stopped (fun a d' he => ?_) rfl fun _ => ⟨rfl, h⟩
    cases he
    rfl
  | cons chunk chunks ih =>
    rw [copyChunks, does_bind]
    refine does_quiet h.stopped (fun a d' he => ?_) rfl fun _ => ?_
    · cases he
      rfl
    · rw [does_bind]
      exact does_write h fun g' h' => ih h'

/-- The temporary file gets the name of the target, and the target is recorded at once. -/
lemma Writing.linked (h : Writing before base part k l g) {t : Tree}
    (hfind : find g.1.tree part = some (.file k bytes))
    (ht : link g.1.tree part target = some t) (htarget : AllNamed target) :
    Ledger before (l.createdTargets ++ [(target, k)]) l.createdDirectories t g.1.nextInode
        g.1.nextName [part] ∧
      (part, .file k bytes) ∈ t ∧ (target, .file k bytes) ∈ t ∧ target ≠ part ∧
        ∀ x ∈ base, x ∈ t ∧ x.1 ≠ part := by
  obtain ⟨i, b, hsource, hinsert⟩ := link_eq_some ht
  cases hfind.symm.trans hsource
  obtain ⟨rfl, hfresh, -⟩ := insert_eq_some hinsert
  have hpart := mem_of_find hfind
  refine ⟨h.books.record_target hpart h.alone hinsert htarget.not_temporary,
    List.mem_append_left _ hpart, List.mem_append_right _ (List.mem_singleton_self _), ?_,
    fun x hx => ⟨List.mem_append_left _ (h.kept x hx).1, (h.kept x hx).2⟩⟩
  rintro rfl
  exact hfresh (mem_paths_of_mem hpart)

/-- The item is there as the manifest says. -/
def Done (setup : MediaSetup) (item : StagedObject) (d : Disk) : Prop :=
  ∃ k bytes, (item.targetPath, .file k bytes) ∈ d.tree ∧
    Matches setup item.byteCount item.sha256 bytes

lemma does_finish (h : Ledger before l.createdTargets l.createdDirectories g.1.tree g.1.nextInode
      g.1.nextName [part] ∧ (part, .file k bytes) ∈ g.1.tree ∧
        (item.targetPath, .file k bytes) ∈ g.1.tree ∧ item.targetPath ≠ part ∧
        ∀ x ∈ base, x ∈ g.1.tree ∧ x.1 ≠ part)
    (htrail : g.2 = { part := some part })
    (hmatches : Matches setup item.byteCount item.sha256 bytes) :
    Does setup (finishPart part item k)
      (fun _ l' g' => Published before base part l' g' ∧ Done setup item g'.1)
      (Stopped before part) l g := by
  obtain ⟨hbooks, hpart, htarget, hne, hkept⟩ := h
  obtain ⟨d, trail⟩ := g
  obtain rfl : trail = { part := some part } := htrail
  have hstopped : Stopped before part l (d, { part := some part }) :=
    ⟨hbooks, rfl, .inr ⟨rfl, k, bytes, hpart⟩⟩
  rw [finishPart, does_bind]
  refine does_quiet hstopped (fun a d' he => ?_) (by simp [Trail.after]) fun linkedState => ?_
  · simp only [exec] at he
    split at he
    · cases he
      rfl
    · cases he
  split
  · exact does_fail.mpr hstopped
  rw [does_bind]
  refine does_ask hstopped fun _ d' hexec => ?_
  simp only [exec, Disk.onTree] at hexec
  split at hexec
  · rename_i t ht
    cases hexec
    obtain rfl := unlink_eq_some ht
    have hafter : Trail.after { part := some part } (.unlink part) true = {} := by
      simp [Trail.after]
    rw [hafter]
    have hpublished : Published before base part l ({ d with tree := remove d.tree part }, {}) :=
      ⟨⟨hbooks.remove_part hpart, ⟨rfl, rfl⟩, fun x hx => mem_remove.mpr (hkept x hx)⟩,
        fun hin => (mem_paths_remove.mp hin).2 rfl⟩
    rw [does_bind]
    refine does_checkFile rfl hpublished.stopped fun k' bytes' _ _ => ?_
    split
    · exact does_fail.mpr hpublished.stopped
    · exact does_pure.mpr
        ⟨hpublished, k, bytes, mem_remove.mpr ⟨htarget, hne⟩, hmatches⟩
  · cases hexec

lemma does_publishPart (h : Published before base part l g) (htarget : AllNamed item.targetPath)
    (hname : ∀ q m, part = q ++ [.temporary m] → m < g.1.nextName) :
    Does setup (publishPart setup item part)
      (fun _ l' g' => Published before base part l' g' ∧ Done setup item g'.1)
      (Stopped before part) l g := by
  rw [publishPart, does_bind]
  refine does_quiet h.stopped (fun a d' he => ?_) rfl fun opened => ?_
  · simp only [exec] at he
    split at he
    · cases he
      rfl
    · cases he
  obtain ⟨sourceState, chunks⟩ := opened
  rw [does_bind, does_modify]
  have hopened := h.descriptors true l.target
  split
  · exact does_fail.mpr hopened.stopped
  rw [does_bind]
  refine does_createFile hopened hname fun k g' hwriting => ?_
  rw [does_bind, does_modify, does_bind]
  refine (does_copyChunks (hwriting.descriptors true true)).mono ?_ fun _ _ h => h
  rintro _ l' g' ⟨rfl, hwriting⟩
  rw [does_bind]
  refine does_quiet hwriting.stopped (fun a d' he => ?_) rfl fun _ => ?_
  · cases he
    rfl
  rw [does_bind]
  refine does_quiet hwriting.stopped (fun a d' he => ?_) rfl fun _ => ?_
  · cases he
    rfl
  rw [does_bind, does_modify, does_bind]
  have hclosed := hwriting.descriptors true false
  have hmade : g'.2.made = none := by rw [hwriting.trail]
  refine does_checkContent hmade hclosed.stopped fun k' bytes hfind hmatches => ?_
  obtain ⟨bytes', hpart⟩ := hwriting.file
  cases node_unique hwriting.books.nodup (mem_of_find hfind) hpart
  rw [does_bind]
  refine does_ask hclosed.stopped fun _ d' hexec => ?_
  simp only [exec, Disk.onTree] at hexec
  split at hexec
  · rename_i t ht
    cases hexec
    rw [does_bind, does_modify]
    exact does_finish (hclosed.linked hfind ht htarget) hwriting.trail hmatches
  · cases hexec

lemma does_closeIf {b : Bool} {Q : Unit → Locals → Disk × Trail → Prop}
    {R : Locals → Disk × Trail → Prop} (hR : R l g) (hQ : Q ⟨⟩ l g) :
    Does setup (closeIf b) Q R l g := by
  cases b with
  | false => exact does_pure.mpr hQ
  | true =>
    apply does_dropOs
    refine does_quiet ⟨hQ, hR⟩ (fun a d' he => ?_) rfl fun _ => hQ
    cases he
    rfl

/-- The `finally` changes nothing when there is no temporary file. -/
lemma does_cleanPart_absent {Q : Unit → Locals → Disk × Trail → Prop}
    {R : Locals → Disk × Trail → Prop} (hpart : part ∉ paths g.1.tree) (hR : ∀ a b, R
      { l with source := a, target := b } g)
    (hQ : Q ⟨⟩ { l with source := false, target := false } g) :
    Does setup (cleanPart part) Q R l g := by
  rw [cleanPart, does_bind, does_get, does_bind]
  refine does_closeIf (hR l.source l.target) ?_
  rw [does_bind, does_get, does_bind]
  refine does_closeIf (hR l.source l.target) ?_
  rw [does_bind, does_modify, does_bind]
  refine does_lexists (hR _ _) ?_ fun hin => absurd hin hpart
  exact does_pure.mpr hQ

/-- Wherever the `try` stopped, the `finally` leaves the temporary file only when its removal, or
the look for it, is refused. -/
lemma does_cleanPart (h : Stopped before part l g) :
    Does setup (cleanPart part) (fun _ l' g' => Rest before l' g') (Rest before) l g := by
  have hdescriptors : ∀ a b, Stopped before part { l with source := a, target := b } g :=
    fun _ _ => ⟨h.books, h.made, h.file⟩
  rw [cleanPart, does_bind, does_get, does_bind]
  refine does_closeIf h.rest ?_
  rw [does_bind, does_get, does_bind]
  refine does_closeIf h.rest ?_
  rw [does_bind, does_modify, does_bind]
  have hstopped := hdescriptors false false
  refine does_lexists hstopped.rest (does_pure.mpr hstopped.rest) fun hin => ?_
  rw [if_pos rfl]
  apply does_dropOs
  refine does_ask ⟨hstopped.rest, hstopped.rest⟩ fun _ d' hexec => ?_
  simp only [exec, Disk.onTree] at hexec
  split at hexec
  · rename_i t ht
    cases hexec
    obtain rfl := unlink_eq_some ht
    obtain ⟨d, made, part'⟩ := g
    obtain rfl : made = none := h.made
    rcases h.file with ⟨-, hnot⟩ | ⟨hpart, k, bytes, hfile⟩
    · exact absurd hin hnot
    · obtain rfl : part' = some part := hpart
      have hafter : Trail.after { part := some part } (.unlink part) true = {} := by
        simp [Trail.after]
      rw [hafter]
      exact Ledger.remove_part h.books hfile
  · cases hexec

/-- One file: what was there stays, the temporary file is removed, and the target is as the
manifest says. -/
lemma does_publishOne (h : Settled before base l g) (htarget : AllNamed item.targetPath) :
    Does setup (publishOne setup item)
      (fun _ l' g' => Settled before base l' g' ∧ Done setup item g'.1) (Rest before) l g := by
  rw [publishOne]
  split
  · rw [does_bind]
    refine does_checkContent h.tidy.1 h.rest fun k bytes hfind hmatches => ?_
    exact does_pure.mpr ⟨h, k, bytes, mem_of_find hfind, hmatches⟩
  rw [does_bind]
  refine does_lexists h.rest ?_ fun _ => ?_
  swap
  · exact does_fail.mpr h.rest
  rw [if_neg Bool.false_ne_true, does_bind]
  refine does_quiet h.rest (fun a d' he => ?_) rfl fun _ => ?_
  · cases he
    rfl
  rw [does_bind]
  have hcontained : ∀ {d d' : Disk} {p a : Path},
      exec setup (.containedPath p) d = (.ok a, d') → d' = d := by
    intro d d' p a he
    simp only [exec] at he
    split at he
    · cases he
    · cases he
      rfl
  refine does_quiet h.rest (fun a d' he => hcontained he) rfl fun contained => ?_
  split
  · exact does_fail.mpr h.rest
  rw [does_bind]
  refine (does_ensureParents htarget.dropLast h).mono (fun _ l g h => ?_) fun _ _ h => h
  rw [does_bind]
  refine does_quiet h.rest (fun a d' he => hcontained he) rfl fun contained => ?_
  split
  · exact does_fail.mpr h.rest
  rw [does_bind]
  refine does_ask h.rest fun name d' he => ?_
  cases he
  have hpublished : Published before base
      (item.targetPath.dropLast ++ [.temporary g.1.nextName]) l
      ({ g.1 with nextName := g.1.nextName + 1 }, g.2) :=
    ⟨⟨h.books.name_succ, h.tidy, h.kept⟩,
      fun hin => Nat.lt_irrefl _ (h.books.names _ _ hin)⟩
  have hname : ∀ q m, item.targetPath.dropLast ++ [Name.temporary g.1.nextName] =
      q ++ [.temporary m] → m < g.1.nextName + 1 := by
    intro q m heq
    obtain ⟨-, hlast⟩ := List.append_inj' heq rfl
    cases hlast
    exact Nat.lt_succ_self _
  apply does_ensure
  apply does_onOs
  refine (does_publishPart hpublished htarget hname).mono ?_ fun _ _ h => does_cleanPart h
  rintro _ l' g' ⟨hsettled, hdone⟩
  refine does_cleanPart_absent hsettled.absent (fun a b => ?_) ?_
  · exact (hsettled.descriptors a b).toSettled.rest
  · exact ⟨(hsettled.descriptors false false).toSettled, hdone⟩

end One

lemma Done.mono {item : StagedObject} {d d' : Disk} (h : Done setup item d)
    (hkept : ∀ x ∈ d.tree, x ∈ d'.tree) : Done setup item d' := by
  obtain ⟨k, bytes, hmem, hmatches⟩ := h
  exact ⟨k, bytes, hkept _ hmem, hmatches⟩

/-- The loop of `publish`. -/
lemma does_publishAll {items : List StagedObject} {created : ℕ} {base : Tree}
    (hnamed : ∀ item ∈ items, AllNamed item.targetPath) (h : Settled before base l g) :
    Does setup (publishAll setup items created)
      (fun _ l' g' => Settled before base l' g' ∧ ∀ item ∈ items, Done setup item g'.1)
      (Rest before) l g := by
  induction items generalizing created base l g with
  | nil => exact does_pure.mpr ⟨h, fun item hitem => (List.not_mem_nil hitem).elim⟩
  | cons item items ih =>
    rw [publishAll, does_bind]
    refine (does_publishOne h (hnamed item (List.mem_cons_self ..))).mono ?_ fun _ _ h => h
    rintro made l' g' ⟨hsettled, hdone⟩
    -- From here on everything that is in the tree stays there.
    have hbase : Settled before g'.1.tree l' g' := ⟨hsettled.books, hsettled.tidy, fun x hx => hx⟩
    refine (ih (fun x hx => hnamed x (List.mem_cons_of_mem _ hx)) hbase).mono ?_ fun _ _ h => h
    rintro _ l'' g'' ⟨hrest, hitems⟩
    refine ⟨⟨hrest.books, hrest.tidy, fun x hx => hrest.kept x (hsettled.kept x hx)⟩,
      fun x hx => ?_⟩
    rcases List.mem_cons.mp hx with rfl | hx
    · exact hdone.mono hrest.kept
    · exact hitems x hx

lemma does_publish {items : List StagedObject}
    (hnamed : ∀ item ∈ items, AllNamed item.targetPath) (h : Settled before before l g) :
    Does setup (publish setup items)
      (fun _ l' g' => Rest before l' g' ∧ ∀ item ∈ items, Done setup item g'.1)
      (Rest before) l g := by
  rw [publish, does_bind, does_get]
  split
  · exact does_fail.mpr h.rest
  rw [does_bind]
  refine (does_publishAll hnamed h).mono ?_ fun _ _ h => h
  rintro _ l' g' ⟨hsettled, hitems⟩
  rw [does_bind, does_modify, does_pure]
  exact ⟨hsettled.rest, hitems⟩

/-! ## Rollback -/

section Rollback

variable {ts ds : List (Path × ℕ)} {d : Disk} {loose : List Path}

/-- A call that is served. -/
lemma served_ask {i : MediaCall} {a : i.Result} {d' : Disk}
    {Q : i.Result → Locals → Disk → Prop} {E : MediaFault → Locals → Disk → Prop}
    (hexec : exec setup i d = (.ok a, d')) (hQ : Q a l d') :
    Meets ((machine setup).served ()) (ask i) Q E l d := by
  refine meets_perform.mpr ⟨trivial, fun r d'' hn => ?_⟩
  cases hexec.symm.trans hn
  exact hQ

lemma served_onOs {x : Code α} {issue : String} {Q : α → Locals → Disk → Prop}
    (h : Meets ((machine setup).served ()) x Q (fun _ _ _ => False) l d) :
    Meets ((machine setup).served ()) (onOs issue x) Q (fun _ _ _ => False) l d := by
  rw [onOs, meets_tryCatch]
  exact Meets.mono h (fun _ _ _ hQ => hQ) fun _ _ _ hfalse => hfalse.elim

/-- The targets are removed, the last first. -/
lemma served_removeTargets (h : Ledger before ts ds d.tree d.nextInode d.nextName []) :
    Meets ((machine setup).served ()) (removeTargets ts.reverse)
      (fun _ l' d' => l' = l ∧ Ledger before [] ds d'.tree d'.nextInode d'.nextName [])
      (fun _ _ _ => False) l d := by
  induction ts using List.reverseRecOn generalizing d with
  | nil => exact ⟨rfl, h⟩
  | append_singleton ts x ih =>
    obtain ⟨p, k⟩ := x
    obtain ⟨⟨bytes, hfile⟩, hlinks, hrest⟩ := h.pop_target
    have hfind := (find_eq_some h.nodup).mpr hfile
    rw [List.reverse_append, List.reverse_singleton, List.singleton_append, removeTargets,
      meets_bind, checkFile, meets_bind]
    apply served_onOs
    have hstat : exec setup (.stat p) d = (.ok (fileState d.tree (.file k bytes)), d) := by
      simp [exec, hfind]
    refine served_ask hstat ?_
    rw [if_neg (by simp [fileState, hlinks]), meets_pure, if_neg (by simp [fileState]), meets_bind]
    have hunlink : exec setup (.unlink p) d = (.ok (), { d with tree := remove d.tree p }) := by
      simp [exec, Disk.onTree, unlink, hfind]
    refine served_ask hunlink ?_
    exact ih hrest

/-- The directories are empty once the targets are gone, and are removed, the last first. -/
lemma served_removeDirectories (h : Ledger before [] ds d.tree d.nextInode d.nextName [])
    (hclosed : ∀ x ∈ before, x.1 = [] ∨ x.1.dropLast ∈ paths before)
    (hroot : [] ∈ paths before) :
    Meets ((machine setup).served ()) (removeDirectories ds.reverse)
      (fun _ l' d' => l' = l ∧ d'.tree = before) (fun _ _ _ => False) l d := by
  induction ds using List.reverseRecOn generalizing d with
  | nil => exact ⟨rfl, h.eq_before⟩
  | append_singleton ds x ih =>
    obtain ⟨p, k⟩ := x
    obtain ⟨hdirectory, hchild, hrest⟩ := h.pop_directory hclosed hroot
    have hfind := (find_eq_some h.nodup).mpr hdirectory
    have hempty : isEmpty d.tree p = true := by
      rw [isEmpty, List.all_eq_true]
      intro x hx
      simpa using hchild x hx
    rw [List.reverse_append, List.reverse_singleton, List.singleton_append, removeDirectories,
      meets_bind, checkDirectory, meets_bind]
    apply served_onOs
    have hstat : exec setup (.stat p) d = (.ok (fileState d.tree (.directory k)), d) := by
      simp [exec, hfind]
    refine served_ask hstat ?_
    rw [if_neg (by simp [fileState]), meets_pure, if_neg (by simp [fileState]), meets_bind]
    have hscan : exec setup (.scandir p) d = (.ok true, d) := by simp [exec, hempty]
    refine served_ask hscan ?_
    rw [if_pos rfl, meets_bind]
    have hrmdir : exec setup (.rmdir p) d = (.ok (), { d with tree := remove d.tree p }) := by
      simp [exec, Disk.onTree, removeDirectory, hfind, hempty]
    refine served_ask hrmdir ?_
    exact ih hrest

/-- When nothing is loose, the rollback restores the tree. -/
lemma rollback_restores (h : Books before l d [])
    (hclosed : ∀ x ∈ before, x.1 = [] ∨ x.1.dropLast ∈ paths before)
    (hroot : [] ∈ paths before) :
    ((rollback.prog l).serve (machine setup) () d).2.tree = before := by
  have hmeets : Meets ((machine setup).served ()) rollback (fun _ _ d' => d'.tree = before)
      (fun _ _ _ => False) l d := by
    rw [rollback]
    apply served_onOs
    rw [meets_bind, meets_get, meets_bind]
    refine (served_removeTargets h).mono ?_ fun _ _ _ hfalse => hfalse
    rintro _ l' d' ⟨rfl, hledger⟩
    rw [meets_bind, meets_modify, meets_bind, meets_get, meets_bind]
    refine (served_removeDirectories hledger hclosed hroot).mono ?_ fun _ _ _ hfalse => hfalse
    rintro _ l'' d'' ⟨rfl, htree⟩
    rw [meets_bind, meets_modify, meets_pure]
    exact htree
  have hend := Prog.serve_of_follows hmeets
  revert hend
  rcases (rollback.prog l).serve (machine setup) () d with ⟨⟨r, l'⟩, d'⟩
  cases r with
  | ok b => exact fun hend => hend
  | error e => exact fun hend => hend.elim

/-- The tree has grown from the one before, and the loose paths are there. -/
def Holds (before : Tree) (loose : List Path) (d : Disk) : Prop :=
  before <+: d.tree ∧ ∀ p ∈ loose, p ∈ paths d.tree

/-- None of the entries is to be removed. -/
def Spares (before : Tree) (loose : List Path) (entries : List (Path × ℕ)) : Prop :=
  ∀ x ∈ entries, x.1 ∉ paths before ∧ x.1 ∉ loose

lemma Holds.remove (h : Holds before loose d) (hbefore : p ∉ paths before) (hloose : p ∉ loose) :
    Holds before loose { d with tree := remove d.tree p } :=
  ⟨prefix_remove h.1 hbefore, fun q hq => mem_paths_remove.mpr ⟨h.2 q hq, fun heq =>
    hloose (heq ▸ hq)⟩⟩

/-- The same, with the evidence as it was. -/
def HoldsAt (before : Tree) (loose : List Path) (l l' : Locals) (d : Disk) : Prop :=
  l' = l ∧ Holds before loose d

lemma keeps_look {i : MediaCall} (h : ∀ d, (exec setup i d).2.tree = d.tree) :
    Keeps ((machine setup).served ()) (HoldsAt before loose l) (ask i) := by
  refine keeps_perform fun l' d hd => ⟨trivial, fun r d' hn => ?_⟩
  have htree : d'.tree = d.tree := by
    rw [← h d, show exec setup i d = (r, d') from hn]
  rwa [HoldsAt, Holds, htree]

lemma keeps_removal {i : MediaCall} (hp : p ∉ paths before ∧ p ∉ loose)
    (h : ∀ d, (exec setup i d).2 = d ∨ (exec setup i d).2 = { d with tree := remove d.tree p }) :
    Keeps ((machine setup).served ()) (HoldsAt before loose l) (ask i) := by
  refine keeps_perform fun l' d hd => ⟨trivial, fun r d' hn => ?_⟩
  have hn : exec setup i d = (r, d') := hn
  have hcases := h d
  rw [hn] at hcases
  rcases hcases with rfl | rfl
  · exact hd
  · exact ⟨hd.1, hd.2.remove hp.1 hp.2⟩

lemma keeps_stat : Keeps ((machine setup).served ()) (HoldsAt before loose l)
    (ask (.stat p)) := by
  refine keeps_look fun d => ?_
  simp only [exec]
  split <;> rfl

lemma keeps_onOs {x : Code α} {issue : String} {I : Locals → Disk → Prop}
    (h : Keeps ((machine setup).served ()) I x) :
    Keeps ((machine setup).served ()) I (onOs issue x) := by
  refine keeps_tryCatch h fun e => ?_
  split
  · exact keeps_throw
  · exact keeps_throw

lemma keeps_checkFile :
    Keeps ((machine setup).served ()) (HoldsAt before loose l) (checkFile p) := by
  refine keeps_bind (keeps_onOs keeps_stat) fun state => ?_
  exact keeps_ite keeps_throw keeps_pure

lemma keeps_checkDirectory :
    Keeps ((machine setup).served ()) (HoldsAt before loose l) (checkDirectory p) := by
  refine keeps_bind (keeps_onOs keeps_stat) fun state => ?_
  exact keeps_ite keeps_throw keeps_pure

lemma keeps_removeTargets (h : Spares before loose ts) :
    Keeps ((machine setup).served ()) (HoldsAt before loose l) (removeTargets ts) := by
  induction ts with
  | nil => exact keeps_pure
  | cons x ts ih =>
    refine keeps_bind keeps_checkFile fun state => keeps_ite keeps_throw (keeps_bind ?_ fun _ => ?_)
    · refine keeps_removal (h x (List.mem_cons_self ..)) fun d => ?_
      simp only [exec, Disk.onTree]
      split
      · rename_i t ht
        exact .inr (by rw [unlink_eq_some ht])
      · exact .inl rfl
    · exact ih fun y hy => h y (List.mem_cons_of_mem _ hy)

lemma keeps_removeDirectories (h : Spares before loose ds) :
    Keeps ((machine setup).served ()) (HoldsAt before loose l)
      (removeDirectories ds) := by
  induction ds with
  | nil => exact keeps_pure
  | cons x ds ih =>
    refine keeps_bind keeps_checkDirectory fun state => keeps_ite keeps_throw ?_
    refine keeps_bind (keeps_look fun d => rfl) fun empty => ?_
    refine keeps_ite (keeps_bind ?_ fun _ => ?_) keeps_throw
    · refine keeps_removal (h x (List.mem_cons_self ..)) fun d => ?_
      simp only [exec, Disk.onTree]
      split
      · rename_i t ht
        exact .inr (by rw [removeDirectory_eq_some ht])
      · exact .inl rfl
    · exact ih fun y hy => h y (List.mem_cons_of_mem _ hy)

/-- However a rollback ends, what was there before is there, and so is what is loose. -/
lemma rollback_holds (h : Books before l d loose) :
    Holds before loose ((rollback.prog l).serve (machine setup) () d).2 := by
  have hts : Spares before loose l.createdTargets := fun x hx =>
    ⟨(h.targets x hx).2.1, fun hin => (h.unrecorded _ hin).2.2.2 x hx rfl⟩
  have hds : Spares before loose l.createdDirectories := fun x hx =>
    ⟨(h.directories x hx).2, fun hin => (h.unrecorded _ hin).2.2.1 x hx rfl⟩
  have hmeets : Meets ((machine setup).served ()) rollback (fun _ _ d' => Holds before loose d')
      (fun _ _ d' => Holds before loose d') l d := by
    have hraise : ∀ (e : MediaFault) (l' : Locals) (d' : Disk), HoldsAt before loose l l' d' →
        Meets ((machine setup).served ())
          (if e = .os then fail "restore_media_rollback_failed" else throw e : Code Bool)
          (fun _ _ d' => Holds before loose d') (fun _ _ d' => Holds before loose d') l' d' := by
      intro e l' d' hd
      split
      · exact meets_throw.mpr hd.2
      · exact meets_throw.mpr hd.2
    have hstart : HoldsAt before loose l l d := ⟨rfl, h.grown, fun p hp => (h.unrecorded p hp).1⟩
    rw [rollback, onOs, meets_tryCatch, meets_bind, meets_get, meets_bind]
    refine (keeps_removeTargets (fun x hx => hts x (List.mem_reverse.mp hx)) l d hstart).mono ?_
      hraise
    rintro _ l' d' ⟨rfl, hd⟩
    rw [meets_bind, meets_modify, meets_bind, meets_get, meets_bind]
    refine (keeps_removeDirectories (fun x hx => hds x (List.mem_reverse.mp hx)) _ d'
      ⟨rfl, hd⟩).mono ?_ fun e l'' d'' hd'' => ?_
    · rintro _ l'' d'' ⟨-, hd''⟩
      rw [meets_bind, meets_modify, meets_pure]
      exact hd''
    · split
      · exact meets_throw.mpr hd''.2
      · exact meets_throw.mpr hd''.2
  have hend := Prog.serve_of_follows hmeets
  revert hend
  rcases (rollback.prog l).serve (machine setup) () d with ⟨⟨r, l'⟩, d'⟩
  cases r with
  | ok b => exact fun hend => hend
  | error e => exact fun hend => hend

end Rollback

/-! ## Staging -/

/-- The tree under the media root is the one of the start. -/
structure Untouched (start : Disk) (g : Disk × Trail) : Prop where
  tree : g.1.tree = start.tree
  inode : start.nextInode ≤ g.1.nextInode
  name : start.nextName ≤ g.1.nextName
  trail : g.2 = {}

/-- The calls that only look at the tree. -/
def MediaCall.looks : MediaCall → Bool
  | .mkdir _ | .createFile _ | .write .. | .link .. | .unlink _ | .rmdir _ => false
  | _ => true

section Stage

variable {start : Disk}

lemma Untouched.valid (h : Untouched start g) (hvalid : start.Valid) : g.1.Valid := by
  obtain ⟨htree, hinode, hname, -⟩ := h
  refine ⟨?_, ?_, ?_, fun x hx i hi => ?_, fun p n hp => ?_⟩
  · rw [htree]
    exact hvalid.nodup
  · rw [htree]
    exact hvalid.closed
  · rw [htree]
    exact hvalid.root
  · rw [htree] at hx
    exact (hvalid.inodes x hx i hi).trans_le hinode
  · rw [htree] at hp
    exact (hvalid.names p n hp).trans_le hname

lemma exec_looks {i : MediaCall} (hi : i.looks = true) {d d' : Disk}
    {r : Except MediaFault i.Result} (h : exec setup i d = (r, d')) :
    d'.tree = d.tree ∧ d.nextInode ≤ d'.nextInode ∧ d.nextName ≤ d'.nextName := by
  cases i <;> first | exact absurd hi Bool.false_ne_true | skip
  all_goals
    simp only [exec] at h
    first | (cases h) | (split at h <;> cases h)
  all_goals exact ⟨rfl, by simp, by simp⟩

lemma does_look {i : MediaCall} {Q : i.Result → Locals → Disk × Trail → Prop}
    (hi : i.looks = true) (h : Untouched start g)
    (hQ : ∀ a g', Untouched start g' → Q a l g') :
    Does setup (ask i) Q (fun _ g => Untouched start g) l g := by
  refine does_ask h fun a d' hexec => hQ a _ ?_
  obtain ⟨htree, hinode, hname⟩ := exec_looks hi hexec
  refine ⟨htree.trans h.tree, h.inode.trans hinode, h.name.trans hname, ?_⟩
  rw [h.trail]
  cases i <;> first | rfl | exact absurd hi Bool.false_ne_true

lemma does_dropErrors {x : Code Unit} {Q : Unit → Locals → Disk × Trail → Prop}
    {R : Locals → Disk × Trail → Prop} (h : Does setup x Q (fun l g => Q ⟨⟩ l g ∧ R l g) l g) :
    Does setup (dropErrors x) Q R l g := by
  rw [Does, dropErrors, meets_tryCatch]
  refine Meets.mono h (fun _ _ _ hQ => hQ) fun e l g hR => ?_
  split
  · exact hR.2
  · exact hR.1

lemma does_writeChunks {ordinal expectedBytes : ℕ} {chunks : List Bytes} {written : Bytes}
    (h : Untouched start g) :
    Does setup (writeChunks ordinal expectedBytes chunks written)
      (fun _ l' g' => l' = l ∧ Untouched start g') (fun _ g => Untouched start g) l g := by
  induction chunks generalizing written g with
  | nil =>
    rw [writeChunks, does_bind]
    exact does_look rfl h fun _ g' h' => does_pure.mpr ⟨rfl, h'⟩
  | cons chunk chunks ih =>
    rw [writeChunks, does_bind]
    refine does_look rfl h fun _ g' h' => ?_
    split
    · exact does_fail.mpr h'
    · rw [does_bind]
      exact does_look rfl h' fun _ g'' h'' => ih h''

lemma does_writeStaged {reader : List Bytes} {ordinal expectedBytes : ℕ} {sha256 : String}
    (h : Untouched start g) :
    Does setup (writeStaged setup reader ordinal expectedBytes sha256)
      (fun _ l' g' => l' = l ∧ Untouched start g') (fun _ g => Untouched start g) l g := by
  have hclose : ∀ (Q : Locals → Disk × Trail → Prop) (l' : Locals) (g' : Disk × Trail),
      Untouched start g' → (∀ g'', Untouched start g'' → Q l' g'') →
      Does setup (dropOs (ask .close)) (fun _ l g => Q l g) (fun _ g => Untouched start g)
        l' g' := by
    intro Q l' g' h' hQ
    apply does_dropOs
    refine does_quiet ⟨hQ g' h', h'⟩ (fun a d' he => ?_) ?_ fun _ => hQ g' h'
    · cases he
      rfl
    · rfl
  apply does_onOs
  rw [does_bind]
  refine does_look rfl h fun identity g' h' => ?_
  apply does_ensure
  rw [does_bind]
  refine (does_writeChunks h').mono ?_ fun l g h => hclose _ l g h fun _ h => h
  rintro written l' g'' ⟨rfl, h''⟩
  rw [does_bind]
  have hquiet : ∀ {Q : Unit → Locals → Disk × Trail → Prop}
      {R : Locals → Disk × Trail → Prop}, R l' g'' → Q ⟨⟩ l' g'' →
      Does setup (ask .fsync) Q R l' g'' := by
    intro Q R hR hQ
    refine does_quiet hR (fun a d' he => ?_) rfl fun _ => hQ
    cases he
    rfl
  refine hquiet (hclose _ l' g'' h'' fun _ h => h) ?_
  split
  · exact does_fail.mpr (hclose _ l' g'' h'' fun _ h => h)
  · exact does_pure.mpr (hclose _ l' g'' h'' fun g h => ⟨rfl, h⟩)

/-- What staging makes of an item. -/
def StagedAs (item : ManifestMedia) (o : StagedObject) : Prop :=
  o.storageName = item.storageName ∧ o.byteCount = item.byteCount ∧ o.sha256 = item.sha256 ∧
    o.targetPath = item.storageName.path

lemma does_stageOne {ordinal : ℕ} {item : ManifestMedia} (h : Untouched start g) :
    Does setup (stageOne setup ordinal item)
      (fun _ l' g' => Untouched start g' ∧ ∃ o, StagedAs item o ∧ l'.objects = l.objects ++ [o])
      (fun _ g => Untouched start g) l g := by
  have hmade : g.2.made = none := by rw [h.trail]
  rw [stageOne, does_bind]
  refine does_ask h fun target d' hexec => ?_
  simp only [exec] at hexec
  split at hexec
  · cases hexec
  cases hexec
  rw [does_bind]
  have hrest : ∀ reuse, Does setup (do
      let reader ← ask (.openEntry item.packagePath)
      let identity ← Routine.ensure
        (writeStaged setup reader ordinal item.byteCount item.sha256) (ask .closeEntry)
      modify fun l =>
        { l with
          objects := l.objects ++ [⟨item.storageName, item.byteCount, item.sha256, ordinal,
            identity, item.storageName.path, reuse⟩] })
      (fun _ l' g' => Untouched start g' ∧ ∃ o, StagedAs item o ∧ l'.objects = l.objects ++ [o])
      (fun _ g => Untouched start g) l g := by
    intro reuse
    rw [does_bind]
    refine does_look rfl h fun reader g' h' => ?_
    rw [does_bind]
    apply does_ensure
    refine (does_writeStaged h').mono ?_ fun l g h => does_look rfl h fun _ g' h' => h'
    rintro identity l' g'' ⟨rfl, h''⟩
    refine does_look rfl h'' fun _ g' h' => ?_
    rw [does_modify]
    exact ⟨h', _, ⟨rfl, rfl, rfl, rfl⟩, rfl⟩
  refine does_lexists h ?_ fun _ => ?_
  · rw [if_neg Bool.false_ne_true, does_bind, does_pure]
    exact hrest false
  · rw [if_pos rfl, does_bind]
    refine does_checkContent hmade h fun k bytes _ _ => ?_
    rw [does_bind, does_pure]
    exact hrest true

lemma does_stageAll {ordinal : ℕ} {items : List ManifestMedia} (h : Untouched start g) :
    Does setup (stageAll setup ordinal items)
      (fun _ l' g' => Untouched start g' ∧
        ∃ os, List.Forall₂ StagedAs items os ∧ l'.objects = l.objects ++ os)
      (fun _ g => Untouched start g) l g := by
  induction items generalizing ordinal l g with
  | nil => exact does_pure.mpr ⟨h, [], .nil, (List.append_nil _).symm⟩
  | cons item items ih =>
    rw [stageAll, does_bind]
    refine (does_stageOne h).mono ?_ fun _ _ h => h
    rintro _ l' g' ⟨h', o, ho, hl'⟩
    refine (ih h').mono ?_ fun _ _ h => h
    rintro _ l'' g'' ⟨h'', os, hos, hl''⟩
    refine ⟨h'', o :: os, .cons ho hos, ?_⟩
    rw [hl'', hl', List.append_assoc, List.singleton_append]

lemma does_discardAll {items : List StagedObject} (h : Untouched start g) :
    Does setup (discardAll items) (fun _ _ g' => Untouched start g')
      (fun _ g => Untouched start g) l g := by
  induction items generalizing l g with
  | nil => exact does_pure.mpr h
  | cons item items ih =>
    rw [discardAll, does_bind, discard]
    apply does_dropErrors
    rw [does_bind]
    apply does_onOs
    have hlook : ∀ {i : MediaCall} {Q : i.Result → Locals → Disk × Trail → Prop} {l : Locals}
        {g : Disk × Trail}, i.looks = true → Untouched start g →
        (∀ a g', Untouched start g' → Q a l g') →
        Does setup (ask i) Q (fun l g => Does setup (discardAll items)
          (fun _ _ g' => Untouched start g') (fun _ g => Untouched start g) l g ∧
            Untouched start g) l g := by
      intro i Q l g hi h hQ
      exact (does_look hi h hQ).mono (fun _ _ _ hQ => hQ) fun l g h => ⟨ih h, h⟩
    refine hlook rfl h fun current g' h' => ?_
    split
    · exact hlook rfl h' fun _ g'' h'' => ih h''
    · exact does_pure.mpr (ih h')

/-- What `stage` removes after a failure lies outside the media root. -/
lemma does_abandon {Q : Unit → Locals → Disk × Trail → Prop} (h : Untouched start g)
    (hQ : ∀ l g, Untouched start g → Q ⟨⟩ l g) :
    Does setup abandon Q (fun _ g => Untouched start g) l g := by
  rw [abandon, does_bind, does_get, does_bind]
  refine (does_discardAll h).mono ?_ fun _ _ h => h
  intro _ l g h
  apply does_dropErrors
  have hleave : ∀ {x : Code Unit} {g : Disk × Trail},
      Does setup x (fun _ _ g => Untouched start g) (fun _ g => Untouched start g) l g →
      Does setup x Q (fun l g => Q ⟨⟩ l g ∧ Untouched start g) l g :=
    fun h => h.mono (fun _ => hQ) fun l g h => ⟨hQ l g h, h⟩
  apply hleave
  have hcleanup : ∀ {l : Locals} {g : Disk × Trail}, Untouched start g →
      Does setup (ask .cleanupWorkspace) (fun _ _ g => Untouched start g)
        (fun _ g => Untouched start g) l g :=
    fun h => does_look rfl h fun _ _ h => h
  rw [does_bind]
  have hthere : Does setup (lexists (ask .lstatArea)) (fun _ _ g => Untouched start g)
      (fun _ g => Untouched start g) l g := by
    have hlook : Does setup (do ask .lstatArea; pure true : Code Bool)
        (fun _ _ g => Untouched start g) (fun _ g => Untouched start g) l g := by
      rw [does_bind]
      exact does_look rfl h fun _ _ h => does_pure.mpr h
    rw [lexists, Does, meets_tryCatch]
    refine Meets.mono hlook (fun _ _ _ h => h) fun e l g h => ?_
    split
    · exact h
    · exact h
  refine hthere.mono ?_ fun _ _ h => h
  intro there l g h
  cases there with
  | false => exact hcleanup h
  | true =>
    rw [if_pos rfl, does_bind]
    refine does_look rfl h fun empty g h => ?_
    cases empty with
    | false => exact hcleanup h
    | true =>
      rw [if_pos rfl, does_bind]
      exact does_look rfl h fun _ _ h => hcleanup h

/-- Staging leaves the media root alone, and its result lists the items of the manifest. -/
lemma does_stage {known : Bool} {media : List ManifestMedia} {names : List StorageName}
    (h : Untouched start g) (hl : l.objects = []) :
    Does setup (stage setup known media names)
      (fun objects _ g' => Untouched start g' ∧
        List.Forall₂ StagedAs (sortedManifest media) objects)
      (fun _ g => Untouched start g) l g := by
  rw [stage, does_bind, manifestMedia]
  split
  swap
  · exact does_fail.mpr h
  rw [does_pure]
  split
  · exact does_fail.mpr h
  split
  · exact does_fail.mpr h
  rw [does_bind]
  refine does_look rfl h fun _ g h => ?_
  rw [does_bind]
  refine does_look rfl h fun _ g h => ?_
  have hmain : Does setup (do
        ask .makeArea
        stageAll setup 1 (sortedManifest media)
        pure (← get).objects)
      (fun objects _ g' => Untouched start g' ∧
        List.Forall₂ StagedAs (sortedManifest media) objects)
      (fun _ g => Untouched start g) l g := by
    rw [does_bind]
    refine does_look rfl h fun _ g h => ?_
    rw [does_bind]
    refine (does_stageAll h).mono ?_ fun _ _ h => h
    rintro _ l' g' ⟨h', objects, hobjects, hl'⟩
    rw [does_bind, does_get, does_pure, hl', hl, List.nil_append]
    exact ⟨h', hobjects⟩
  rw [Does, meets_tryCatch]
  refine Meets.mono hmain (fun _ _ _ h => h) fun e l g h => ?_
  rw [meets_bind]
  refine does_abandon h fun l g h => ?_
  exact meets_throw.mpr h

end Stage

lemma exists_staged {items : List ManifestMedia} {objects : List StagedObject}
    (h : List.Forall₂ StagedAs items objects) :
    (∀ item ∈ items, ∃ o ∈ objects, StagedAs item o) ∧
      ∀ o ∈ objects, ∃ item ∈ items, StagedAs item o := by
  induction h with
  | nil => simp
  | @cons item o items objects ho _ ih =>
    constructor
    · intro x hx
      rcases List.mem_cons.mp hx with rfl | hx
      · exact ⟨o, List.mem_cons_self .., ho⟩
      · obtain ⟨y, hy, hxy⟩ := ih.1 x hx
        exact ⟨y, List.mem_cons_of_mem _ hy, hxy⟩
    · intro y hy
      rcases List.mem_cons.mp hy with rfl | hy
      · exact ⟨item, List.mem_cons_self .., ho⟩
      · obtain ⟨x, hx, hxy⟩ := ih.2 y hy
        exact ⟨x, List.mem_cons_of_mem _ hx, hxy⟩

lemma StorageName.allNamed (s : StorageName) : AllNamed s.path := by
  intro n hn
  obtain ⟨segment, -, rfl⟩ := List.mem_map.mp hn
  exact ⟨segment, rfl⟩

lemma StagedAs.allNamed {item : ManifestMedia} {o : StagedObject} (h : StagedAs item o) :
    AllNamed o.targetPath := by
  rw [h.2.2.2]
  exact item.storageName.allNamed

/-! ## The whole restore -/

/-- Everything that was there before is there, as it was. -/
def Intact (before after : Tree) : Prop :=
  ∀ p n, find before p = some n → find after p = some n

/-- The file of an item is there and has the bytes of the manifest. -/
def Restored (setup : MediaSetup) (item : ManifestMedia) (t : Tree) : Prop :=
  ∃ k bytes, find t item.storageName.path = some (.file k bytes) ∧
    Matches setup item.byteCount item.sha256 bytes

/-- The disk after a rollback in which no call fails. -/
def undone (setup : MediaSetup) (l : Locals) (d : Disk) : Disk :=
  ((rollback.prog l).serve (machine setup) () d).2

/-- The machine, with the trail of its calls. -/
def journaled (setup : MediaSetup) :
    Machine Unit (Disk × Trail) MediaCall MediaCall.Result MediaFault where
  exec _ i g :=
    let r := exec setup i g.1
    (r.1, r.2, g.2.after i r.1.isOk)
  torn _ := false

lemma ends_of_play {α : Type} {p : Prog MediaCall MediaCall.Result MediaFault α}
    {g g' : Disk × Trail} {a : α} (cs : List (Answer MediaFault))
    (h : p.play (journaled setup) () g cs = some (a, g')) : Prog.Ends (journal setup) p g a g' := by
  have hruns := Prog.runs_of_play h
  clear h
  induction hruns with
  | done a g => exact .done a g
  | @call i k g u r a t c hc _ ih =>
    refine .call ⟨c, ?_⟩ ih
    cases c with
    | served =>
      cases hc
      exact ⟨rfl, rfl⟩
    | raised e =>
      cases hc
      exact ⟨rfl, (g.2.after_refused i).symm⟩
    | lost e =>
      cases hc
      exact ⟨rfl, (g.2.after_refused i).symm⟩

/-- A digest of the length of a real one, and one entry in the package. -/
def album : MediaSetup where
  sha256 _ := "0123456789abcdef0123456789abcdef0123456789abcdef0123456789abcdef"
  entry packagePath := if packagePath = "media/1" then some [[7], [8, 9]] else none

def albumDisk : Disk where
  tree := [([], .directory 0), ([.named "logo.png"], .file 1 [1])]
  nextInode := 2

def shirt : ManifestMedia where
  storageName := ⟨["products", "shirt.png"], by simp, by simp⟩
  byteCount := 3
  sha256 := "0123456789abcdef0123456789abcdef0123456789abcdef0123456789abcdef"
  packagePath := "media/1"

def stagedShirt : StagedObject :=
  ⟨shirt.storageName, shirt.byteCount, shirt.sha256, 1, 2, shirt.storageName.path, false⟩

/-- The disk after the shirt was staged. -/
def stagedDisk : Disk :=
  { albumDisk with
    nextInode := 3
    workspace := true
    area := true
    staged := [⟨1, 2, [[7], [8, 9]]⟩] }

lemma albumDisk_valid : albumDisk.Valid where
  nodup := by decide +kernel
  closed := by
    simp [albumDisk]
  root := ⟨0, List.mem_cons_self ..⟩
  inodes := by
    simp [albumDisk, Node.hasInode]
  names p n hp := by
    have hlast : p ++ [Name.temporary n] = [.named "logo.png"] := by
      simpa [albumDisk, paths] using hp
    simpa using congrArg List.getLast? hlast

lemma shirt_staged :
    Prog.Ends (journal album) ((stage album false [shirt] [shirt.storageName]).prog {})
      (albumDisk, {}) (.ok [stagedShirt], { objects := [stagedShirt] }) (stagedDisk, {}) :=
  ends_of_play (List.replicate 15 .served) rfl

/-- The answers of a publication that loses the disk right after the link of the target. -/
def lostAfterLink : List (Answer MediaFault) :=
  List.replicate 21 .served ++ .raised .os :: List.replicate 3 .served

/-- The answers of a publication whose first look at a new directory is refused. -/
def refusedLook : List (Answer MediaFault) := List.replicate 6 .served ++ [.raised .os]

end NexaPos.Backups.MediaRestore
