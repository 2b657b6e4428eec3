import Mathlib.Data.List.Nodup
import Mathlib.Tactic.Common

/-!
# A tree of files and directories

A tree is the list of its entries, in the order in which they were made.  A file is known by its
inode, and two entries of one inode are hard links of one file.  Every operation that makes an
entry appends it, and every operation that removes one leaves the others in their order; so a tree
that has only grown is an extension of the tree it has grown from, and removing what was added
gives that tree back.

An operation that is refused answers `none`.  The names that a generator of unique names yields
are a kind of their own, counted by the generator.
-/

namespace FileTree

inductive Name
  | named (s : String)
  | temporary (n : ℕ)
  deriving DecidableEq, Repr

abbrev Path := List Name

inductive Node
  | file (inode : ℕ) (bytes : List UInt8)
  | directory (inode : ℕ)
  /-- A symbolic link or a special file. -/
  | other
  deriving DecidableEq, Repr

abbrev Tree := List (Path × Node)

/-! ## Operations -/

/-- The entry at a path. -/
def find (t : Tree) (p : Path) : Option Node := (t.find? (·.1 == p)).map (·.2)

def Node.hasInode (i : ℕ) : Node → Bool
  | .file j _ => j == i
  | .directory j => j == i
  | .other => false

def Node.isFile (i : ℕ) : Node → Bool
  | .file j _ => j == i
  | _ => false

def Node.isDirectory : Node → Bool
  | .directory _ => true
  | _ => false

/-- The number of links of a file. -/
def links (t : Tree) (i : ℕ) : ℕ := t.countP fun x => x.2.isFile i

/-- A new entry can be made at the path. -/
def vacant (t : Tree) (p : Path) : Bool :=
  (find t p).isNone && (find t p.dropLast).any Node.isDirectory

def insert (t : Tree) (p : Path) (n : Node) : Option Tree :=
  if vacant t p then some (t ++ [(p, n)]) else none

def remove (t : Tree) (p : Path) : Tree := t.filter (·.1 != p)

def makeDirectory (t : Tree) (i : ℕ) (p : Path) : Option Tree := insert t p (.directory i)

def createFile (t : Tree) (i : ℕ) (p : Path) : Option Tree := insert t p (.file i [])

def Node.append (i : ℕ) (chunk : List UInt8) : Node → Node
  | .file j bytes => if j = i then .file j (bytes ++ chunk) else .file j bytes
  | n => n

/-- More bytes for the file of an inode. -/
def append (t : Tree) (i : ℕ) (chunk : List UInt8) : Tree :=
  t.map fun x => (x.1, x.2.append i chunk)

def link (t : Tree) (source target : Path) : Option Tree :=
  match find t source with
  | some (.file i bytes) => insert t target (.file i bytes)
  | _ => none

def unlink (t : Tree) (p : Path) : Option Tree :=
  match find t p with
  | some (.file ..) => some (remove t p)
  | some .other => some (remove t p)
  | _ => none

/-- There is nothing in the directory. -/
def isEmpty (t : Tree) (p : Path) : Bool := t.all fun x => x.1 == [] || x.1.dropLast != p

def removeDirectory (t : Tree) (p : Path) : Option Tree :=
  match find t p with
  | some (.directory _) => if isEmpty t p then some (remove t p) else none
  | _ => none

/-! ## Entries -/

variable {t u : Tree} {p q : Path} {n : Node} {i : ℕ} {chunk : List UInt8}

def paths (t : Tree) : List Path := t.map (·.1)

@[simp] lemma paths_append (t u : Tree) : paths (t ++ u) = paths t ++ paths u := List.map_append

lemma mem_paths_of_mem (h : (p, n) ∈ t) : p ∈ paths t := List.mem_map.mpr ⟨_, h, rfl⟩

lemma mem_of_find (h : find t p = some n) : (p, n) ∈ t := by
  obtain ⟨x, hx, rfl⟩ := Option.map_eq_some_iff.mp h
  have hp : x.1 = p := by simpa using List.find?_some hx
  rw [← hp]
  exact List.mem_of_find?_eq_some hx

lemma find_eq_none : find t p = none ↔ p ∉ paths t := by
  simp only [find, Option.map_eq_none_iff, List.find?_eq_none, paths, List.mem_map, beq_iff_eq,
    not_exists, not_and]

/-- Where every path is taken once, an entry is what is found. -/
lemma find_eq_some (hnodup : (paths t).Nodup) : find t p = some n ↔ (p, n) ∈ t := by
  refine ⟨mem_of_find, fun h => ?_⟩
  cases hfind : find t p with
  | none => exact absurd (mem_paths_of_mem h) (find_eq_none.mp hfind)
  | some m =>
    have hinj := List.inj_on_of_nodup_map hnodup h (mem_of_find hfind) rfl
    rw [(Prod.mk.inj hinj).2]

lemma find_append_left (h : find t p = some n) : find (t ++ u) p = some n := by
  obtain ⟨x, hx, hn⟩ := Option.map_eq_some_iff.mp h
  rw [find, List.find?_append, hx]
  exact congrArg some hn

lemma find_append_right (h : find t p = none) : find (t ++ u) p = find u p := by
  rw [find, List.find?_append, Option.map_eq_none_iff.mp h]
  rfl

lemma find_fileAppend : find (append t i chunk) p = (find t p).map (Node.append i chunk) := by
  rw [find, append, List.find?_map, find, Option.map_map, Option.map_map]
  rfl

/-- What is found in a tree is found in every extension of it. -/
lemma find_of_prefix (h : t <+: u) (hp : find t p = some n) : find u p = some n := by
  obtain ⟨v, rfl⟩ := h
  exact find_append_left hp

/-! ## What the operations do -/

lemma insert_eq_some (h : insert t p n = some u) :
    u = t ++ [(p, n)] ∧ p ∉ paths t ∧ ∃ i, (p.dropLast, Node.directory i) ∈ t := by
  rw [insert, Option.ite_none_right_eq_some] at h
  obtain ⟨hvacant, hu⟩ := h
  obtain ⟨hfree, hparent⟩ := Bool.and_eq_true_iff.mp hvacant
  refine ⟨(Option.some.inj hu).symm, find_eq_none.mp (Option.isNone_iff_eq_none.mp hfree), ?_⟩
  obtain ⟨m, hm, hdirectory⟩ := Option.any_eq_true _ _ |>.mp hparent
  cases m with
  | directory i => exact ⟨i, mem_of_find hm⟩
  | file i bytes => exact nomatch hdirectory
  | other => exact nomatch hdirectory

lemma link_eq_some (h : link t p q = some u) :
    ∃ i bytes, find t p = some (.file i bytes) ∧ insert t q (.file i bytes) = some u := by
  rw [link] at h
  split at h
  · exact ⟨_, _, by assumption, h⟩
  · exact nomatch h

lemma unlink_eq_some (h : unlink t p = some u) : u = remove t p := by
  rw [unlink] at h
  split at h
  · exact (Option.some.inj h).symm
  · exact (Option.some.inj h).symm
  · exact nomatch h

lemma removeDirectory_eq_some (h : removeDirectory t p = some u) : u = remove t p := by
  rw [removeDirectory] at h
  split at h
  · rw [Option.ite_none_right_eq_some] at h
    exact (Option.some.inj h.2).symm
  · exact nomatch h

@[simp] lemma paths_fileAppend (t : Tree) (i : ℕ) (chunk : List UInt8) :
    paths (append t i chunk) = paths t := by
  simp [paths, append]

/-- Bytes for the file of another inode change nothing. -/
lemma Node.append_eq_self (h : n.isFile i = false) : n.append i chunk = n := by
  cases n with
  | file j bytes =>
    have hj : j ≠ i := by simpa [Node.isFile] using h
    simp [Node.append, hj]
  | directory j => rfl
  | other => rfl

lemma Node.isFile_append {j : ℕ} : (n.append i chunk).isFile j = n.isFile j := by
  cases n with
  | file i' bytes =>
    rw [Node.append]
    split <;> rfl
  | directory j => rfl
  | other => rfl

lemma Node.hasInode_append {j : ℕ} : (n.append i chunk).hasInode j = n.hasInode j := by
  cases n with
  | file i' bytes =>
    rw [Node.append]
    split <;> rfl
  | directory j => rfl
  | other => rfl

lemma fileAppend_eq_self (h : ∀ x ∈ t, x.2.isFile i = false) : append t i chunk = t :=
  (List.map_congr_left fun x hx => by rw [Node.append_eq_self (h x hx), id]).trans (List.map_id t)

lemma fileAppend_append : append (t ++ u) i chunk = append t i chunk ++ append u i chunk :=
  List.map_append

lemma mem_fileAppend {x : Path × Node} :
    x ∈ append t i chunk ↔ ∃ y ∈ t, (y.1, y.2.append i chunk) = x := List.mem_map

lemma mem_fileAppend_of_mem (h : (p, n) ∈ t) (hn : n.isFile i = false) :
    (p, n) ∈ append t i chunk :=
  mem_fileAppend.mpr ⟨(p, n), h, by rw [Node.append_eq_self hn]⟩

lemma remove_append_of_not_mem (h : p ∉ paths t) : remove (t ++ u) p = t ++ remove u p := by
  rw [remove, List.filter_append, remove]
  congr 1
  refine List.filter_eq_self.mpr fun x hx => ?_
  have hne : x.1 ≠ p := fun hp => h (hp ▸ mem_paths_of_mem hx)
  simpa using hne

/-- The only entry of an inode is a file with one link. -/
lemma links_eq_one (hnodup : (paths t).Nodup) (hp : (p, n) ∈ t) (hn : n.isFile i = true)
    (halone : ∀ x ∈ t, x.2.isFile i = true → x.1 = p) : links t i = 1 := by
  have hall : ∀ x ∈ t.filter (·.2.isFile i), x = (p, n) := by
    intro x hx
    obtain ⟨hmem, hinode⟩ := List.mem_filter.mp hx
    exact List.inj_on_of_nodup_map hnodup hmem hp (halone x hmem hinode)
  have hone : (t.filter (·.2.isFile i)).Nodup := (List.Nodup.of_map _ hnodup).filter _
  have hpos : 0 < links t i := List.countP_pos_iff.mpr ⟨_, hp, hn⟩
  rw [List.eq_replicate_of_mem hall, List.nodup_replicate] at hone
  rw [links, List.countP_eq_length_filter] at hpos ⊢
  omega

lemma mem_remove {x : Path × Node} : x ∈ remove t p ↔ x ∈ t ∧ x.1 ≠ p := by
  simp [remove, List.mem_filter]

lemma mem_paths_remove : q ∈ paths (remove t p) ↔ q ∈ paths t ∧ q ≠ p := by
  simp only [paths, List.mem_map, mem_remove]
  constructor
  · rintro ⟨x, ⟨hx, hne⟩, rfl⟩
    exact ⟨⟨x, hx, rfl⟩, hne⟩
  · rintro ⟨⟨x, hx, rfl⟩, hne⟩
    exact ⟨x, ⟨hx, hne⟩, rfl⟩

/-- Removing an entry that was added leaves the tree that was extended. -/
lemma prefix_remove (h : t <+: u) (hp : p ∉ paths t) : t <+: remove u p := by
  obtain ⟨v, rfl⟩ := h
  rw [remove_append_of_not_mem hp]
  exact List.prefix_append _ _

/-- Two entries of one path are one entry. -/
lemma node_unique {m : Node} (hnodup : (paths t).Nodup) (hn : (p, n) ∈ t) (hm : (p, m) ∈ t) :
    n = m :=
  (Prod.mk.inj (List.inj_on_of_nodup_map hnodup hn hm rfl)).2

end FileTree
