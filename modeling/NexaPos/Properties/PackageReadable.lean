import NexaPos.Backups.PackageWriter
import NexaPos.Properties.ZipTiling
import Mathlib.Data.Option.Basic
import Mathlib.Algebra.Order.BigOperators.Group.List

/-!
# Which packages the readers accept

The builder reads every archive back that it writes, whatever its size.  The independent verifier
takes ZIP64 end records for those of its own creator field, which the writer leaves out, and
looks for them from markers that the writer's thresholds do not set; and both readers keep to a
smaller manifest than the builder.  So they accept a package exactly when it needs no ZIP64 end
records, has fewer than 65,535 entries, and its manifest has at most 64 MiB.
-/

namespace NexaPos.Backups

open ByteLayout StoredZip

/-! ## What is written is an archive without a gap -/

lemma fit_nil : Fit [] [] := .nil

lemma fit_cons {w v : ℕ} {ws vs : List ℕ} : Fit (w :: ws) (v :: vs) ↔ v < 256 ^ w ∧ Fit ws vs :=
  List.forall₂_cons

/-- What an entry of a package keeps to: its path is short and ASCII, its data bounded. -/
structure PackageEntry.Bounded (entry : PackageEntry) : Prop where
  path : (encodeAscii entry.path).length ≤ 255
  data : entry.data.length ≤ maximumPackageBytes

/-- No offset reaches this number. -/
def offsetBound : ℕ := 2 ^ 60

variable {entry : PackageEntry} {offset : ℕ}

lemma fits_fileHeader (h : entry.Bounded) : localHeader.Fits (fileHeader entry) := by
  have hpath := h.path
  have hcrc := (crc32 entry.data).toNat_lt
  simp only [Struct.Fits, localHeader, fileHeader, fit_cons, fit_nil, and_true]
  refine ⟨by decide, by decide, by decide, by decide, by decide, by decide, by omega, by decide,
    by decide, by omega, by decide⟩

lemma length_centralExtraValues (entry : PackageEntry) (offset : ℕ) :
    (centralExtraValues entry offset).length ≤ 3 := by
  unfold centralExtraValues
  split <;> split <;> simp

lemma length_flatMap_bytes (values : List ℕ) :
    (values.flatMap (bytes 8)).length = 8 * values.length := by
  induction values with
  | nil => rfl
  | cons v vs ih =>
    rw [List.flatMap_cons, List.length_append, length_bytes, ih, List.length_cons]
    omega

lemma length_centralExtra {values : List ℕ} (h : values.length ≤ 3) :
    (centralExtra values).length ≤ 28 := by
  unfold centralExtra
  split
  · simp
  · simp only [List.length_append, length_bytes, length_flatMap_bytes]
    omega

lemma fits_centralDirectoryHeader (h : entry.Bounded) :
    centralHeader.Fits (centralDirectoryHeader entry offset) := by
  have hpath := h.path
  have hcrc := (crc32 entry.data).toNat_lt
  have hextra := length_centralExtra (length_centralExtraValues entry offset)
  have hsize : (if zip64Limit < entry.data.length then 0xFFFFFFFF else entry.data.length) <
      256 ^ 4 := by
    split
    · decide
    · next hle =>
      unfold zip64Limit at hle
      omega
  have hoffset : (if zip64Limit < offset then 0xFFFFFFFF else offset) < 256 ^ 4 := by
    split
    · decide
    · next hle =>
      unfold zip64Limit at hle
      omega
  simp only [Struct.Fits, centralHeader, centralDirectoryHeader, fit_cons, fit_nil, and_true]
  refine ⟨by decide, by decide, by decide, by decide, by decide, by decide, by decide, by omega,
    hsize, hsize, by omega, by omega, by decide, by decide, by decide, by decide, hoffset⟩

lemma zip64Payload_centralExtra {values : List ℕ} (h : values.length ≤ 3) :
    zip64Payload (centralExtra values) = values.flatMap (bytes 8) := by
  unfold centralExtra
  split
  case isTrue hnil =>
    rw [hnil, zip64Payload, if_neg (by simp)]
    rfl
  case isFalse _ =>
    rw [← length_flatMap_bytes]
    refine zip64Payload_field ?_
    rw [length_flatMap_bytes]
    omega

/-- A value beyond the limit is marked and stands in the payload. -/
lemma takeMarked_written {value : ℕ} (h : value < 256 ^ 8) (rest : Bytes) :
    takeMarked (if zip64Limit < value then 0xFFFFFFFF else value) 0xFFFFFFFF 8
        ((if zip64Limit < value then [value] else []).flatMap (bytes 8) ++ rest) =
      some (value, rest) := by
  unfold takeMarked
  by_cases hlarge : zip64Limit < value
  · have htake : (bytes 8 value ++ rest).take 8 = bytes 8 value :=
      List.take_left' (length_bytes 8 value)
    have hdrop : (bytes 8 value ++ rest).drop 8 = rest := List.drop_left' (length_bytes 8 value)
    simp only [hlarge, if_true, List.flatMap_cons, List.flatMap_nil, List.append_nil, htake,
      hdrop, number_bytes h]
    rw [if_neg]
    simp
  · have hne : value ≠ 0xFFFFFFFF := by
      unfold zip64Limit at hlarge
      omega
    simp [hlarge, hne]

/-- The payload of a central extra field, value by value. -/
lemma payload_centralExtraValues (entry : PackageEntry) (offset : ℕ) :
    (centralExtraValues entry offset).flatMap (bytes 8) =
      (if zip64Limit < entry.data.length then [entry.data.length] else []).flatMap (bytes 8) ++
      ((if zip64Limit < entry.data.length then [entry.data.length] else []).flatMap (bytes 8) ++
      ((if zip64Limit < offset then [offset] else []).flatMap (bytes 8) ++ [])) := by
  unfold centralExtraValues
  split <;> split <;> simp

/-- The central record says where the block stands, in the header or in the extra field. -/
lemma place_written (h : entry.Bounded) (hoffset : offset ≤ offsetBound) :
    (centralDirectoryHeader entry offset).place (centralExtra (centralExtraValues entry offset)) =
      some (entry.data.length, entry.data.length, offset, 0) := by
  have hdata : entry.data.length < 256 ^ 8 := Nat.lt_of_le_of_lt h.data (by decide)
  have hfits : offset < 256 ^ 8 := Nat.lt_of_le_of_lt hoffset (by decide)
  have hpayload := zip64Payload_centralExtra (length_centralExtraValues entry offset)
  rw [CentralHeader.place, hpayload, payload_centralExtraValues]
  simp only [centralDirectoryHeader, takeMarked_written hdata, takeMarked_written hfits, bind,
    Option.bind]
  rfl

lemma sound_writtenMember (h : entry.Bounded) (hoffset : offset ≤ offsetBound) :
    (writtenMember entry offset).Sound offset where
  headerFits := fits_fileHeader h
  headerSignature := rfl
  headerName := rfl
  headerExtra := by simp [writtenMember, fileHeader, localExtra]
  headerSizes := sizes_localExtra h.data rfl rfl
  noFlags := rfl
  stored := rfl
  entryFits := fits_centralDirectoryHeader h
  entrySignature := rfl
  entryName := rfl
  entryExtra := rfl
  noComment := rfl
  place := place_written h hoffset
  sameVersion := rfl
  sameFlags := rfl
  sameCompression := rfl
  sameTime := rfl
  sameDate := rfl
  sameCrc32 := rfl

/-! ## Sizes -/

/-- The bytes that an entry takes before the central directory. -/
def PackageEntry.blockSize (entry : PackageEntry) : ℕ :=
  50 + (encodeAscii entry.path).length + entry.data.length

/-- Where the central directory of a package begins. -/
def directoryOffset (entries : List PackageEntry) : ℕ :=
  (entries.map PackageEntry.blockSize).sum

lemma length_block_writtenMember (h : entry.Bounded) (hoffset : offset ≤ offsetBound) :
    (writtenMember entry offset).block.length = entry.blockSize := by
  rw [(sound_writtenMember h hoffset).length_block]
  simp only [writtenMember, localExtra, List.length_append, length_bytes, PackageEntry.blockSize]
  omega

lemma length_record_writtenMember (h : entry.Bounded) (hoffset : offset ≤ offsetBound) :
    (writtenMember entry offset).record.length ≤ 329 := by
  have hpath := h.path
  have hextra := length_centralExtra (length_centralExtraValues entry offset)
  rw [(sound_writtenMember h hoffset).length_record]
  simp only [writtenMember]
  omega

/-- What the written members of bounded entries are. -/
structure Written (offset : ℕ) (entries : List PackageEntry) : Prop where
  tiled : Tiled offset (writtenMembers offset entries)
  blocks : ((writtenMembers offset entries).flatMap Member.block).length = directoryOffset entries
  records : ((writtenMembers offset entries).flatMap Member.record).length ≤ 329 * entries.length
  length : (writtenMembers offset entries).length = entries.length
  content : (writtenMembers offset entries).map Member.content =
    entries.map fun e => (encodeAscii e.path, e.data)

lemma written {entries : List PackageEntry} (h : ∀ e ∈ entries, e.Bounded)
    (hoffset : offset + directoryOffset entries ≤ offsetBound) : Written offset entries := by
  induction entries generalizing offset with
  | nil => exact ⟨.nil, rfl, Nat.zero_le _, rfl, rfl⟩
  | cons e es ih =>
    have he := h e List.mem_cons_self
    simp only [directoryOffset, List.map_cons, List.sum_cons] at hoffset
    have hhere : offset ≤ offsetBound := by omega
    have hsound := sound_writtenMember he hhere
    have hblock := length_block_writtenMember he hhere
    have hrecord := length_record_writtenMember he hhere
    have hrest : Written (offset + (writtenMember e offset).block.length) es := by
      refine ih (fun x hx => h x (List.mem_cons_of_mem _ hx)) ?_
      rw [hblock]
      simp only [directoryOffset]
      omega
    refine ⟨.cons hsound hrest.tiled, ?_, ?_, ?_, ?_⟩
    · rw [writtenMembers, List.flatMap_cons, List.length_append, hrest.blocks, hblock]
      simp [directoryOffset]
    · rw [writtenMembers, List.flatMap_cons, List.length_append, List.length_cons]
      have hrecords := hrest.records
      omega
    · rw [writtenMembers, List.length_cons, hrest.length, List.length_cons]
    · rw [writtenMembers, List.map_cons, hrest.content, List.map_cons]
      rfl

/-! ## What the verifier accepts -/

/-- A member that the verifier accepts at an offset, under its decoded name. -/
structure Acceptable (m : Member) (offset : ℕ) (name : String) : Prop where
  sound : m.Sound offset
  fixed : CentralHeaderFixed m.entry
  decoded : decodeAscii m.name = some name
  valid : EntryNameValid name
  parsed : parseZip64CentralExtra m.entryExtra m.entry.compressedSize m.entry.uncompressedSize
    m.entry.localOffset m.entry.disk = .ok (m.data.length, m.data.length, offset, 0)
  bounded : m.data.length ≤ maximumPackageBytes
  compressed : m.header.compressedSize = 0xFFFFFFFF
  uncompressed : m.header.uncompressedSize = 0xFFFFFFFF
  extra : m.headerExtra = localExtra m.data.length m.data.length

/-- The entry of the central directory. -/
def listedEntry (m : Member) (offset : ℕ) (name : String) : CentralEntry :=
  { name, crc32 := m.entry.crc32, compressedSize := m.data.length,
    uncompressedSize := m.data.length, localOffset := offset, centralExtra := m.entryExtra }

/-- The entry with the place of its data. -/
def placedEntry (m : Member) (offset : ℕ) (name : String) : CentralEntry :=
  { listedEntry m offset name with
    dataStart := offset + 30 + m.name.length + m.headerExtra.length
    dataEnd := offset + m.block.length }

/-- What is packed can be read back where it stands. -/
lemma readAt_of_drop {α : Type} {s : Struct α} {a : α} {file rest : Bytes} {cursor : ℕ}
    (hsize : s.size ≤ maximumManifestBytes) (hfits : s.Fits a)
    (hfile : file.drop cursor = s.pack a ++ rest) :
    ∃ raw, readAt file cursor s.size = .ok raw ∧ s.unpack raw = a := by
  have hlength : (s.pack a).length = s.size := Struct.length_pack hfits
  have hslice := slice_of_drop hfile
  rw [hlength] at hslice
  refine ⟨slice file cursor s.size, readAt_eq_ok.mpr ⟨hsize, rfl, ?_⟩, ?_⟩
  · rw [hslice, hlength]
  · rw [hslice, Struct.unpack_pack hfits]

lemma readAt_of_slice {file raw : Bytes} {cursor size : ℕ} (hsize : size ≤ maximumManifestBytes)
    (hlength : raw.length = size) {rest : Bytes} (hfile : file.drop cursor = raw ++ rest) :
    readAt file cursor size = .ok raw := by
  subst hlength
  exact readAt_eq_ok.mpr ⟨hsize, (slice_of_drop hfile).symm, rfl⟩

lemma validatedEntryName_of_decoded {raw : Bytes} {name : String}
    (h : decodeAscii raw = some name) (hvalid : EntryNameValid name) :
    validatedEntryName raw = .ok name := by
  rw [validatedEntryName, h]
  exact if_pos hvalid

variable {file rest : Bytes} {cursor centralOffset : ℕ} {m : Member} {name : String}

lemma Acceptable.centralEntry (h : Acceptable m offset name) {names : List String}
    (hfile : file.drop cursor = m.record ++ rest) (hoffset : offset < centralOffset)
    (hfresh : portablePathKey name ∉ names.map portablePathKey) :
    centralEntry file centralOffset cursor names =
      .ok (listedEntry m offset name, cursor + m.record.length) := by
  have hsound := h.sound
  obtain ⟨-, -, -, -, -, -, -, ⟨-, hname⟩, hextra, -, -, -⟩ := h.fixed
  simp only [Member.record, List.append_assoc] at hfile
  obtain ⟨raw, hraw, hunpack⟩ := readAt_of_drop (s := centralHeader) (by decide)
    hsound.entryFits hfile
  have hpart := drop_of_drop hfile
  rw [Struct.length_pack hsound.entryFits, ← List.append_assoc] at hpart
  have hread : readAt file (cursor + 46) (m.entry.nameSize + m.entry.extraSize) =
      .ok (m.name ++ m.entryExtra) := by
    refine readAt_of_slice ?_ ?_ hpart
    · unfold maximumManifestBytes
      omega
    · rw [List.length_append, hsound.entryName, hsound.entryExtra]
  have htake : (m.name ++ m.entryExtra).take m.entry.nameSize = m.name :=
    List.take_left' hsound.entryName.symm
  have hdrop : (m.name ++ m.entryExtra).drop m.entry.nameSize = m.entryExtra :=
    List.drop_left' hsound.entryName.symm
  have hnew : name ∉ names := fun hmem => hfresh (List.mem_map_of_mem hmem)
  unfold Backups.centralEntry
  simp only [except_bind_eq_ok, failUnless_eq_ok, Prod.exists]
  refine ⟨raw, hraw, (), by rw [hunpack]; exact h.fixed, m.name ++ m.entryExtra, ?_, name, ?_, (),
    ⟨hnew, hfresh⟩, _, _, _, _, ?_, (), ⟨rfl, rfl, h.bounded, hoffset⟩, ?_⟩
  · rw [hunpack]
    exact hread
  · rw [hunpack, htake]
    exact validatedEntryName_of_decoded h.decoded h.valid
  · rw [hunpack, hdrop]
    exact h.parsed
  · rw [hunpack, hdrop, hsound.length_record, hsound.entryName, hsound.entryExtra]
    simp only [pure, Except.pure, listedEntry, Nat.add_assoc]

lemma Acceptable.localEntry (h : Acceptable m cursor name)
    (hfile : file.drop cursor = m.block ++ rest) (hend : cursor + m.block.length ≤ centralOffset) :
    localEntry file centralOffset cursor (listedEntry m cursor name) =
      .ok (placedEntry m cursor name) := by
  have hsound := h.sound
  obtain ⟨-, -, hversion, -, -, htime, hdate, ⟨-, hname⟩, -, -, -, -⟩ := h.fixed
  have hlength := hsound.length_block
  have hencoded := encodeAscii_decodeAscii h.decoded
  have hextraSize : m.header.extraSize = 20 := by
    rw [hsound.headerExtra, h.extra]
    simp [localExtra]
  simp only [Member.block, List.append_assoc] at hfile
  obtain ⟨raw, hraw, hunpack⟩ := readAt_of_drop (s := localHeader) (by decide)
    hsound.headerFits hfile
  have hpart := drop_of_drop hfile
  rw [Struct.length_pack hsound.headerFits, ← List.append_assoc] at hpart
  have hread : readAt file (cursor + 30) (m.header.nameSize + m.header.extraSize) =
      .ok (m.name ++ m.headerExtra) := by
    refine readAt_of_slice ?_ ?_ hpart
    · rw [hsound.entryName, ← hsound.headerName] at hname
      unfold maximumManifestBytes
      omega
    · rw [List.length_append, hsound.headerName, hsound.headerExtra]
  have htake : (m.name ++ m.headerExtra).take m.header.nameSize = m.name :=
    List.take_left' hsound.headerName.symm
  have hdrop : (m.name ++ m.headerExtra).drop m.header.nameSize = m.headerExtra :=
    List.drop_left' hsound.headerName.symm
  have hheader : LocalHeaderFixed m.header (listedEntry m cursor name) := by
    refine ⟨hsound.headerSignature, hsound.sameVersion.symm.trans hversion, hsound.noFlags,
      hsound.stored, hsound.sameTime.symm.trans htime, hsound.sameDate.symm.trans hdate,
      hsound.sameCrc32.symm, h.compressed, h.uncompressed, ?_, hextraSize⟩
    show m.header.nameSize = (encodeAscii name).length
    rw [hencoded, hsound.headerName]
  unfold Backups.localEntry
  simp only [except_bind_eq_ok, failUnless_eq_ok]
  refine ⟨(), rfl, raw, hraw, (), by rw [hunpack]; exact hheader, m.name ++ m.headerExtra, ?_, name,
    ?_, (), ⟨rfl, ?_⟩, (), ?_, ?_⟩
  · rw [hunpack]
    exact hread
  · rw [hunpack, htake]
    exact validatedEntryName_of_decoded h.decoded h.valid
  · rw [hunpack, hdrop]
    exact h.extra
  · rw [hunpack, hsound.headerName, hsound.headerExtra]
    show cursor + 30 + m.name.length + m.headerExtra.length + m.data.length ≤ centralOffset
    omega
  · have hdataEnd : cursor + 30 + m.name.length + m.headerExtra.length + m.data.length =
        cursor + m.block.length := by omega
    rw [hunpack, hsound.headerName, hsound.headerExtra]
    simp only [pure, Except.pure, placedEntry, listedEntry, hdataEnd]

/-- Acceptable members one after the other, with their decoded names. -/
inductive AcceptableRun : ℕ → List (Member × String) → Prop
  | nil {offset : ℕ} : AcceptableRun offset []
  | cons {offset : ℕ} {m : Member} {name : String} {rest : List (Member × String)}
    (head : Acceptable m offset name) (tail : AcceptableRun (offset + m.block.length) rest) :
    AcceptableRun offset ((m, name) :: rest)

def listedEntries : ℕ → List (Member × String) → List CentralEntry
  | _, [] => []
  | offset, (m, name) :: rest =>
    listedEntry m offset name :: listedEntries (offset + m.block.length) rest

def placedEntries : ℕ → List (Member × String) → List CentralEntry
  | _, [] => []
  | offset, (m, name) :: rest =>
    placedEntry m offset name :: placedEntries (offset + m.block.length) rest

/-- The blocks and the records of named members. -/
def blocksOf (ms : List (Member × String)) : Bytes := (ms.map Prod.fst).flatMap Member.block

def recordsOf (ms : List (Member × String)) : Bytes := (ms.map Prod.fst).flatMap Member.record

lemma AcceptableRun.centralEntries {ms : List (Member × String)} (h : AcceptableRun offset ms)
    {names : List String} (hfile : file.drop cursor = recordsOf ms ++ rest)
    (hend : offset + (blocksOf ms).length ≤ centralOffset)
    (hnodup : ((names ++ ms.map Prod.snd).map portablePathKey).Nodup) :
    centralEntries file centralOffset ms.length cursor names =
      .ok (listedEntries offset ms, cursor + (recordsOf ms).length) := by
  induction h generalizing cursor names with
  | nil => rfl
  | @cons offset m name ms head _ ih =>
    simp only [recordsOf, blocksOf, List.map_cons, List.flatMap_cons, List.append_assoc,
      List.length_append] at hfile hend
    have hblock := head.sound.length_block
    have hfresh : portablePathKey name ∉ names.map portablePathKey := by
      rw [List.map_append, List.nodup_append] at hnodup
      intro hmem
      exact hnodup.2.2 _ hmem _ (List.mem_map_of_mem List.mem_cons_self) rfl
    have hfirst : Backups.centralEntry file centralOffset cursor names =
        .ok (listedEntry m offset name, cursor + m.record.length) :=
      head.centralEntry hfile (by omega) hfresh
    have hnodup' : (((names ++ [name]) ++ ms.map Prod.snd).map portablePathKey).Nodup := by
      simpa using hnodup
    have hrest := ih (drop_of_drop hfile) (by rw [← Nat.add_assoc] at hend; exact hend) hnodup'
    have hname : (listedEntry m offset name).name = name := rfl
    simp only [List.length_cons, Backups.centralEntries, except_bind_eq_ok, Prod.exists]
    refine ⟨_, _, hfirst, _, _, ?_, rfl⟩
    rw [hname, hrest, recordsOf, recordsOf, List.map_cons, List.flatMap_cons, List.length_append,
      Nat.add_assoc]

lemma AcceptableRun.localEntries {ms : List (Member × String)} (h : AcceptableRun cursor ms)
    (hfile : file.drop cursor = blocksOf ms ++ rest)
    (hend : cursor + (blocksOf ms).length ≤ centralOffset) :
    localEntries file centralOffset cursor (listedEntries cursor ms) =
      .ok (placedEntries cursor ms, cursor + (blocksOf ms).length) := by
  induction h with
  | nil => rfl
  | @cons offset m name ms head _ ih =>
    simp only [blocksOf, List.map_cons, List.flatMap_cons, List.append_assoc,
      List.length_append] at hfile hend
    have hfirst : Backups.localEntry file centralOffset offset (listedEntry m offset name) =
        .ok (placedEntry m offset name) := head.localEntry hfile (by omega)
    have hrest := ih (drop_of_drop hfile) (by rw [← Nat.add_assoc] at hend; exact hend)
    simp only [listedEntries, Backups.localEntries, except_bind_eq_ok, Prod.exists]
    refine ⟨_, hfirst, _, _, hrest, ?_⟩
    simp only [pure, Except.pure, placedEntries, blocksOf, List.map_cons, List.flatMap_cons,
      List.length_append, Nat.add_assoc]

/-- A plain ending that says where the directory is. -/
structure PlainEnding (e : EndHeader) (count size offset : ℕ) : Prop where
  fits : endHeader.Fits e
  signature : e.signature = endSignature
  disks : e.diskNumber = 0 ∧ e.centralDisk = 0
  counts : e.entriesOnDisk = count ∧ e.entryCount = count
  size : e.centralSize = size
  offset : e.centralOffset = offset
  noComment : e.commentSize = 0

/-- Reading the end header at the end of a file. -/
lemma readEndRecords_eq {e : EndHeader} (hfits : endHeader.Fits e)
    (hfixed : e.signature = endSignature ∧ e.diskNumber = 0 ∧ e.centralDisk = 0 ∧
      e.entriesOnDisk = e.entryCount ∧ e.commentSize = 0)
    (hfile : file.drop cursor = endHeader.pack e) :
    cursor + 22 = file.length ∧ readEndRecords file file.length =
      if EndHeader.HasZip64Markers e then zip64Directory file cursor e
      else plainDirectory file cursor e := by
  have hlength := congrArg List.length hfile
  rw [List.length_drop, Struct.length_pack hfits, size_endHeader] at hlength
  have hcursor : file.length - 22 = cursor := by omega
  obtain ⟨raw, hraw, hunpack⟩ := readAt_of_drop (s := endHeader) (by decide) hfits
    (hfile.trans (List.append_nil _).symm)
  rw [size_endHeader] at hraw
  refine ⟨by omega, ?_⟩
  rw [readEndRecords, failUnless, if_pos (by omega), hcursor]
  simp only [bind, Except.bind, hraw, hunpack, failUnless, if_pos hfixed]

/-- An archive of acceptable members is accepted, unless it has markers or what looks like a
locator before its end header. -/
lemma validateRawZip_acceptable {ms : List (Member × String)} {e : EndHeader}
    (hrun : AcceptableRun 0 ms) (hsome : ms ≠ [])
    (hnodup : ((ms.map Prod.snd).map portablePathKey).Nodup)
    (hcount : ms.length ≤ maximumPackageEntries)
    (hending : PlainEnding e ms.length (recordsOf ms).length (blocksOf ms).length)
    (hplain : ¬ EndHeader.HasZip64Markers e)
    (hfile : file = blocksOf ms ++ (recordsOf ms ++ endHeader.pack e))
    (hmark : number (slice file (file.length - 42) 4) ≠ locatorSignature) :
    validateRawZip file file.length ms.length = .ok (placedEntries 0 ms) := by
  have hblocks : file.drop 0 = blocksOf ms ++ (recordsOf ms ++ endHeader.pack e) := hfile
  have hrecords := drop_of_drop hblocks
  have hend := drop_of_drop hrecords
  rw [Nat.zero_add] at hrecords hend
  obtain ⟨hlength, hread⟩ := readEndRecords_eq hending.fits ⟨hending.signature, hending.disks.1,
    hending.disks.2, hending.counts.1.trans hending.counts.2.symm, hending.noComment⟩ hend
  have hfirst : 30 ≤ (blocksOf ms).length := by
    obtain ⟨⟨m, name⟩, rest, hms⟩ := List.exists_cons_of_ne_nil hsome
    rw [hms] at hrun ⊢
    cases hrun with
    | cons head _ =>
      rw [blocksOf, List.map_cons, List.flatMap_cons, List.length_append, head.sound.length_block]
      omega
  have hdirectory : plainDirectory file ((blocksOf ms).length + (recordsOf ms).length) e =
      .ok ⟨ms.length, (recordsOf ms).length, (blocksOf ms).length,
        (blocksOf ms).length + (recordsOf ms).length⟩ := by
    have hback : (blocksOf ms).length + (recordsOf ms).length - 20 = file.length - 42 := by omega
    have hslice : (slice file (file.length - 42) 4).length = 4 :=
      (length_slice_eq_iff (by decide)).mpr (by omega)
    have hroom : 20 ≤ (blocksOf ms).length + (recordsOf ms).length := by omega
    rw [plainDirectory, if_pos hroom, hback, readAt_eq_ok.mpr ⟨by decide, rfl, hslice⟩]
    simp only [bind, Except.bind, failUnless, if_pos hmark, pure, Except.pure, hending.counts.2,
      hending.size, hending.offset]
  have hcentral : centralEntries file (blocksOf ms).length ms.length (blocksOf ms).length [] =
      .ok (listedEntries 0 ms, (blocksOf ms).length + (recordsOf ms).length) :=
    hrun.centralEntries hrecords (by omega) (by simpa using hnodup)
  have hlocal : localEntries file (blocksOf ms).length 0 (listedEntries 0 ms) =
      .ok (placedEntries 0 ms, 0 + (blocksOf ms).length) := hrun.localEntries hblocks (by omega)
  have hpositive : 0 < ms.length := List.length_pos_iff.mpr hsome
  unfold validateRawZip
  simp only [except_bind_eq_ok, failUnless_eq_ok, Prod.exists]
  refine ⟨_, hread.trans ((if_neg hplain).trans hdirectory), (),
    ⟨rfl, ⟨hpositive, hcount⟩, rfl, hfirst⟩, _, _, hcentral, (), rfl, _, _, hlocal, (), ?_, rfl⟩
  exact Nat.zero_add _

/-! ## The paths of a package -/

/-- A path that a package can have: printable, and valid for both readers. -/
structure PlainPath (path : String) : Prop where
  chars : ∀ c ∈ path.toList, 0x20 < c.toNat ∧ c.toNat ≤ 0x7E
  valid : EntryNameValid path
  safe : SafeArchiveName path

/-- The characters of the literals of a pattern. -/
def literalChar (c : Char) : Bool := 0x20 < c.toNat && c.toNat ≤ 0x7E && c != ':'

lemma literalChar_of_isDigit {c : Char} (h : c.isDigit = true) : literalChar c = true := by
  simp only [Char.isDigit, ge_iff_le, Bool.and_eq_true, decide_eq_true_eq] at h
  have hlow : 48 ≤ c.toNat := h.1
  have hhigh : c.toNat ≤ 57 := h.2
  have hne : c ≠ ':' := by
    rintro rfl
    revert hhigh
    decide
  simp only [literalChar, Bool.and_eq_true, decide_eq_true_eq, bne_iff_ne]
  exact ⟨⟨by omega, by omega⟩, hne⟩

lemma fullmatchOrdinal_some {before after value : String} {width n : ℕ}
    (h : fullmatchOrdinal before width after value = some n) :
    ∃ digits : List Char, value.toList = before.toList ++ (digits ++ after.toList) ∧
      digits.length = width ∧ ∀ c ∈ digits, c.isDigit = true := by
  unfold fullmatchOrdinal at h
  dsimp only at h
  split at h
  · next hmatch =>
    exact ⟨_, hmatch.1, hmatch.2.1, List.all_eq_true.mp hmatch.2.2⟩
  · exact nomatch h

lemma PackagePathValid.plain {before after value : String} {width ordinal : ℕ}
    (h : PackagePathValid (fullmatchOrdinal before width after) ordinal value)
    (hbefore : before.toList.all literalChar = true) (hafter : after.toList.all literalChar = true)
    (hsafe : (fullmatchOrdinal before width after value).isSome →
      (componentRecordsPattern value).isSome ∨ (componentMediaPattern value).isSome ∨
        (mediaPattern value).isSome) :
    PlainPath value ∧ value.length = before.length + width + after.length := by
  obtain ⟨hne, hlength, -, hhead, hlast, hbackslash, hslashes, hsegments, hpattern⟩ := h
  obtain ⟨digits, hvalue, hwidth, hdigits⟩ := fullmatchOrdinal_some hpattern
  have hliteral : ∀ c ∈ value.toList, literalChar c = true := by
    intro c hc
    rw [hvalue, List.mem_append, List.mem_append] at hc
    rcases hc with hc | hc | hc
    · exact List.all_eq_true.mp hbefore c hc
    · exact literalChar_of_isDigit (hdigits c hc)
    · exact List.all_eq_true.mp hafter c hc
  have hchars : ∀ c ∈ value.toList, 0x20 < c.toNat ∧ c.toNat ≤ 0x7E ∧ c ≠ ':' := by
    intro c hc
    have hchar := hliteral c hc
    simp only [literalChar, Bool.and_eq_true, decide_eq_true_eq, bne_iff_ne] at hchar
    exact ⟨hchar.1.1, hchar.1.2, hchar.2⟩
  have hnul : '\x00' ∉ value.toList := by
    intro hmem
    have hbound := (hchars _ hmem).1
    revert hbound
    decide
  have hcolon : ':' ∉ value.toList := fun hmem => (hchars _ hmem).2.2 rfl
  refine ⟨⟨fun c hc => ⟨(hchars c hc).1, (hchars c hc).2.1⟩, ?_, ?_⟩, ?_⟩
  · refine ⟨hne, hlength, hnul, hbackslash, hcolon, hhead, hlast, hslashes, hsegments, ?_⟩
    rw [List.all_eq_true]
    intro c hc
    obtain ⟨hlow, hhigh, -⟩ := hchars c hc
    simp only [Bool.and_eq_true, decide_eq_true_eq]
    omega
  · exact ⟨hne, hhead, hbackslash, hnul, hsegments, .inr (hsafe (by rw [hpattern]; rfl))⟩
  · rw [← String.length_toList, hvalue]
    simp only [List.length_append, hwidth, String.length_toList]
    omega

lemma plain_manifest : PlainPath manifestFileName where
  chars := by
    have hchars : manifestFileName.toList.all literalChar = true := by decide
    intro c hc
    have hchar := List.all_eq_true.mp hchars c hc
    simp only [literalChar, Bool.and_eq_true, decide_eq_true_eq] at hchar
    exact hchar.1
  valid := by decide
  safe := by decide

lemma decodeAscii_encodeAscii {name : String} (h : ∀ c ∈ name.toList, c.toNat < 128) :
    decodeAscii (encodeAscii name) = some name := by
  have hnat : ∀ c ∈ name.toList, (UInt8.ofNat c.toNat).toNat = c.toNat := by
    intro c hc
    have hlt := h c hc
    rw [UInt8.toNat_ofNat']
    omega
  have hascii : (encodeAscii name).all (·.toNat < 128) = true := by
    rw [List.all_eq_true]
    intro b hb
    obtain ⟨c, hc, rfl⟩ := List.mem_map.mp hb
    rw [hnat c hc]
    exact decide_eq_true (h c hc)
  have hback : (encodeAscii name).map (fun b => Char.ofNat b.toNat) = name.toList := by
    rw [encodeAscii, List.map_map]
    refine (List.map_congr_left fun c hc => ?_).trans (List.map_id _)
    show Char.ofNat (UInt8.ofNat c.toNat).toNat = c
    rw [hnat c hc, Char.ofNat_toNat]
  rw [decodeAscii, if_pos hascii, hback, String.ofList_toList]

lemma length_encodeAscii (name : String) : (encodeAscii name).length = name.length := by
  rw [encodeAscii, List.length_map, String.length_toList]

lemma PlainPath.decoded {path : String} (h : PlainPath path) :
    decodeAscii (encodeAscii path) = some path :=
  decodeAscii_encodeAscii fun c hc => Nat.lt_of_le_of_lt (h.chars c hc).2 (by decide)

/-- A file of a component or a media object. -/
def PayloadPath (path : String) : Prop := PlainPath path ∧ 18 ≤ path.length

lemma componentEntries_some {ordinal : ℕ} {components : List (PackageEntry × PackageEntry)}
    {entries : List PackageEntry} (h : componentEntries ordinal components = some entries) :
    (components ≠ [] → entries ≠ []) ∧ ∀ e ∈ entries, PayloadPath e.path := by
  induction components generalizing ordinal entries with
  | nil =>
    obtain rfl := Option.some.inj h
    exact ⟨fun hne => absurd rfl hne, by simp⟩
  | cons c components ih =>
    obtain ⟨records, mediaIndex⟩ := c
    simp only [componentEntries, bind, Option.bind_eq_some_iff, Option.guard_eq_some',
      exists_const, pure, Option.some.injEq] at h
    obtain ⟨hrecords, hmedia, rest, hrest, rfl⟩ := h
    obtain ⟨hplain, hlength⟩ := hrecords.plain (by decide) (by decide) .inl
    obtain ⟨hplain', hlength'⟩ := hmedia.plain (by decide) (by decide) fun h => .inr (.inl h)
    refine ⟨fun _ => List.cons_ne_nil _ _, ?_⟩
    intro e he
    rcases List.mem_cons.mp he with rfl | he
    · exact ⟨hplain, by rw [hlength]; decide⟩
    rcases List.mem_cons.mp he with rfl | he
    · exact ⟨hplain', by rw [hlength']; decide⟩
    · exact (ih hrest).2 e he

lemma mediaEntries_some {ordinal : ℕ} {media entries : List PackageEntry}
    (h : mediaEntries ordinal media = some entries) : ∀ e ∈ entries, PayloadPath e.path := by
  induction media generalizing ordinal entries with
  | nil =>
    obtain rfl := Option.some.inj h
    simp
  | cons m media ih =>
    simp only [mediaEntries, bind, Option.bind_eq_some_iff, Option.guard_eq_some',
      exists_const, pure, Option.some.injEq] at h
    obtain ⟨hmedia, rest, hrest, rfl⟩ := h
    obtain ⟨hplain, hlength⟩ := hmedia.plain (by decide) (by decide) fun h => .inr (.inr h)
    intro e he
    rcases List.mem_cons.mp he with rfl | he
    · exact ⟨hplain, by rw [hlength]; decide⟩
    · exact ih hrest e he

/-- What the entries of an admitted package are. -/
structure Admitted (plan : PackagePlan) (entries : List PackageEntry) : Prop where
  shape : ∃ rest, rest ≠ [] ∧ entries = ⟨manifestFileName, plan.manifest⟩ :: rest ∧
    ∀ e ∈ rest, PayloadPath e.path
  manifest : 0 < plan.manifest.length ∧ plan.manifest.length ≤ builderManifestBytes
  count : entries.length ≤ maximumPackageEntries
  paths : (entries.map (·.path)).Nodup
  keys : ((entries.map (·.path)).map portablePathKey).Nodup

lemma manifestEntries_eq_some_iff {plan : PackagePlan} {entries : List PackageEntry} :
    manifestEntries plan = some entries ↔ plan.components ≠ [] ∧
      (0 < plan.manifest.length ∧ plan.manifest.length ≤ builderManifestBytes) ∧
      ∃ components, componentEntries 1 plan.components = some components ∧
      ∃ media, mediaEntries 1 plan.media = some media ∧
        entries.length ≤ maximumPackageEntries ∧ (entries.map (·.path)).Nodup ∧
        (entries.map fun e => portablePathKey e.path).Nodup ∧
        ⟨manifestFileName, plan.manifest⟩ :: (components ++ media) = entries := by
  simp only [manifestEntries, bind, Option.bind_eq_some_iff, Option.guard_eq_some',
    exists_const, pure, Option.some.injEq]
  constructor
  · rintro ⟨hsome, hmanifest, components, hcomponents, media, hmedia, hcount, hpaths, hkeys, rfl⟩
    exact ⟨hsome, hmanifest, components, hcomponents, media, hmedia, hcount, hpaths, hkeys, rfl⟩
  · rintro ⟨hsome, hmanifest, components, hcomponents, media, hmedia, hcount, hpaths, hkeys, rfl⟩
    exact ⟨hsome, hmanifest, components, hcomponents, media, hmedia, hcount, hpaths, hkeys, rfl⟩

lemma manifestEntries_some {plan : PackagePlan} {entries : List PackageEntry}
    (h : manifestEntries plan = some entries) : Admitted plan entries := by
  obtain ⟨hsome, hmanifest, components, hcomponents, media, hmedia, hcount, hpaths, hkeys,
    rfl⟩ := manifestEntries_eq_some_iff.mp h
  obtain ⟨hne, hall⟩ := componentEntries_some hcomponents
  refine ⟨⟨components ++ media, by simp [hne hsome], rfl, ?_⟩, hmanifest, hcount, hpaths, ?_⟩
  · intro e he
    rcases List.mem_append.mp he with he | he
    · exact hall e he
    · exact mediaEntries_some hmedia e he
  · rw [List.map_map]
    exact hkeys

/-! ## The written archive -/

/-- The bounds that an admitted package keeps to. -/
structure InBounds (entries : List PackageEntry) : Prop where
  bounded : ∀ e ∈ entries, e.Bounded
  plain : ∀ e ∈ entries, PlainPath e.path
  offset : directoryOffset entries ≤ offsetBound
  count : entries.length ≤ maximumPackageEntries
  /-- The last file is one of a component or a media object. -/
  last : ∃ init e, entries = init ++ [e] ∧ 18 ≤ e.path.length

lemma directoryOffset_le {entries : List PackageEntry}
    (h : ∀ e ∈ entries, (encodeAscii e.path).length ≤ 255) :
    directoryOffset entries ≤ 305 * entries.length + (entries.map (·.data.length)).sum := by
  induction entries with
  | nil => exact Nat.zero_le _
  | cons e es ih =>
    have hrest := ih fun x hx => h x (List.mem_cons_of_mem _ hx)
    have hfirst := h e List.mem_cons_self
    simp only [directoryOffset, PackageEntry.blockSize, List.map_cons, List.sum_cons,
      List.length_cons] at hrest ⊢
    omega

lemma Admitted.inBounds {plan : PackagePlan} {entries : List PackageEntry}
    (h : Admitted plan entries) (hcapacity : CapacityChecked entries) : InBounds entries := by
  obtain ⟨rest, hrest, hentries, hpayload⟩ := h.shape
  have hplain : ∀ e ∈ entries, PlainPath e.path := by
    rw [hentries]
    intro e he
    rcases List.mem_cons.mp he with rfl | he
    · exact plain_manifest
    · exact (hpayload e he).1
  have hpath : ∀ e ∈ entries, (encodeAscii e.path).length ≤ 255 := by
    intro e he
    rw [length_encodeAscii]
    exact (hplain e he).valid.2.1
  unfold CapacityChecked at hcapacity
  have hbounded : ∀ e ∈ entries, e.Bounded := by
    refine fun e he => ⟨hpath e he, ?_⟩
    have hmem : e.data.length ∈ entries.map (·.data.length) :=
      List.mem_map_of_mem (f := (·.data.length)) he
    have hle := List.single_le_sum (fun _ _ => Nat.zero_le _) _ hmem
    omega
  have hcount := h.count
  have hoffset := directoryOffset_le hpath
  refine ⟨hbounded, hplain, ?_, hcount, ?_⟩
  · unfold maximumPackageBytes at hcapacity
    unfold maximumPackageEntries at hcount
    unfold offsetBound
    omega
  · refine ⟨⟨manifestFileName, plan.manifest⟩ :: rest.dropLast, rest.getLast hrest, ?_, ?_⟩
    · rw [hentries, List.cons_append, List.dropLast_append_getLast]
    · exact (hpayload _ (List.getLast_mem hrest)).2

lemma writtenMembers_concat (offset : ℕ) (entries : List PackageEntry) (e : PackageEntry) :
    writtenMembers offset (entries ++ [e]) =
      writtenMembers offset entries ++ [writtenMember e
        (offset + ((writtenMembers offset entries).flatMap Member.block).length)] := by
  induction entries generalizing offset with
  | nil => rfl
  | cons first entries ih =>
    rw [List.cons_append, writtenMembers, ih, writtenMembers, List.cons_append, List.flatMap_cons,
      List.length_append, Nat.add_assoc]

/-- The records of an ending fit, and say where the directory is. -/
lemma sound_writtenEnding {count size : ℕ} (hcount : count ≤ maximumPackageEntries)
    (hsize : size ≤ zip64Limit) (hoffset : offset ≤ offsetBound) :
    (writtenEnding count size offset).Sound count size offset := by
  unfold maximumPackageEntries at hcount
  unfold zip64Limit at hsize
  unfold offsetBound at hoffset
  by_cases hzip64 : RequiresZip64 count size offset
  · rw [writtenEnding, if_pos hzip64]
    refine ⟨?_, rfl, rfl, (fun h => by cases h), ?_⟩
    · simp only [Struct.Fits, endHeader, fit_cons, fit_nil, and_true]
      refine ⟨by decide, by decide, by decide, by omega, by omega, by omega, by omega, by decide⟩
    · intro last locator hsome
      obtain ⟨rfl, rfl⟩ := Prod.mk.inj (Option.some.inj hsome)
      refine ⟨?_, ?_, rfl, rfl, rfl, rfl, rfl⟩
      · simp only [Struct.Fits, zip64End, fit_cons, fit_nil, and_true]
        refine ⟨by decide, by decide, by decide, by decide, by decide, by decide, by omega,
          by omega, by omega, by omega⟩
      · simp only [Struct.Fits, zip64Locator, fit_cons, fit_nil, and_true]
        refine ⟨by decide, by decide, by omega, by decide⟩
  · rw [writtenEnding, if_neg hzip64]
    simp only [RequiresZip64, zipFilecountLimit, zip64Limit, not_or, Nat.not_lt] at hzip64
    refine ⟨?_, rfl, rfl, fun _ => ⟨rfl, rfl, rfl⟩, fun _ _ h => by cases h⟩
    simp only [Struct.Fits, endHeader, fit_cons, fit_nil, and_true]
    refine ⟨by decide, by decide, by decide, by omega, by omega, by omega, by omega, by decide⟩

/-- Twenty bytes before the end header stands a part of a printable name, no locator. -/
lemma no_locator {front name tail : Bytes} (hfront : 2 ≤ front.length) (hname : 18 ≤ name.length)
    (hprintable : ∀ b ∈ name, 0x20 < b.toNat) (htail : tail.length = 22) :
    number (slice (front ++ (name ++ tail)) ((front ++ (name ++ tail)).length - 42) 4) ≠
      locatorSignature := by
  intro hmark
  have hlength : (front ++ (name ++ tail)).length = front.length + name.length + 22 := by
    simp only [List.length_append, htail]
    omega
  have hslice : slice (front ++ (name ++ tail)) ((front ++ (name ++ tail)).length - 42) 4 =
      [0x50, 0x4B, 0x06, 0x07] := by
    refine number_inj ?_ hmark
    exact (length_slice_eq_iff (by decide)).mpr (by omega)
  have hthird := congrArg (·[2]?) hslice
  rw [hlength] at hthird
  simp only [slice, List.getElem?_take, List.getElem?_drop] at hthird
  rw [if_pos (by decide), List.getElem?_append_right (by omega),
    List.getElem?_append_left (by omega)] at hthird
  have hmem := List.mem_of_getElem? hthird
  have hbound := hprintable _ hmem
  revert hbound
  decide

lemma printable_encodeAscii {path : String} (h : PlainPath path) :
    ∀ b ∈ encodeAscii path, 0x20 < b.toNat := by
  intro b hb
  obtain ⟨c, hc, rfl⟩ := List.mem_map.mp hb
  obtain ⟨hlow, hhigh⟩ := h.chars c hc
  rw [UInt8.toNat_ofNat']
  omega

/-- The members that are written for entries within the bounds, and their ending. -/
structure WrittenArchive (entries : List PackageEntry) (ms : List Member) (ending : Ending) :
    Prop where
  package : writePackage entries = archive ms ending
  members : ms = writtenMembers 0 entries
  ending : ending =
    writtenEnding entries.length (ms.flatMap Member.record).length (directoryOffset entries)
  size : (ms.flatMap Member.record).length ≤ zip64Limit
  written : Written 0 entries

lemma InBounds.writtenArchive {entries : List PackageEntry} (h : InBounds entries) :
    ∃ ms ending, WrittenArchive entries ms ending := by
  have hwritten : Written 0 entries := written h.bounded (by rw [Nat.zero_add]; exact h.offset)
  refine ⟨_, _, ?_, rfl, rfl, ?_, hwritten⟩
  · rw [writePackage, hwritten.blocks, hwritten.length]
  · have hrecords := hwritten.records
    have hcount := h.count
    unfold maximumPackageEntries at hcount
    unfold zip64Limit
    omega

variable {entries : List PackageEntry} {ms : List Member} {ending : Ending}

/-- Without a ZIP64 ending, no locator stands before the end header. -/
lemma WrittenArchive.plain (hw : WrittenArchive entries ms ending) (h : InBounds entries)
    (hending : ending.zip64 = none) :
    number (slice (archive ms ending) ((archive ms ending).length - 42) 4) ≠ locatorSignature := by
  obtain ⟨init, e, hentries, hlength⟩ := h.last
  have he : e ∈ entries := by simp [hentries]
  have hsmall : directoryOffset entries ≤ zip64Limit := by
    by_contra hlarge
    rw [hw.ending, writtenEnding, if_pos (.inr (.inl (Nat.not_le.mp hlarge)))] at hending
    exact nomatch hending
  have hblocks := hw.written.blocks
  rw [hentries, writtenMembers_concat, Nat.zero_add, List.flatMap_append, List.length_append,
    ← hentries] at hblocks
  generalize hstart : ((writtenMembers 0 init).flatMap Member.block).length = start at hblocks
  have hbounded := h.bounded e he
  have hoffset := h.offset
  have hsize : (writtenMember e start).block.length = e.blockSize :=
    length_block_writtenMember hbounded (by omega)
  rw [List.flatMap_singleton, hsize] at hblocks
  have hextra : (writtenMember e start).entryExtra = [] := by
    have hdata : ¬ zip64Limit < e.data.length := by
      unfold PackageEntry.blockSize at hblocks
      omega
    have hhere : ¬ zip64Limit < start := by omega
    simp [writtenMember, centralExtra, centralExtraValues, hdata, hhere]
  have harchive : archive ms ending = (ms.flatMap Member.block ++
      ((writtenMembers 0 init).flatMap Member.record ++
        centralHeader.pack (writtenMember e start).entry)) ++
      (encodeAscii e.path ++ endHeader.pack ending.last) := by
    have hrecord : (writtenMember e start).record =
        centralHeader.pack (writtenMember e start).entry ++ encodeAscii e.path := by
      rw [Member.record, hextra, List.append_nil]
      rfl
    have hbytes : ending.bytes = endHeader.pack ending.last := by
      rw [Ending.bytes, hending]
    have hrecords : ms.flatMap Member.record = (writtenMembers 0 init).flatMap Member.record ++
        (writtenMember e start).record := by
      rw [hw.members, hentries, writtenMembers_concat, Nat.zero_add, hstart, List.flatMap_append,
        List.flatMap_singleton]
    rw [archive, hrecords, hrecord, hbytes]
    simp only [List.append_assoc]
  have hfits : centralHeader.Fits (centralDirectoryHeader e start) :=
    fits_centralDirectoryHeader hbounded
  have hlast := (sound_writtenEnding h.count hw.size h.offset).fits
  rw [← hw.ending] at hlast
  rw [harchive]
  refine no_locator ?_ ?_ (printable_encodeAscii (h.plain e he)) (Struct.length_pack hlast)
  · rw [List.length_append, List.length_append]
    have hheader : (centralHeader.pack (writtenMember e start).entry).length = 46 :=
      Struct.length_pack hfits
    omega
  · rw [length_encodeAscii]
    exact hlength

/-- What is written has no gap, whatever its size. -/
lemma WrittenArchive.sound (hw : WrittenArchive entries ms ending) (h : InBounds entries) :
    StoredZip.Sound ms ending where
  tiled := by
    rw [hw.members]
    exact hw.written.tiled
  nonempty := by
    obtain ⟨init, e, hentries, -⟩ := h.last
    have hlength := hw.written.length
    rw [← hw.members, hentries, List.length_append] at hlength
    rintro rfl
    simp at hlength
  ending := by
    have hlength := hw.written.length
    have hblocks := hw.written.blocks
    rw [← hw.members] at hlength hblocks
    rw [hlength, hblocks, hw.ending]
    exact sound_writtenEnding h.count hw.size h.offset
  plain := hw.plain h

/-- The builder reads back every package that it writes. -/
lemma verifyArchive_writePackage (h : InBounds entries) :
    verifyArchive (writePackage entries) entries := by
  obtain ⟨ms, ending, hw⟩ := h.writtenArchive
  rw [verifyArchive, hw.package, (hw.sound h).directory_archive, hw.members, hw.written.content]

/-! ## Archives without ZIP64 end records are accepted -/

/-- A package that needs no ZIP64 end records, and whose count is no marker. -/
structure PlainlySized (entries : List PackageEntry) : Prop where
  count : entries.length < 0xFFFF
  offset : directoryOffset entries ≤ zip64Limit

lemma acceptable_writtenMember (h : entry.Bounded) (hplain : PlainPath entry.path)
    (hoffset : offset ≤ zip64Limit) (hdata : entry.data.length ≤ zip64Limit) :
    Acceptable (writtenMember entry offset) offset entry.path := by
  have hvalues : centralExtraValues entry offset = [] := by
    simp [centralExtraValues, Nat.not_lt.mpr hoffset, Nat.not_lt.mpr hdata]
  have hbound : offset ≤ offsetBound := Nat.le_trans hoffset (by decide)
  have hpath := h.path
  have hpositive : 0 < (encodeAscii entry.path).length := by
    rw [length_encodeAscii, Nat.pos_iff_ne_zero]
    intro hzero
    exact hplain.valid.1 (String.length_eq_zero_iff.mp hzero)
  refine ⟨sound_writtenMember h hbound, ?_, hplain.decoded, hplain.valid, ?_, h.data, rfl, rfl, rfl⟩
  · refine ⟨rfl, rfl, rfl, rfl, rfl, rfl, rfl, ⟨hpositive, hpath⟩, ?_, rfl, rfl, rfl⟩
    exact Nat.le_trans (length_centralExtra (length_centralExtraValues entry offset)) (by decide)
  · have hfield : (writtenMember entry offset).entryExtra = [] := by
      simp [writtenMember, centralExtra, hvalues]
    have hsize : (writtenMember entry offset).entry.uncompressedSize = entry.data.length :=
      if_neg (Nat.not_lt.mpr hdata)
    have hsize' : (writtenMember entry offset).entry.compressedSize = entry.data.length :=
      if_neg (Nat.not_lt.mpr hdata)
    have hplace : (writtenMember entry offset).entry.localOffset = offset :=
      if_neg (Nat.not_lt.mpr hoffset)
    have hdisk : (writtenMember entry offset).entry.disk = 0 := rfl
    unfold zip64Limit at hoffset hdata
    rw [hfield, hsize, hsize', hplace, hdisk, parseZip64CentralExtra, if_pos]
    · rfl
    · omega

/-- The written members under their paths. -/
def namedMembers : ℕ → List PackageEntry → List (Member × String)
  | _, [] => []
  | offset, entry :: entries =>
    (writtenMember entry offset, entry.path) ::
      namedMembers (offset + (writtenMember entry offset).block.length) entries

lemma namedMembers_fst (offset : ℕ) (entries : List PackageEntry) :
    (namedMembers offset entries).map Prod.fst = writtenMembers offset entries := by
  induction entries generalizing offset with
  | nil => rfl
  | cons e es ih => rw [namedMembers, List.map_cons, ih, writtenMembers]

lemma namedMembers_snd (offset : ℕ) (entries : List PackageEntry) :
    (namedMembers offset entries).map Prod.snd = entries.map (·.path) := by
  induction entries generalizing offset with
  | nil => rfl
  | cons e es ih => rw [namedMembers, List.map_cons, ih, List.map_cons]

lemma acceptableRun_namedMembers (hbounded : ∀ e ∈ entries, e.Bounded)
    (hplain : ∀ e ∈ entries, PlainPath e.path)
    (hoffset : offset + directoryOffset entries ≤ zip64Limit) :
    AcceptableRun offset (namedMembers offset entries) := by
  induction entries generalizing offset with
  | nil => exact .nil
  | cons e es ih =>
    have he := hbounded e List.mem_cons_self
    simp only [directoryOffset, List.map_cons, List.sum_cons] at hoffset
    have hhere : offset ≤ zip64Limit := by omega
    have hdata : e.data.length ≤ zip64Limit := by
      unfold PackageEntry.blockSize at hoffset
      omega
    have hblock : (writtenMember e offset).block.length = e.blockSize :=
      length_block_writtenMember he (Nat.le_trans hhere (by decide))
    refine .cons (acceptable_writtenMember he (hplain e List.mem_cons_self) hhere hdata) ?_
    refine ih (fun x hx => hbounded x (List.mem_cons_of_mem _ hx))
      (fun x hx => hplain x (List.mem_cons_of_mem _ hx)) ?_
    rw [hblock]
    unfold directoryOffset
    omega

lemma WrittenArchive.validateRawZip (hw : WrittenArchive entries ms ending) (h : InBounds entries)
    (hkeys : ((entries.map (·.path)).map portablePathKey).Nodup) (hsized : PlainlySized entries) :
    validateRawZip (archive ms ending) (archive ms ending).length entries.length =
      .ok (placedEntries 0 (namedMembers 0 entries)) := by
  have hcount := hsized.count
  have hoffset := hsized.offset
  have hsize := hw.size
  have hplain : ¬ RequiresZip64 entries.length (ms.flatMap Member.record).length
      (directoryOffset entries) := by
    unfold RequiresZip64 zipFilecountLimit
    omega
  have hending := hw.ending
  rw [writtenEnding, if_neg hplain] at hending
  have hrun : AcceptableRun 0 (namedMembers 0 entries) :=
    acceptableRun_namedMembers h.bounded h.plain (by rw [Nat.zero_add]; exact hoffset)
  have hmembers := namedMembers_fst 0 entries
  rw [← hw.members] at hmembers
  have hlength : (namedMembers 0 entries).length = entries.length := by
    rw [← List.length_map (f := Prod.snd), namedMembers_snd, List.length_map]
  have hblocks : blocksOf (namedMembers 0 entries) = ms.flatMap Member.block := by
    rw [blocksOf, hmembers]
  have hrecords : recordsOf (namedMembers 0 entries) = ms.flatMap Member.record := by
    rw [recordsOf, hmembers]
  have hdirectory : (ms.flatMap Member.block).length = directoryOffset entries := by
    rw [hw.members]
    exact hw.written.blocks
  have hsome : namedMembers 0 entries ≠ [] := by
    obtain ⟨init, e, hentries, -⟩ := h.last
    rw [← List.length_pos_iff, hlength, hentries, List.length_append, List.length_singleton]
    omega
  have hlast := (hw.sound h).ending.fits
  have hnone : ending.zip64 = none := by rw [hending]
  have hplace : ending.last = ⟨endSignature, 0, 0, entries.length, entries.length,
      (ms.flatMap Member.record).length, directoryOffset entries, 0⟩ := by rw [hending]
  have hplainEnding : PlainEnding ending.last (namedMembers 0 entries).length
      (recordsOf (namedMembers 0 entries)).length (blocksOf (namedMembers 0 entries)).length := by
    rw [hlength, hblocks, hrecords, hdirectory]
    refine ⟨hlast, ?_, ?_, ?_, ?_, ?_, ?_⟩ <;> rw [hplace]
    · exact ⟨rfl, rfl⟩
    · exact ⟨rfl, rfl⟩
  have hmarkers : ¬ EndHeader.HasZip64Markers ending.last := by
    rw [hplace, EndHeader.HasZip64Markers]
    unfold zip64Limit at hoffset hsize
    dsimp only
    omega
  have hfile : archive ms ending = blocksOf (namedMembers 0 entries) ++
      (recordsOf (namedMembers 0 entries) ++ endHeader.pack ending.last) := by
    rw [hblocks, hrecords, archive, Ending.bytes, hnone]
  have hnames : (((namedMembers 0 entries).map Prod.snd).map portablePathKey).Nodup := by
    rw [namedMembers_snd]
    exact hkeys
  rw [← hlength]
  exact validateRawZip_acceptable hrun hsome hnames (Nat.le_trans (Nat.le_of_eq hlength) h.count)
    hplainEnding hmarkers hfile (hw.plain h hnone)

/-! ## Other archives are refused -/

/-- A locator that the verifier finds has its signature in the file. -/
lemma number_of_readAt_locator {raw : Bytes} (h : readAt file cursor 20 = .ok raw) :
    number (slice file cursor 4) = (zip64Locator.unpack raw).signature := by
  obtain ⟨-, rfl, -⟩ := readAt_eq_ok.mp h
  have hhead := head_values_unpack zip64Locator rfl file cursor
  rw [size_zip64Locator] at hhead
  exact (Option.some.inj hhead).symm

/-- An ending with ZIP64 records is refused: their creator field is not the expected one, and
without markers they must not be there. -/
lemma readEndRecords_zip64 {last : Zip64End} {locator : Zip64Locator} {e : EndHeader}
    {d : CentralDirectory} (hlast : zip64End.Fits last) (hlocator : zip64Locator.Fits locator)
    (hfits : endHeader.Fits e) (hmadeBy : last.madeBy = 45)
    (hsignature : locator.signature = locatorSignature) (hplace : locator.zip64EndOffset = cursor)
    (hfixed : e.signature = endSignature ∧ e.diskNumber = 0 ∧ e.centralDisk = 0 ∧
      e.entriesOnDisk = e.entryCount ∧ e.commentSize = 0)
    (hfile : file.drop cursor =
      zip64End.pack last ++ (zip64Locator.pack locator ++ endHeader.pack e)) :
    readEndRecords file file.length ≠ .ok d := by
  intro hok
  have hsecond := drop_of_drop hfile
  rw [Struct.length_pack hlast, size_zip64End] at hsecond
  have hthird := drop_of_drop hsecond
  rw [Struct.length_pack hlocator, size_zip64Locator] at hthird
  obtain ⟨-, hread⟩ := readEndRecords_eq hfits hfixed hthird
  obtain ⟨raw, hraw, hunpack⟩ := readAt_of_drop (s := zip64Locator) (by decide) hlocator hsecond
  rw [size_zip64Locator] at hraw
  have hback : cursor + 56 + 20 - 20 = cursor + 56 := by omega
  rw [hread] at hok
  split at hok
  · simp only [zip64Directory, hback, except_bind_eq_ok, failUnless_eq_ok] at hok
    obtain ⟨-, -, raw', hraw', -, -, raw'', hraw'', -, hz, -⟩ := hok
    obtain rfl : raw = raw' := Except.ok.inj (hraw.symm.trans hraw')
    rw [hunpack, hplace] at hraw''
    obtain ⟨rawEnd, hrawEnd, hunpackEnd⟩ := readAt_of_drop (s := zip64End) (by decide) hlast hfile
    rw [size_zip64End] at hrawEnd
    obtain rfl : rawEnd = raw'' := Except.ok.inj (hrawEnd.symm.trans hraw'')
    obtain ⟨-, -, hcreator, -⟩ := hz
    rw [hunpackEnd, hmadeBy] at hcreator
    exact absurd hcreator (by decide)
  · simp only [plainDirectory, hback, if_pos (show 20 ≤ cursor + 56 + 20 by omega),
      except_bind_eq_ok, failUnless_eq_ok] at hok
    obtain ⟨mark, hmark, -, hne, -⟩ := hok
    obtain ⟨-, rfl, -⟩ := readAt_eq_ok.mp hmark
    apply hne
    rw [number_of_readAt_locator hraw, hunpack, hsignature]

lemma WrittenArchive.plainlySized (hw : WrittenArchive entries ms ending) (h : InBounds entries)
    {n : ℕ} {accepted : List CentralEntry}
    (hok : Backups.validateRawZip (archive ms ending) (archive ms ending).length n =
      .ok accepted) : PlainlySized entries := by
  unfold Backups.validateRawZip at hok
  simp only [except_bind_eq_ok] at hok
  obtain ⟨d, hd, -⟩ := hok
  have hsound := (hw.sound h).ending
  have hrecords : (archive ms ending).drop (ms.flatMap Member.block).length =
      ms.flatMap Member.record ++ ending.bytes := List.drop_left
  have hend := drop_of_drop hrecords
  have hdirectory : (ms.flatMap Member.block).length = directoryOffset entries := by
    rw [hw.members]
    exact hw.written.blocks
  have hending := hw.ending
  by_cases hzip64 : RequiresZip64 entries.length (ms.flatMap Member.record).length
      (directoryOffset entries)
  · rw [writtenEnding, if_pos hzip64] at hending
    obtain ⟨hlast, hlocator, hsignature, hplace, -⟩ := hsound.zip64 _ _ (by rw [hending])
    have hfits := hsound.fits
    rw [hending] at hfits
    exact absurd hd (readEndRecords_zip64 hlast hlocator hfits rfl hsignature hplace
      ⟨rfl, rfl, rfl, rfl, rfl⟩ (hend.trans (congrArg Ending.bytes hending)))
  · rw [writtenEnding, if_neg hzip64] at hending
    simp only [RequiresZip64, zipFilecountLimit, not_or, Nat.not_lt] at hzip64
    refine ⟨?_, hzip64.2.1⟩
    refine Nat.lt_of_le_of_ne hzip64.1 fun hcount => ?_
    -- the count is a marker, and no locator is there
    have hnone : ending.zip64 = none := by rw [hending]
    have hfits := hsound.fits
    rw [Ending.bytes, hnone] at hend
    have hlast : ending.last.entryCount = 0xFFFF := by
      rw [hending]
      exact hcount
    obtain ⟨hlength, hread⟩ := readEndRecords_eq hfits
      (by rw [hending]; exact ⟨rfl, rfl, rfl, rfl, rfl⟩) hend
    rw [hread, if_pos (.inl hlast)] at hd
    simp only [zip64Directory, except_bind_eq_ok, failUnless_eq_ok] at hd
    obtain ⟨-, -, raw, hraw, -, ⟨hsignature, -⟩, -⟩ := hd
    apply hw.plain h hnone
    have hback : (archive ms ending).length - 42 = (ms.flatMap Member.block).length +
        (ms.flatMap Member.record).length - 20 := by omega
    rw [hback, number_of_readAt_locator hraw, hsignature]

/-! ## Both readers -/

/-- What both readers make of a written package, apart from its raw structure. -/
lemma WrittenArchive.contents (hw : WrittenArchive entries ms ending) (h : InBounds entries) :
    directoryMembers (archive ms ending) =
      some (entries.map fun e => (encodeAscii e.path, e.data)) := by
  rw [(hw.sound h).directory_archive, hw.members, hw.written.content]

/-- The bytes of an entry that was found are its data. -/
lemma readEntryBytes_placedEntry {maximum : ℕ} {code : VerificationCode} (h : m.Sound cursor)
    (hfile : file.drop cursor = m.block ++ rest) (hmaximum : m.data.length ≤ maximum) :
    readEntryBytes file (placedEntry m cursor name) maximum code = .ok m.data := by
  have hdata : slice file (placedEntry m cursor name).dataStart
      (placedEntry m cursor name).uncompressedSize = m.data := (h.blockAt hfile).data
  simp only [readEntryBytes, hdata, except_bind_eq_ok, failUnless_eq_ok]
  exact ⟨(), hmaximum, (), rfl, rfl⟩

lemma openVerified_ok {plan : PackagePlan} (hadmitted : Admitted plan entries)
    (h : InBounds entries) (hw : WrittenArchive entries ms ending)
    (hlength : 0 < (archive ms ending).length ∧ (archive ms ending).length ≤ maximumPackageBytes)
    (hsized : PlainlySized entries) (hmanifest : plan.manifest.length ≤ maximumManifestBytes) :
    openVerified (archive ms ending) entries.length = .ok plan.manifest := by
  obtain ⟨rest, -, hentries, -⟩ := hadmitted.shape
  have hvalid := hw.validateRawZip h hadmitted.keys hsized
  have hplaced : placedEntries 0 (namedMembers 0 entries) =
      placedEntry (writtenMember ⟨manifestFileName, plan.manifest⟩ 0) 0 manifestFileName ::
        placedEntries (0 + (writtenMember ⟨manifestFileName, plan.manifest⟩ 0).block.length)
          (namedMembers (0 + (writtenMember ⟨manifestFileName, plan.manifest⟩ 0).block.length)
            rest) := by
    rw [hentries]
    rfl
  have hsound : (writtenMember ⟨manifestFileName, plan.manifest⟩ 0).Sound 0 :=
    sound_writtenMember (h.bounded _ (by rw [hentries]; exact List.mem_cons_self)) (Nat.zero_le _)
  have hfile : (archive ms ending).drop 0 =
      (writtenMember ⟨manifestFileName, plan.manifest⟩ 0).block ++
        ((writtenMembers (0 + (writtenMember ⟨manifestFileName, plan.manifest⟩ 0).block.length)
          rest).flatMap Member.block ++ (ms.flatMap Member.record ++ ending.bytes)) := by
    have hfirst : ms.flatMap Member.block =
        (writtenMember ⟨manifestFileName, plan.manifest⟩ 0).block ++
          (writtenMembers (0 + (writtenMember ⟨manifestFileName, plan.manifest⟩ 0).block.length)
            rest).flatMap Member.block := by
      rw [hw.members, hentries, writtenMembers, List.flatMap_cons]
    rw [List.drop_zero, archive, hfirst, List.append_assoc]
  have hcount : 0 < entries.length := by
    rw [hentries, List.length_cons]
    omega
  have hread : readEntryBytes (archive ms ending)
      (placedEntry (writtenMember ⟨manifestFileName, plan.manifest⟩ 0) 0 manifestFileName)
      maximumManifestBytes .manifestInvalid = .ok plan.manifest :=
    readEntryBytes_placedEntry hsound hfile hmanifest
  unfold openVerified
  simp only [except_bind_eq_ok, failUnless_eq_ok]
  refine ⟨(), hlength, (), ⟨hcount, h.count⟩, _, hvalid, ?_⟩
  rw [hplaced]
  simp only [except_bind_eq_ok, failUnless_eq_ok]
  exact ⟨(), rfl, hread⟩

lemma mapM_decodeAscii (hplain : ∀ e ∈ entries, PlainPath e.path) :
    (entries.map fun e => (encodeAscii e.path, e.data)).mapM (fun m => decodeAscii m.1) =
      some (entries.map (·.path)) := by
  induction entries with
  | nil => rfl
  | cons e es ih =>
    have hrest := ih fun x hx => hplain x (List.mem_cons_of_mem _ hx)
    rw [List.map_cons, List.mapM_cons, (hplain e List.mem_cons_self).decoded, hrest]
    rfl

lemma openRestored_eq_some_iff {plan : PackagePlan} {raw : Bytes}
    (hadmitted : Admitted plan entries) (h : InBounds entries)
    (hw : WrittenArchive entries ms ending)
    (hlength : 0 < (archive ms ending).length ∧ (archive ms ending).length ≤ maximumPackageBytes) :
    openRestored (archive ms ending) = some raw ↔
      raw = plan.manifest ∧ plan.manifest.length ≤ restoreManifestBytes := by
  obtain ⟨rest, -, hentries, -⟩ := hadmitted.shape
  have hnames := mapM_decodeAscii h.plain
  have hcount : 1 ≤ entries.length ∧ entries.length ≤ maximumPackageEntries := by
    refine ⟨?_, h.count⟩
    rw [hentries, List.length_cons]
    omega
  have hsafe : ∀ name ∈ entries.map (·.path), SafeArchiveName name := by
    intro name hname
    obtain ⟨e, he, rfl⟩ := List.mem_map.mp hname
    exact (h.plain e he).safe
  have hfirst : (entries.map (·.path)).head? = some manifestFileName := by
    rw [hentries]
    rfl
  have hmanifest : (entries.map fun e => (encodeAscii e.path, e.data)).head? =
      some (encodeAscii manifestFileName, plan.manifest) := by
    rw [hentries]
    rfl
  have hpositive := hadmitted.manifest.1
  simp only [openRestored, bind, Option.bind_eq_some_iff, Option.guard_eq_some', exists_const,
    hw.contents h, Option.some.injEq, exists_eq_left', hnames, hmanifest, List.length_map, pure]
  constructor
  · rintro ⟨-, -, -, -, ⟨-, hle⟩, rfl⟩
    exact ⟨rfl, hle⟩
  · rintro ⟨rfl, hle⟩
    exact ⟨hlength, hcount, hsafe, ⟨hadmitted.paths, hfirst⟩, ⟨hpositive, hle⟩, rfl⟩

lemma length_writtenEnding (count size offset : ℕ) (hfits : endHeader.Fits
    (writtenEnding count size offset).last) (hzip64 : ∀ last locator,
      (writtenEnding count size offset).zip64 = some (last, locator) →
        zip64End.Fits last ∧ zip64Locator.Fits locator) :
    (writtenEnding count size offset).bytes.length ≤ 98 := by
  have hlast : (endHeader.pack (writtenEnding count size offset).last).length = 22 :=
    Struct.length_pack hfits
  unfold Ending.bytes
  cases hsome : (writtenEnding count size offset).zip64 with
  | none =>
    dsimp only
    omega
  | some records =>
    obtain ⟨last, locator⟩ := records
    obtain ⟨hfirst, hsecond⟩ := hzip64 last locator hsome
    have hfirstSize : (zip64End.pack last).length = 56 := Struct.length_pack hfirst
    have hsecondSize : (zip64Locator.pack locator).length = 20 := Struct.length_pack hsecond
    simp only [List.length_append]
    omega

/-- Past the entries and the capacity check, the builder refuses nothing. -/
lemma buildPackage_eq_some_iff {plan : PackagePlan} {file : Bytes} :
    buildPackage plan = some (entries, file) ↔
      manifestEntries plan = some entries ∧ CapacityChecked entries ∧
        file = writePackage entries := by
  simp only [buildPackage, bind, Option.bind_eq_some_iff, Option.guard_eq_some', exists_const,
    pure, Option.some.injEq, Prod.mk.injEq]
  constructor
  · rintro ⟨entries', hentries, hcapacity, -, -, rfl, rfl⟩
    exact ⟨hentries, hcapacity, rfl⟩
  · rintro ⟨hentries, hcapacity, rfl⟩
    have hbounds := (manifestEntries_some hentries).inBounds hcapacity
    refine ⟨entries, hentries, hcapacity, verifyArchive_writePackage hbounds, ?_, rfl, rfl⟩
    obtain ⟨ms, ending, hw⟩ := hbounds.writtenArchive
    have hending : ending.bytes.length ≤ 98 := by
      have hsound := (hw.sound hbounds).ending
      rw [hw.ending] at hsound ⊢
      refine length_writtenEnding _ _ _ hsound.fits fun last locator hsome => ?_
      obtain ⟨hlast, hlocator, -⟩ := hsound.zip64 last locator hsome
      exact ⟨hlast, hlocator⟩
    have hrecords := hw.written.records
    have hblocks := hw.written.blocks
    rw [← hw.members] at hrecords hblocks
    have hoffset := directoryOffset_le fun e he => (hbounds.bounded e he).path
    obtain ⟨init, e, hinit, -⟩ := hbounds.last
    have hpositive : 50 ≤ directoryOffset entries := by
      rw [hinit, directoryOffset, List.map_append, List.sum_append, List.map_singleton,
        List.sum_singleton, PackageEntry.blockSize]
      omega
    unfold CapacityChecked at hcapacity
    rw [hw.package, archive, List.length_append, List.length_append, hblocks]
    omega

/-- The verifier takes only packages without ZIP64 end records. -/
lemma plainlySized_of_openVerified {plan : PackagePlan} {file raw : Bytes}
    (h : buildPackage plan = some (entries, file))
    (hverified : openVerified file entries.length = .ok raw) : PlainlySized entries := by
  obtain ⟨hentries, hcapacity, rfl⟩ := buildPackage_eq_some_iff.mp h
  have hbounds := (manifestEntries_some hentries).inBounds hcapacity
  obtain ⟨ms, ending, hw⟩ := hbounds.writtenArchive
  unfold openVerified at hverified
  simp only [except_bind_eq_ok] at hverified
  obtain ⟨-, -, -, -, accepted, haccepted, -⟩ := hverified
  rw [hw.package] at haccepted
  exact hw.plainlySized hbounds haccepted

/-- Both readers take a package that the builder wrote exactly when it has fewer than 65,535
entries, its central directory begins within `ZIP64_LIMIT`, and its manifest has at most
64 MiB. -/
theorem package_readable_iff {plan : PackagePlan} {entries : List PackageEntry} {file : Bytes}
    (h : buildPackage plan = some (entries, file)) :
    ((∃ raw, openVerified file entries.length = .ok raw) ∧ (openRestored file).isSome) ↔
      entries.length < 0xFFFF ∧ directoryOffset entries ≤ 2 ^ 31 - 1 ∧
        plan.manifest.length ≤ 64 * 1024 ^ 2 := by
  have hbuilt := h
  simp only [buildPackage, bind, Option.bind_eq_some_iff, Option.guard_eq_some', exists_const,
    pure, Option.some.injEq, Prod.mk.injEq] at h
  obtain ⟨entries', hentries, hcapacity, -, hlength, rfl, rfl⟩ := h
  have hadmitted := manifestEntries_some hentries
  have hbounds := hadmitted.inBounds hcapacity
  obtain ⟨ms, ending, hw⟩ := hbounds.writtenArchive
  have hrestored : ∀ raw, openRestored (writePackage entries') = some raw ↔
      raw = plan.manifest ∧ plan.manifest.length ≤ restoreManifestBytes := by
    rw [hw.package] at hlength ⊢
    exact fun raw => openRestored_eq_some_iff hadmitted hbounds hw hlength
  constructor
  · rintro ⟨⟨raw, hverified⟩, hsome⟩
    obtain ⟨raw', hopened⟩ := Option.isSome_iff_exists.mp hsome
    obtain ⟨hcount, hoffset⟩ := plainlySized_of_openVerified hbuilt hverified
    exact ⟨hcount, hoffset, ((hrestored raw').mp hopened).2⟩
  · rintro ⟨hcount, hoffset, hmanifest⟩
    constructor
    · rw [hw.package] at hlength ⊢
      exact ⟨_, openVerified_ok hadmitted hbounds hw hlength ⟨hcount, hoffset⟩ hmanifest⟩
    · rw [(hrestored plan.manifest).mpr ⟨rfl, hmanifest⟩]
      rfl

/-- One component with the given records, and no media. -/
def singlePlan (records : Bytes) : PackagePlan :=
  { manifest := [0x0A]
    components := [(⟨"components/0001/records.ndjson", records⟩,
      ⟨"components/0001/media-index.ndjson", []⟩)]
    media := [] }

def singleEntries (records : Bytes) : List PackageEntry :=
  [⟨manifestFileName, [0x0A]⟩, ⟨"components/0001/records.ndjson", records⟩,
    ⟨"components/0001/media-index.ndjson", []⟩]

lemma manifestEntries_singlePlan (records : Bytes) :
    manifestEntries (singlePlan records) = some (singleEntries records) := by
  have hrecords : PackagePathValid componentRecordsPattern 1 "components/0001/records.ndjson" := by
    decide
  have hmedia : PackagePathValid componentMediaPattern 1 "components/0001/media-index.ndjson" := by
    decide
  have hcomponents : componentEntries 1 (singlePlan records).components =
      some [⟨"components/0001/records.ndjson", records⟩,
        ⟨"components/0001/media-index.ndjson", []⟩] := by
    simp only [singlePlan, componentEntries, guard, if_pos hrecords, if_pos hmedia]
    rfl
  refine manifestEntries_eq_some_iff.mpr ⟨List.cons_ne_nil _ _,
    show 0 < 1 ∧ 1 ≤ builderManifestBytes by decide, _, hcomponents, [], rfl,
    ?_, ?_, ?_, rfl⟩
  · show 3 ≤ maximumPackageEntries
    decide
  · show ([manifestFileName, "components/0001/records.ndjson",
      "components/0001/media-index.ndjson"] : List String).Nodup
    decide
  · show ([portablePathKey manifestFileName, portablePathKey "components/0001/records.ndjson",
      portablePathKey "components/0001/media-index.ndjson"] : List String).Nodup
    decide

lemma buildPackage_singlePlan {records : Bytes} (h : records.length ≤ 2 ^ 40) :
    buildPackage (singlePlan records) =
      some (singleEntries records, writePackage (singleEntries records)) := by
  refine buildPackage_eq_some_iff.mpr ⟨manifestEntries_singlePlan records, ?_, rfl⟩
  simp only [CapacityChecked, singleEntries, List.map_cons, List.map_nil, List.sum_cons,
    List.sum_nil, List.length_cons, List.length_nil, maximumPackageBytes]
  omega

/-- The package of one component with two records is verified and restored. -/
theorem twoRecords_readable :
    let records := encodeAscii "\x7b\"id\":1\x7d\n\x7b\"id\":2\x7d\n"
    (∃ raw, openVerified (writePackage (singleEntries records)) (singleEntries records).length =
      .ok raw) ∧ (openRestored (writePackage (singleEntries records))).isSome := by
  intro records
  have hbuilt := buildPackage_singlePlan (show records.length ≤ 2 ^ 40 by decide)
  exact (package_readable_iff hbuilt).mpr ⟨by decide, by decide, by decide⟩

/-- The builder publishes a package of more than 2 GiB, and the verifier refuses it. -/
lemma unreadable_of_length {records : Bytes} (hshort : records.length ≤ 2 ^ 40)
    (hlong : 2 ^ 31 ≤ records.length) :
    ∃ file, buildPackage (singlePlan records) = some (singleEntries records, file) ∧
      ¬ ∃ raw, openVerified file (singleEntries records).length = .ok raw := by
  have hbuilt := buildPackage_singlePlan hshort
  refine ⟨_, hbuilt, ?_⟩
  rintro ⟨raw, hverified⟩
  have hoffset := (plainlySized_of_openVerified hbuilt hverified).offset
  simp only [directoryOffset, PackageEntry.blockSize, singleEntries, List.map_cons, List.map_nil,
    List.sum_cons, List.sum_nil, zip64Limit] at hoffset
  omega

/-- Records of 2 GiB. -/
def twoGigabytes : Bytes := List.replicate (2 ^ 31) 0

lemma length_twoGigabytes : twoGigabytes.length = 2 ^ 31 := by
  rw [twoGigabytes, List.length_replicate]

theorem twoGigabytes_unreadable :
    ∃ file, buildPackage (singlePlan twoGigabytes) = some (singleEntries twoGigabytes, file) ∧
      ¬ ∃ raw, openVerified file (singleEntries twoGigabytes).length = .ok raw := by
  refine unreadable_of_length ?_ ?_
  · rw [length_twoGigabytes]
    omega
  · rw [length_twoGigabytes]

end NexaPos.Backups
