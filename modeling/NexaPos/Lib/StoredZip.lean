import NexaPos.Lib.ByteLayout

/-!
# Stored ZIP archives

The records of the ZIP format with their ZIP64 forms, and the two ways to read an archive whose
members are stored: from the front, local header after local header (`streamFrom`), and from the
back, by the end records and the central directory (`directoryMembers`).

`Tiled` members follow each other without a gap, each local header in agreement with its central
record; of an archive that is their blocks, their records and an `Ending`, both ways read the
same members with the same bytes (`stream_archive`, `directory_archive`).
-/

namespace StoredZip

open ByteLayout

/-! ## The records of the format -/

/-- `PK\x03\x04`. -/
def localSignature : ℕ := number [0x50, 0x4B, 0x03, 0x04]

/-- `PK\x01\x02`. -/
def centralSignature : ℕ := number [0x50, 0x4B, 0x01, 0x02]

/-- `PK\x05\x06`. -/
def endSignature : ℕ := number [0x50, 0x4B, 0x05, 0x06]

/-- `PK\x06\x06`. -/
def zip64EndSignature : ℕ := number [0x50, 0x4B, 0x06, 0x06]

/-- `PK\x06\x07`. -/
def locatorSignature : ℕ := number [0x50, 0x4B, 0x06, 0x07]

structure LocalHeader where
  signature : ℕ
  extractVersion : ℕ
  flags : ℕ
  compression : ℕ
  dosTime : ℕ
  dosDate : ℕ
  crc32 : ℕ
  compressedSize : ℕ
  uncompressedSize : ℕ
  nameSize : ℕ
  extraSize : ℕ
  deriving DecidableEq, Repr

structure CentralHeader where
  signature : ℕ
  madeBy : ℕ
  extractVersion : ℕ
  flags : ℕ
  compression : ℕ
  dosTime : ℕ
  dosDate : ℕ
  crc32 : ℕ
  compressedSize : ℕ
  uncompressedSize : ℕ
  nameSize : ℕ
  extraSize : ℕ
  commentSize : ℕ
  disk : ℕ
  internalAttributes : ℕ
  externalAttributes : ℕ
  localOffset : ℕ
  deriving DecidableEq, Repr

structure EndHeader where
  signature : ℕ
  diskNumber : ℕ
  centralDisk : ℕ
  entriesOnDisk : ℕ
  entryCount : ℕ
  centralSize : ℕ
  centralOffset : ℕ
  commentSize : ℕ
  deriving DecidableEq, Repr

structure Zip64End where
  signature : ℕ
  recordSize : ℕ
  madeBy : ℕ
  extractVersion : ℕ
  diskNumber : ℕ
  centralDisk : ℕ
  entriesOnDisk : ℕ
  entryCount : ℕ
  centralSize : ℕ
  centralOffset : ℕ
  deriving DecidableEq, Repr

structure Zip64Locator where
  signature : ℕ
  diskNumber : ℕ
  zip64EndOffset : ℕ
  totalDisks : ℕ
  deriving DecidableEq, Repr

/-- `<4s5H3L2H`. -/
def localHeader : Struct LocalHeader where
  widths := [4, 2, 2, 2, 2, 2, 4, 4, 4, 2, 2]
  values h := [h.signature, h.extractVersion, h.flags, h.compression, h.dosTime, h.dosDate,
    h.crc32, h.compressedSize, h.uncompressedSize, h.nameSize, h.extraSize]
  ofValues
    | [a, b, c, d, e, f, g, h, i, j, k] => ⟨a, b, c, d, e, f, g, h, i, j, k⟩
    | _ => ⟨0, 0, 0, 0, 0, 0, 0, 0, 0, 0, 0⟩
  ofValues_values _ := rfl
  values_ofValues
    | [_, _, _, _, _, _, _, _, _, _, _], _ => rfl

/-- `<4s6H3L5H2L`. -/
def centralHeader : Struct CentralHeader where
  widths := [4, 2, 2, 2, 2, 2, 2, 4, 4, 4, 2, 2, 2, 2, 2, 4, 4]
  values h := [h.signature, h.madeBy, h.extractVersion, h.flags, h.compression, h.dosTime,
    h.dosDate, h.crc32, h.compressedSize, h.uncompressedSize, h.nameSize, h.extraSize,
    h.commentSize, h.disk, h.internalAttributes, h.externalAttributes, h.localOffset]
  ofValues
    | [a, b, c, d, e, f, g, h, i, j, k, l, m, n, o, p, q] =>
      ⟨a, b, c, d, e, f, g, h, i, j, k, l, m, n, o, p, q⟩
    | _ => ⟨0, 0, 0, 0, 0, 0, 0, 0, 0, 0, 0, 0, 0, 0, 0, 0, 0⟩
  ofValues_values _ := rfl
  values_ofValues
    | [_, _, _, _, _, _, _, _, _, _, _, _, _, _, _, _, _], _ => rfl

/-- `<4s4H2LH`. -/
def endHeader : Struct EndHeader where
  widths := [4, 2, 2, 2, 2, 4, 4, 2]
  values h := [h.signature, h.diskNumber, h.centralDisk, h.entriesOnDisk, h.entryCount,
    h.centralSize, h.centralOffset, h.commentSize]
  ofValues
    | [a, b, c, d, e, f, g, h] => ⟨a, b, c, d, e, f, g, h⟩
    | _ => ⟨0, 0, 0, 0, 0, 0, 0, 0⟩
  ofValues_values _ := rfl
  values_ofValues
    | [_, _, _, _, _, _, _, _], _ => rfl

/-- `<4sQ2H2L4Q`. -/
def zip64End : Struct Zip64End where
  widths := [4, 8, 2, 2, 4, 4, 8, 8, 8, 8]
  values h := [h.signature, h.recordSize, h.madeBy, h.extractVersion, h.diskNumber,
    h.centralDisk, h.entriesOnDisk, h.entryCount, h.centralSize, h.centralOffset]
  ofValues
    | [a, b, c, d, e, f, g, h, i, j] => ⟨a, b, c, d, e, f, g, h, i, j⟩
    | _ => ⟨0, 0, 0, 0, 0, 0, 0, 0, 0, 0⟩
  ofValues_values _ := rfl
  values_ofValues
    | [_, _, _, _, _, _, _, _, _, _], _ => rfl

/-- `<4sLQL`. -/
def zip64Locator : Struct Zip64Locator where
  widths := [4, 4, 8, 4]
  values h := [h.signature, h.diskNumber, h.zip64EndOffset, h.totalDisks]
  ofValues
    | [a, b, c, d] => ⟨a, b, c, d⟩
    | _ => ⟨0, 0, 0, 0⟩
  ofValues_values _ := rfl
  values_ofValues
    | [_, _, _, _], _ => rfl

@[simp] lemma size_localHeader : localHeader.size = 30 := rfl

@[simp] lemma size_centralHeader : centralHeader.size = 46 := rfl

@[simp] lemma size_endHeader : endHeader.size = 22 := rfl

@[simp] lemma size_zip64End : zip64End.size = 56 := rfl

@[simp] lemma size_zip64Locator : zip64Locator.size = 20 := rfl

/-! ## ZIP64 extra fields -/

/-- The payload of the first extra field with identifier 1; nothing when there is none. -/
def zip64Payload (extra : Bytes) : Bytes :=
  if 4 ≤ extra.length then
    if number (slice extra 0 2) = 1 then slice extra 4 (number (slice extra 2 2))
    else zip64Payload (extra.drop (4 + number (slice extra 2 2)))
  else []
termination_by extra.length
decreasing_by
  rw [List.length_drop]
  omega

/-- A value that is marked by its largest number stands in the payload instead. -/
def takeMarked (value marker width : ℕ) (payload : Bytes) : Option (ℕ × Bytes) :=
  if value = marker then
    if payload.length < width then none
    else some (number (payload.take width), payload.drop width)
  else some (value, payload)

/-- The uncompressed and the compressed size of a local header. -/
def LocalHeader.sizes (h : LocalHeader) (extra : Bytes) : Option (ℕ × ℕ) := do
  let (uncompressed, rest) ← takeMarked h.uncompressedSize 0xFFFFFFFF 8 (zip64Payload extra)
  let (compressed, _) ← takeMarked h.compressedSize 0xFFFFFFFF 8 rest
  return (uncompressed, compressed)

/-- The uncompressed and the compressed size, the offset and the disk of a central record. -/
def CentralHeader.place (h : CentralHeader) (extra : Bytes) : Option (ℕ × ℕ × ℕ × ℕ) := do
  let (uncompressed, rest) ← takeMarked h.uncompressedSize 0xFFFFFFFF 8 (zip64Payload extra)
  let (compressed, rest) ← takeMarked h.compressedSize 0xFFFFFFFF 8 rest
  let (offset, rest) ← takeMarked h.localOffset 0xFFFFFFFF 8 rest
  let (disk, _) ← takeMarked h.disk 0xFFFF 4 rest
  return (uncompressed, compressed, offset, disk)

/-- An extra field that is one ZIP64 field. -/
lemma zip64Payload_field {payload : Bytes} (h : payload.length < 256 ^ 2) :
    zip64Payload (bytes 2 1 ++ bytes 2 payload.length ++ payload) = payload := by
  have hlength : 4 ≤ (bytes 2 1 ++ bytes 2 payload.length ++ payload).length := by
    simp only [List.length_append, length_bytes]
    omega
  have hdrop : (bytes 2 1 ++ bytes 2 payload.length ++ payload).drop 0 =
      bytes 2 1 ++ (bytes 2 payload.length ++ payload) := by simp
  have hid : slice (bytes 2 1 ++ bytes 2 payload.length ++ payload) 0 2 = bytes 2 1 :=
    slice_of_drop hdrop
  have hrest := drop_of_drop hdrop
  have hsize : slice (bytes 2 1 ++ bytes 2 payload.length ++ payload) 2 2 =
      bytes 2 payload.length := slice_of_drop hrest
  have hpayload : (bytes 2 1 ++ bytes 2 payload.length ++ payload).drop 4 = payload ++ [] := by
    simpa using drop_of_drop hrest
  rw [zip64Payload, if_pos hlength, hid, number_bytes (by decide), if_pos rfl, hsize,
    number_bytes h]
  exact slice_of_drop hpayload

/-! ## Reading from the front -/

/-- The members from a cursor on, up to the first record that is no local header. -/
def streamFrom (file : Bytes) (cursor : ℕ) : Option (List (Bytes × Bytes)) :=
  if number (slice file cursor 4) = localSignature then
    let h := localHeader.unpack (slice file cursor 30)
    let name := slice file (cursor + 30) h.nameSize
    let extra := slice file (cursor + 30 + h.nameSize) h.extraSize
    let start := cursor + 30 + h.nameSize + h.extraSize
    match h.sizes extra with
    | none => none
    | some (_, size) =>
      if h.flags = 0 ∧ h.compression = 0 ∧ start + size ≤ file.length then
        (streamFrom file (start + size)).map ((name, slice file start size) :: ·)
      else none
  else some []
termination_by file.length - cursor
decreasing_by omega

/-! ## Reading from the back -/

/-- The last place where an end header stands, its comment reaching the end of the file. -/
def findEnd (file : Bytes) : Option ℕ :=
  (List.range (file.length - 21)).reverse.find? fun i =>
    number (slice file i 4) = endSignature ∧
      i + 22 + (endHeader.unpack (slice file i 22)).commentSize = file.length

/-- The number of central records and where they begin; a ZIP64 end record goes before. -/
def findDirectory (file : Bytes) : Option (ℕ × ℕ) :=
  (findEnd file).map fun at_ =>
    if 20 ≤ at_ ∧ number (slice file (at_ - 20) 4) = locatorSignature then
      let locator := zip64Locator.unpack (slice file (at_ - 20) 20)
      let last := zip64End.unpack (slice file locator.zip64EndOffset 56)
      (last.entryCount, last.centralOffset)
    else
      let last := endHeader.unpack (slice file at_ 22)
      (last.entryCount, last.centralOffset)

/-- The data of a central record: after the local header that it points at. -/
def memberData (file : Bytes) (h : CentralHeader) (extra : Bytes) : Option Bytes :=
  (h.place extra).map fun (_, size, offset, _) =>
    let head := localHeader.unpack (slice file offset 30)
    slice file (offset + 30 + head.nameSize + head.extraSize) size

/-- The members of so many central records from a cursor on. -/
def membersFrom (file : Bytes) : ℕ → ℕ → Option (List (Bytes × Bytes))
  | 0, _ => some []
  | n + 1, cursor => do
    let h := centralHeader.unpack (slice file cursor 46)
    let name := slice file (cursor + 46) h.nameSize
    let extra := slice file (cursor + 46 + h.nameSize) h.extraSize
    let data ← memberData file h extra
    let rest ← membersFrom file n
      (cursor + 46 + h.nameSize + h.extraSize + h.commentSize)
    return (name, data) :: rest

def directoryMembers (file : Bytes) : Option (List (Bytes × Bytes)) := do
  let (count, offset) ← findDirectory file
  membersFrom file count offset

/-! ## Archives without gaps -/

/-- A member with its two headers. -/
structure Member where
  name : Bytes
  data : Bytes
  header : LocalHeader
  headerExtra : Bytes
  entry : CentralHeader
  entryExtra : Bytes
  deriving DecidableEq, Repr

namespace Member

/-- The local header, the name, the extra field and the data. -/
def block (m : Member) : Bytes :=
  localHeader.pack m.header ++ (m.name ++ (m.headerExtra ++ m.data))

/-- The central record with the name and the extra field. -/
def record (m : Member) : Bytes := centralHeader.pack m.entry ++ (m.name ++ m.entryExtra)

def content (m : Member) : Bytes × Bytes := (m.name, m.data)

/-- The headers describe the member, whose block stands at an offset, and agree. -/
structure Sound (m : Member) (offset : ℕ) : Prop where
  headerFits : localHeader.Fits m.header
  headerSignature : m.header.signature = localSignature
  headerName : m.header.nameSize = m.name.length
  headerExtra : m.header.extraSize = m.headerExtra.length
  headerSizes : m.header.sizes m.headerExtra = some (m.data.length, m.data.length)
  noFlags : m.header.flags = 0
  stored : m.header.compression = 0
  entryFits : centralHeader.Fits m.entry
  entrySignature : m.entry.signature = centralSignature
  entryName : m.entry.nameSize = m.name.length
  entryExtra : m.entry.extraSize = m.entryExtra.length
  noComment : m.entry.commentSize = 0
  place : m.entry.place m.entryExtra = some (m.data.length, m.data.length, offset, 0)
  sameVersion : m.entry.extractVersion = m.header.extractVersion
  sameFlags : m.entry.flags = m.header.flags
  sameCompression : m.entry.compression = m.header.compression
  sameTime : m.entry.dosTime = m.header.dosTime
  sameDate : m.entry.dosDate = m.header.dosDate
  sameCrc32 : m.entry.crc32 = m.header.crc32

variable {m : Member} {offset : ℕ}

lemma Sound.length_block (h : m.Sound offset) :
    m.block.length = 30 + m.name.length + m.headerExtra.length + m.data.length := by
  simp only [block, List.length_append, Struct.length_pack h.headerFits, size_localHeader]
  omega

lemma Sound.length_record (h : m.Sound offset) :
    m.record.length = 46 + m.name.length + m.entryExtra.length := by
  simp only [record, List.length_append, Struct.length_pack h.entryFits, size_centralHeader]
  omega

end Member

/-- The members stand one after the other from an offset on. -/
inductive Tiled : ℕ → List Member → Prop
  | nil {offset : ℕ} : Tiled offset []
  | cons {offset : ℕ} {m : Member} {ms : List Member} (sound : m.Sound offset)
    (rest : Tiled (offset + m.block.length) ms) : Tiled offset (m :: ms)

/-- The records after the central ones. -/
structure Ending where
  zip64 : Option (Zip64End × Zip64Locator)
  last : EndHeader
  deriving DecidableEq, Repr

namespace Ending

def bytes (e : Ending) : Bytes :=
  match e.zip64 with
  | some (last, locator) =>
    zip64End.pack last ++ (zip64Locator.pack locator ++ endHeader.pack e.last)
  | none => endHeader.pack e.last

/-- The records say where the directory is, which ends at an offset. -/
structure Sound (e : Ending) (count size offset : ℕ) : Prop where
  fits : endHeader.Fits e.last
  signature : e.last.signature = endSignature
  noComment : e.last.commentSize = 0
  plain : e.zip64 = none →
    e.last.entryCount = count ∧ e.last.centralSize = size ∧ e.last.centralOffset = offset
  zip64 : ∀ last locator, e.zip64 = some (last, locator) →
    zip64End.Fits last ∧ zip64Locator.Fits locator ∧ locator.signature = locatorSignature ∧
      locator.zip64EndOffset = offset + size ∧ last.entryCount = count ∧
      last.centralSize = size ∧ last.centralOffset = offset

end Ending

/-- The blocks of the members, their records, and the ending. -/
def archive (ms : List Member) (e : Ending) : Bytes :=
  ms.flatMap Member.block ++ (ms.flatMap Member.record ++ e.bytes)

/-! ## Both ways read the members -/

variable {file rest : Bytes} {cursor offset : ℕ} {m : Member} {ms : List Member}

/-- What stands where a block begins. -/
structure BlockAt (file : Bytes) (cursor : ℕ) (m : Member) : Prop where
  header : localHeader.unpack (slice file cursor 30) = m.header
  name : slice file (cursor + 30) m.name.length = m.name
  extra : slice file (cursor + 30 + m.name.length) m.headerExtra.length = m.headerExtra
  data : slice file (cursor + 30 + m.name.length + m.headerExtra.length) m.data.length = m.data
  within : cursor + m.block.length ≤ file.length

lemma Member.Sound.blockAt (h : m.Sound offset) (hfile : file.drop cursor = m.block ++ rest) :
    BlockAt file cursor m := by
  have hlength : (localHeader.pack m.header).length = 30 := Struct.length_pack h.headerFits
  have hwithin : cursor + m.block.length ≤ file.length := by
    have hcount := congrArg List.length hfile
    rw [List.length_drop, List.length_append] at hcount
    have hblock := h.length_block
    omega
  simp only [Member.block, List.append_assoc] at hfile
  have hname := drop_of_drop hfile
  rw [hlength] at hname
  have hextra := drop_of_drop hname
  have hdata := drop_of_drop hextra
  refine ⟨?_, slice_of_drop hname, slice_of_drop hextra, slice_of_drop hdata, hwithin⟩
  have hheader := slice_of_drop hfile
  rw [hlength] at hheader
  rw [hheader, Struct.unpack_pack h.headerFits]

/-- The first field of a record is its signature. -/
lemma head_values_unpack {α : Type} (s : Struct α) {ws : List ℕ} (hs : s.widths = 4 :: ws)
    (file : Bytes) (cursor : ℕ) :
    (s.values (s.unpack (slice file cursor s.size))).head? =
      some (number (slice file cursor 4)) := by
  have hsize : 4 ≤ s.size := by
    rw [Struct.size, hs, List.sum_cons]
    omega
  rw [Struct.values_unpack, hs, cut, List.head?_cons, slice, List.take_take, Nat.min_eq_left hsize]
  rfl

lemma streamFrom_block (h : m.Sound offset) (hfile : file.drop cursor = m.block ++ rest) :
    streamFrom file cursor =
      (streamFrom file (cursor + m.block.length)).map (m.content :: ·) := by
  have hat := h.blockAt hfile
  have hsignature : number (slice file cursor 4) = localSignature := by
    have hfirst := head_values_unpack localHeader rfl file cursor
    rw [size_localHeader, hat.header] at hfirst
    exact (Option.some.inj hfirst).symm.trans h.headerSignature
  have hend : cursor + 30 + m.name.length + m.headerExtra.length + m.data.length =
      cursor + m.block.length := by
    rw [h.length_block]
    omega
  rw [streamFrom, if_pos hsignature]
  simp only [hat.header, h.headerName, h.headerExtra, hat.extra, h.headerSizes, hat.name, hat.data,
    h.noFlags, h.stored, hend, hat.within, and_self, if_true]
  rfl

/-- The bytes that tiled members stand on. -/
lemma streamFrom_tiled (h : Tiled cursor ms)
    (hfile : file.drop cursor = ms.flatMap Member.block ++ rest)
    (hstop : number (rest.take 4) ≠ localSignature) :
    streamFrom file cursor = some (ms.map Member.content) := by
  induction h with
  | @nil cursor =>
    have hnext : number (slice file cursor 4) ≠ localSignature := by
      rw [slice, hfile]
      exact hstop
    rw [streamFrom, if_neg hnext]
    rfl
  | @cons cursor m ms sound _ ih =>
    simp only [List.flatMap_cons, List.append_assoc] at hfile
    rw [streamFrom_block sound hfile, ih (drop_of_drop hfile)]
    rfl

/-- What stands where a central record begins. -/
structure RecordAt (file : Bytes) (cursor : ℕ) (m : Member) : Prop where
  entry : centralHeader.unpack (slice file cursor 46) = m.entry
  name : slice file (cursor + 46) m.name.length = m.name
  extra : slice file (cursor + 46 + m.name.length) m.entryExtra.length = m.entryExtra

lemma Member.Sound.recordAt (h : m.Sound offset) (hfile : file.drop cursor = m.record ++ rest) :
    RecordAt file cursor m := by
  have hlength : (centralHeader.pack m.entry).length = 46 := Struct.length_pack h.entryFits
  simp only [Member.record, List.append_assoc] at hfile
  have hname := drop_of_drop hfile
  rw [hlength] at hname
  refine ⟨?_, slice_of_drop hname, slice_of_drop (drop_of_drop hname)⟩
  have hentry := slice_of_drop hfile
  rw [hlength] at hentry
  rw [hentry, Struct.unpack_pack h.entryFits]

lemma memberData_sound (h : m.Sound offset) (hfile : file.drop offset = m.block ++ rest) :
    memberData file m.entry m.entryExtra = some m.data := by
  have hat := h.blockAt hfile
  simp only [memberData, h.place, Option.map_some, hat.header, h.headerName, h.headerExtra,
    hat.data]

/-- The central records of tiled members, whose blocks begin at `offset`. -/
lemma membersFrom_tiled (h : Tiled offset ms)
    (hblocks : file.drop offset = ms.flatMap Member.block ++ rest) {rest' : Bytes}
    (hrecords : file.drop cursor = ms.flatMap Member.record ++ rest') :
    membersFrom file ms.length cursor = some (ms.map Member.content) := by
  induction h generalizing cursor with
  | nil => rfl
  | @cons offset m ms sound _ ih =>
    simp only [List.flatMap_cons, List.append_assoc] at hblocks hrecords
    have hat := sound.recordAt hrecords
    have hend : cursor + 46 + m.name.length + m.entryExtra.length = cursor + m.record.length := by
      rw [sound.length_record]
      omega
    have hrest := ih (drop_of_drop hblocks) (drop_of_drop hrecords)
    simp only [List.length_cons, membersFrom, hat.entry, sound.entryName, sound.entryExtra,
      sound.noComment, hat.name, hat.extra, memberData_sound sound hblocks, hend, hrest,
      Nat.add_zero, List.map_cons]
    rfl

/-- An end header without a comment at the end of the file. -/
lemma findEnd_eq {last : EndHeader} {at_ : ℕ} (hfits : endHeader.Fits last)
    (hsignature : last.signature = endSignature) (hcomment : last.commentSize = 0)
    (hfile : file.drop at_ = endHeader.pack last ++ []) :
    findEnd file = some at_ ∧ endHeader.unpack (slice file at_ 22) = last := by
  have hlength : (endHeader.pack last).length = 22 := Struct.length_pack hfits
  have hslice := slice_of_drop hfile
  rw [hlength] at hslice
  have hunpack : endHeader.unpack (slice file at_ 22) = last := by
    rw [hslice, Struct.unpack_pack hfits]
  have hfirst := head_values_unpack endHeader rfl file at_
  rw [size_endHeader, hunpack] at hfirst
  have hmark : number (slice file at_ 4) = endSignature :=
    (Option.some.inj hfirst).symm.trans hsignature
  have hcount : file.length = at_ + 22 := by
    have hcount := congrArg List.length hfile
    rw [List.length_drop, List.append_nil, hlength] at hcount
    omega
  refine ⟨?_, hunpack⟩
  rw [findEnd, hcount, show at_ + 22 - 21 = at_ + 1 by omega, List.range_succ,
    List.reverse_append, List.reverse_singleton, List.singleton_append, List.find?_cons_of_pos]
  simp [hmark, hunpack, hcomment]

namespace Ending

variable {e : Ending} {count size : ℕ}

/-- The directory is found at its place. -/
lemma Sound.findDirectory (h : e.Sound count size offset)
    (hfile : file.drop (offset + size) = e.bytes)
    (hplain : e.zip64 = none → number (slice file (file.length - 42) 4) ≠ locatorSignature) :
    findDirectory file = some (count, offset) := by
  have hlast : (endHeader.pack e.last).length = 22 := Struct.length_pack h.fits
  cases hzip : e.zip64 with
  | none =>
    rw [Ending.bytes, hzip] at hfile
    obtain ⟨hcount, -, hoffset⟩ := h.plain hzip
    obtain ⟨hfind, hunpack⟩ := findEnd_eq h.fits h.signature h.noComment
      (hfile.trans (List.append_nil _).symm)
    have hlength : file.length - 42 = offset + size - 20 := by
      have htotal := congrArg List.length hfile
      rw [List.length_drop, hlast] at htotal
      omega
    have hmark := hplain hzip
    rw [hlength] at hmark
    rw [StoredZip.findDirectory, hfind, Option.map_some, if_neg fun h => hmark h.2]
    simp only [hunpack, hcount, hoffset]
  | some records =>
    obtain ⟨last, locator⟩ := records
    obtain ⟨hlastFits, hlocatorFits, hsignature, hplace, hcount, -, hoffset⟩ := h.zip64 _ _ hzip
    have hfirst : (zip64End.pack last).length = 56 := Struct.length_pack hlastFits
    have hsecond : (zip64Locator.pack locator).length = 20 := Struct.length_pack hlocatorFits
    rw [Ending.bytes, hzip] at hfile
    have hlocator := drop_of_drop hfile
    have hend := drop_of_drop hlocator
    rw [hfirst] at hlocator hend
    rw [hsecond] at hend
    obtain ⟨hfind, -⟩ := findEnd_eq h.fits h.signature h.noComment
      (hend.trans (List.append_nil _).symm)
    have hlastRead : zip64End.unpack (slice file (offset + size) 56) = last := by
      have hslice := slice_of_drop hfile
      rw [hfirst] at hslice
      rw [hslice, Struct.unpack_pack hlastFits]
    have hlocatorRead : zip64Locator.unpack (slice file (offset + size + 56) 20) = locator := by
      have hslice := slice_of_drop hlocator
      rw [hsecond] at hslice
      rw [hslice, Struct.unpack_pack hlocatorFits]
    have hmark : number (slice file (offset + size + 56) 4) = locatorSignature := by
      have hhead := head_values_unpack zip64Locator rfl file (offset + size + 56)
      rw [size_zip64Locator, hlocatorRead] at hhead
      exact (Option.some.inj hhead).symm.trans hsignature
    have hback : offset + size + 56 + 20 - 20 = offset + size + 56 := by omega
    rw [StoredZip.findDirectory, hfind, Option.map_some, hback, if_pos ⟨by omega, hmark⟩]
    simp only [hlocatorRead, hplace, hlastRead, hcount, hoffset]

end Ending

/-- An archive without a gap: tiled members, and an ending that says where they are. -/
structure Sound (ms : List Member) (e : Ending) : Prop where
  tiled : Tiled 0 ms
  nonempty : ms ≠ []
  ending : e.Sound ms.length (ms.flatMap Member.record).length (ms.flatMap Member.block).length
  plain : e.zip64 = none → number (slice (archive ms e)
    ((archive ms e).length - 42) 4) ≠ locatorSignature

namespace Sound

variable {e : Ending}

/-- Read from the front. -/
lemma stream_archive (h : Sound ms e) :
    streamFrom (archive ms e) 0 = some (ms.map Member.content) := by
  refine streamFrom_tiled h.tiled rfl ?_
  obtain ⟨m, rest, hms⟩ := List.exists_cons_of_ne_nil h.nonempty
  have hsound : ∃ offset, m.Sound offset := by
    have htiled := h.tiled
    rw [hms] at htiled
    cases htiled with
    | cons sound _ => exact ⟨_, sound⟩
  obtain ⟨offset, hsound⟩ := hsound
  have hdrop : (ms.flatMap Member.record ++ e.bytes).drop 0 =
      m.record ++ (rest.flatMap Member.record ++ e.bytes) := by
    rw [hms, List.flatMap_cons, List.append_assoc, List.drop_zero]
  have hfirst := head_values_unpack centralHeader rfl (ms.flatMap Member.record ++ e.bytes) 0
  rw [size_centralHeader, (hsound.recordAt hdrop).entry] at hfirst
  have hmark : number ((ms.flatMap Member.record ++ e.bytes).take 4) = centralSignature :=
    (Option.some.inj hfirst).symm.trans hsound.entrySignature
  rw [hmark]
  decide

/-- Read from the back. -/
lemma directory_archive (h : Sound ms e) :
    directoryMembers (archive ms e) = some (ms.map Member.content) := by
  have hrecords : (archive ms e).drop (ms.flatMap Member.block).length =
      ms.flatMap Member.record ++ e.bytes := List.drop_left
  have hending : (archive ms e).drop
      ((ms.flatMap Member.block).length + (ms.flatMap Member.record).length) = e.bytes :=
    drop_of_drop hrecords
  have hblocks : (archive ms e).drop 0 =
      ms.flatMap Member.block ++ (ms.flatMap Member.record ++ e.bytes) := rfl
  have hmembers := membersFrom_tiled h.tiled hblocks hrecords
  rw [directoryMembers, h.ending.findDirectory hending h.plain]
  exact hmembers

end Sound

end StoredZip
