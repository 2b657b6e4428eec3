import NexaPos.Core.Access
import NexaPos.Lib.StoredZip
import Mathlib.Data.List.Infix

/-!
# The raw structure of a package

`_validate_raw_zip` of the independent package verifier: the end records, the central directory
and the local headers of a package, read at their offsets.  A name is checked to be ASCII before
its portable key is taken; Unicode normalisation leaves such names alone, and case folding puts
them in lower case.
-/

namespace NexaPos.Backups

open ByteLayout StoredZip

/-- The `code` of an ordinary verification failure. -/
inductive VerificationCode
  | packageEvidenceRejected
  | packageIntegrityFailed
  | zipStructureInvalid
  | manifestInvalid
  | payloadInvalid
  deriving DecidableEq, Repr

/-- Continue only when the condition holds. -/
def failUnless (p : Prop) [Decidable p] (code : VerificationCode) : Except VerificationCode Unit :=
  if p then .ok () else .error code

@[simp] lemma failUnless_eq_ok {p : Prop} [Decidable p] {code : VerificationCode} {u : Unit} :
    failUnless p code = .ok u ↔ p := by
  unfold failUnless
  split <;> simp [*]

def maximumPackageBytes : ℕ := 10 * 1024 ^ 4

def maximumPackageEntries : ℕ := 200000

/-- `_MAXIMUM_MANIFEST_BYTES` of the verifier. -/
def maximumManifestBytes : ℕ := 64 * 1024 ^ 2

def zipVersion : ℕ := 45

/-- `(3 << 8) | 45`. -/
def zipUnixCreator : ℕ := 3 * 2 ^ 8 + zipVersion

/-- `(stat.S_IFREG | 0o600) << 16`. -/
def zipExternalAttributes : ℕ := 0o100600 * 2 ^ 16

/-- `zipfile.ZIP_STORED`. -/
def zipStored : ℕ := 0

def dosTime : ℕ := 0

/-- The first of January 1980. -/
def dosDate : ℕ := 33

/-- `_read_at`: so many bytes from an offset on, all of them. -/
def readAt (file : Bytes) (offset size : ℕ) : Except VerificationCode Bytes := do
  failUnless (size ≤ maximumManifestBytes) .zipStructureInvalid
  failUnless ((slice file offset size).length = size) .zipStructureInvalid
  return slice file offset size

/-! ## Names -/

/-- `raw.decode("ascii")`. -/
def decodeAscii (raw : Bytes) : Option String :=
  if raw.all (·.toNat < 128) then some (String.ofList (raw.map fun b => Char.ofNat b.toNat))
  else none

/-- `name.encode("ascii")`, of an ASCII name. -/
def encodeAscii (name : String) : Bytes := name.toList.map fun c => UInt8.ofNat c.toNat

/-- `_portable_path_key`, of an ASCII name. -/
def portablePathKey (name : String) : String := String.ofList (name.toList.map Char.toLower)

/-- What `_validated_entry_name` asks of a decoded name. -/
def EntryNameValid (name : String) : Prop :=
  name ≠ "" ∧ name.length ≤ 255 ∧ '\x00' ∉ name.toList ∧ '\\' ∉ name.toList ∧ ':' ∉ name.toList ∧
    name.toList.head? ≠ some '/' ∧ name.toList.getLast? ≠ some '/' ∧
    ¬ ['/', '/'] <:+: name.toList ∧
    (∀ segment ∈ name.toList.splitOn '/', segment ≠ [] ∧ segment ≠ ['.'] ∧ segment ≠ ['.', '.']) ∧
    name.toList.all (fun c => 0x20 ≤ c.toNat && c.toNat ≤ 0x7E) = true

instance decidableEntryNameValid (name : String) : Decidable (EntryNameValid name) :=
  inferInstanceAs (Decidable (_ ∧ _))

/-- `_validated_entry_name`. -/
def validatedEntryName (raw : Bytes) : Except VerificationCode String :=
  match decodeAscii raw with
  | none => .error .zipStructureInvalid
  | some name => if EntryNameValid name then .ok name else .error .zipStructureInvalid

/-! ## The central directory -/

/-- `_CentralEntry`. -/
structure CentralEntry where
  name : String
  crc32 : ℕ
  compressedSize : ℕ
  uncompressedSize : ℕ
  localOffset : ℕ
  centralExtra : Bytes
  dataStart : ℕ := 0
  dataEnd : ℕ := 0
  deriving DecidableEq, Repr

/-- `take_q` and `take_l`, of a marked field. -/
def takeField (marked : Prop) [Decidable marked] (value width : ℕ) (payload : Bytes) :
    Except VerificationCode (ℕ × Bytes) := do
  if marked then
    failUnless (width ≤ payload.length) .zipStructureInvalid
    return (number (payload.take width), payload.drop width)
  else return (value, payload)

/-- `_parse_zip64_central_extra`: the compressed size, the uncompressed size, the local offset
and the disk number. -/
def parseZip64CentralExtra (raw : Bytes) (compressedSize uncompressedSize localOffset
    diskNumber : ℕ) : Except VerificationCode (ℕ × ℕ × ℕ × ℕ) := do
  if ¬ (uncompressedSize = 0xFFFFFFFF ∨ compressedSize = 0xFFFFFFFF ∨
      localOffset = 0xFFFFFFFF ∨ diskNumber = 0xFFFF) then
    failUnless (raw = []) .zipStructureInvalid
    return (compressedSize, uncompressedSize, localOffset, diskNumber)
  else
    failUnless (4 ≤ raw.length) .zipStructureInvalid
    let payload := raw.drop 4
    failUnless (number (slice raw 0 2) = 1 ∧ number (slice raw 2 2) = payload.length)
      .zipStructureInvalid
    let (uncompressed, rest) ← takeField (uncompressedSize = 0xFFFFFFFF) uncompressedSize 8 payload
    let (compressed, rest) ← takeField (compressedSize = 0xFFFFFFFF) compressedSize 8 rest
    let (offset, rest) ← takeField (localOffset = 0xFFFFFFFF) localOffset 8 rest
    let (disk, rest) ← takeField (diskNumber = 0xFFFF) diskNumber 4 rest
    failUnless (rest = []) .zipStructureInvalid
    return (compressed, uncompressed, offset, disk)

/-- What is fixed in a central header. -/
def CentralHeaderFixed (h : CentralHeader) : Prop :=
  h.signature = centralSignature ∧ h.madeBy = zipUnixCreator ∧ h.extractVersion = zipVersion ∧
    h.flags = 0 ∧ h.compression = zipStored ∧ h.dosTime = dosTime ∧ h.dosDate = dosDate ∧
    (0 < h.nameSize ∧ h.nameSize ≤ 255) ∧ h.extraSize ≤ 64 ∧ h.commentSize = 0 ∧
    h.internalAttributes = 0 ∧ h.externalAttributes = zipExternalAttributes

instance decidableCentralHeaderFixed (h : CentralHeader) : Decidable (CentralHeaderFixed h) :=
  inferInstanceAs (Decidable (_ ∧ _))

/-- One turn of the central loop: the entry at a cursor, and the next cursor. -/
def centralEntry (file : Bytes) (centralOffset cursor : ℕ) (names : List String) :
    Except VerificationCode (CentralEntry × ℕ) := do
  let h := centralHeader.unpack (← readAt file cursor 46)
  failUnless (CentralHeaderFixed h) .zipStructureInvalid
  let variableSize := h.nameSize + h.extraSize
  let part ← readAt file (cursor + 46) variableSize
  let extra := part.drop h.nameSize
  let name ← validatedEntryName (part.take h.nameSize)
  failUnless (name ∉ names ∧ portablePathKey name ∉ names.map portablePathKey)
    .zipStructureInvalid
  let (compressed, uncompressed, offset, disk) ←
    parseZip64CentralExtra extra h.compressedSize h.uncompressedSize h.localOffset h.disk
  failUnless (disk = 0 ∧ compressed = uncompressed ∧ compressed ≤ maximumPackageBytes ∧
    offset < centralOffset) .zipStructureInvalid
  return ({ name, crc32 := h.crc32, compressedSize := compressed, uncompressedSize := uncompressed,
            localOffset := offset, centralExtra := extra },
    cursor + 46 + variableSize)

/-- The central loop: so many entries from a cursor on, and where the cursor ends. -/
def centralEntries (file : Bytes) (centralOffset : ℕ) :
    ℕ → ℕ → List String → Except VerificationCode (List CentralEntry × ℕ)
  | 0, cursor, _ => return ([], cursor)
  | n + 1, cursor, names => do
    let (entry, next) ← centralEntry file centralOffset cursor names
    let (entries, last) ← centralEntries file centralOffset n next (names ++ [entry.name])
    return (entry :: entries, last)

/-! ## The local headers -/

/-- What is fixed in the local header of an entry. -/
def LocalHeaderFixed (h : LocalHeader) (entry : CentralEntry) : Prop :=
  h.signature = localSignature ∧ h.extractVersion = zipVersion ∧ h.flags = 0 ∧
    h.compression = zipStored ∧ h.dosTime = dosTime ∧ h.dosDate = dosDate ∧
    h.crc32 = entry.crc32 ∧ h.compressedSize = 0xFFFFFFFF ∧ h.uncompressedSize = 0xFFFFFFFF ∧
    h.nameSize = (encodeAscii entry.name).length ∧ h.extraSize = 20

instance decidableLocalHeaderFixed (h : LocalHeader) (entry : CentralEntry) :
    Decidable (LocalHeaderFixed h entry) :=
  inferInstanceAs (Decidable (_ ∧ _))

/-- The ZIP64 extra field of a local header. -/
def localExtra (uncompressedSize compressedSize : ℕ) : Bytes :=
  bytes 2 1 ++ (bytes 2 16 ++ (bytes 8 uncompressedSize ++ bytes 8 compressedSize))

/-- One turn of the local loop: the entry with its data's place. -/
def localEntry (file : Bytes) (centralOffset cursor : ℕ) (entry : CentralEntry) :
    Except VerificationCode CentralEntry := do
  failUnless (entry.localOffset = cursor) .zipStructureInvalid
  let h := localHeader.unpack (← readAt file entry.localOffset 30)
  failUnless (LocalHeaderFixed h entry) .zipStructureInvalid
  let part ← readAt file (entry.localOffset + 30) (h.nameSize + h.extraSize)
  let name ← validatedEntryName (part.take h.nameSize)
  failUnless (name = entry.name ∧
    part.drop h.nameSize = localExtra entry.uncompressedSize entry.compressedSize)
    .zipStructureInvalid
  let dataStart := entry.localOffset + 30 + h.nameSize + h.extraSize
  let dataEnd := dataStart + entry.compressedSize
  failUnless (dataEnd ≤ centralOffset) .zipStructureInvalid
  return { entry with dataStart, dataEnd }

/-- The local loop, and where its cursor ends. -/
def localEntries (file : Bytes) (centralOffset : ℕ) :
    ℕ → List CentralEntry → Except VerificationCode (List CentralEntry × ℕ)
  | cursor, [] => return ([], cursor)
  | cursor, entry :: entries => do
    let validated ← localEntry file centralOffset cursor entry
    let (rest, last) ← localEntries file centralOffset validated.dataEnd entries
    return (validated :: rest, last)

/-! ## The end records -/

/-- Where the central directory is, as the end records say. -/
structure CentralDirectory where
  entryCount : ℕ
  centralSize : ℕ
  centralOffset : ℕ
  centralEnd : ℕ
  deriving DecidableEq, Repr

/-- `has_zip64_markers`. -/
def EndHeader.HasZip64Markers (e : EndHeader) : Prop :=
  e.entryCount = 0xFFFF ∨ e.centralSize = 0xFFFFFFFF ∨ e.centralOffset = 0xFFFFFFFF

instance decidableHasZip64Markers (e : EndHeader) : Decidable (EndHeader.HasZip64Markers e) :=
  inferInstanceAs (Decidable (_ ∨ _))

/-- What a ZIP64 end record must say beside the end header. -/
def Zip64EndFixed (z : Zip64End) (e : EndHeader) : Prop :=
  z.signature = zip64EndSignature ∧ z.recordSize = 44 ∧ z.madeBy = zipUnixCreator ∧
    z.extractVersion = zipVersion ∧ z.diskNumber = 0 ∧ z.centralDisk = 0 ∧
    z.entriesOnDisk = z.entryCount ∧ e.entryCount = min z.entryCount 0xFFFF ∧
    e.centralSize = min z.centralSize 0xFFFFFFFF ∧
    e.centralOffset = min z.centralOffset 0xFFFFFFFF

instance decidableZip64EndFixed (z : Zip64End) (e : EndHeader) : Decidable (Zip64EndFixed z e) :=
  inferInstanceAs (Decidable (_ ∧ _))

/-- The ZIP64 end records before an end header that has markers. -/
def zip64Directory (file : Bytes) (endOffset : ℕ) (e : EndHeader) :
    Except VerificationCode CentralDirectory := do
  let locatorOffset := endOffset - 20
  failUnless (56 ≤ locatorOffset) .zipStructureInvalid
  let locator := zip64Locator.unpack (← readAt file locatorOffset 20)
  failUnless (locator.signature = locatorSignature ∧ locator.diskNumber = 0 ∧
    locator.totalDisks = 1 ∧ locator.zip64EndOffset + 56 = locatorOffset) .zipStructureInvalid
  let z := zip64End.unpack (← readAt file locator.zip64EndOffset 56)
  failUnless (Zip64EndFixed z e) .zipStructureInvalid
  return ⟨z.entryCount, z.centralSize, z.centralOffset, locator.zip64EndOffset⟩

/-- An end header without markers: no locator may stand before it. -/
def plainDirectory (file : Bytes) (endOffset : ℕ) (e : EndHeader) :
    Except VerificationCode CentralDirectory := do
  if 20 ≤ endOffset then
    let mark ← readAt file (endOffset - 20) 4
    failUnless (number mark ≠ locatorSignature) .zipStructureInvalid
  return ⟨e.entryCount, e.centralSize, e.centralOffset, endOffset⟩

def readEndRecords (file : Bytes) (packageSize : ℕ) : Except VerificationCode CentralDirectory := do
  failUnless (22 ≤ packageSize) .zipStructureInvalid
  let endOffset := packageSize - 22
  let e := endHeader.unpack (← readAt file endOffset 22)
  failUnless (e.signature = endSignature ∧ e.diskNumber = 0 ∧ e.centralDisk = 0 ∧
    e.entriesOnDisk = e.entryCount ∧ e.commentSize = 0) .zipStructureInvalid
  if EndHeader.HasZip64Markers e then zip64Directory file endOffset e
  else plainDirectory file endOffset e

/-- `_validate_raw_zip`. -/
def validateRawZip (file : Bytes) (packageSize expectedEntryCount : ℕ) :
    Except VerificationCode (List CentralEntry) := do
  let d ← readEndRecords file packageSize
  failUnless (d.entryCount = expectedEntryCount ∧
    (0 < d.entryCount ∧ d.entryCount ≤ maximumPackageEntries) ∧
    d.centralOffset + d.centralSize = d.centralEnd ∧ 30 ≤ d.centralOffset) .zipStructureInvalid
  let (entries, cursor) ← centralEntries file d.centralOffset d.entryCount d.centralOffset []
  failUnless (cursor = d.centralEnd) .zipStructureInvalid
  let (validated, localCursor) ← localEntries file d.centralOffset 0 entries
  failUnless (localCursor = d.centralOffset) .zipStructureInvalid
  return validated

end NexaPos.Backups
