import NexaPos.Backups.RawZip

/-!
# The package writer

The entries of a package in the order of its manifest (`_manifest_entries`), the archive that
`_write_package` makes of them, and what the two readers ask of a package before they turn to its
manifest document.

The archive is written by the standard `zipfile` module, with its own thresholds: an extra field
in the central directory for sizes and offsets beyond `ZIP64_LIMIT`, ZIP64 end records for more
than `ZIP_FILECOUNT_LIMIT` entries or a directory beyond `ZIP64_LIMIT`, whose creator field is
the version alone.  The sources of a package deliver the bytes and hashes that the manifest
declares, or the writer stops; a declared file is taken with its bytes.
-/

namespace NexaPos.Backups

open ByteLayout StoredZip

/-! ## Paths -/

/-- `pattern.fullmatch(value)` for a literal, so many digits and a literal: the number that the
digits write. -/
def fullmatchOrdinal (before : String) (width : ℕ) (after value : String) : Option ℕ :=
  let digits := (value.toList.drop before.length).take width
  if value.toList = before.toList ++ (digits ++ after.toList) ∧ digits.length = width ∧
      digits.all Char.isDigit then
    some (digits.foldl (fun n c => 10 * n + (c.toNat - '0'.toNat)) 0)
  else none

/-- `_COMPONENT_RECORDS_PATTERN`. -/
def componentRecordsPattern : String → Option ℕ :=
  fullmatchOrdinal "components/" 4 "/records.ndjson"

/-- `_COMPONENT_MEDIA_PATTERN`. -/
def componentMediaPattern : String → Option ℕ :=
  fullmatchOrdinal "components/" 4 "/media-index.ndjson"

/-- `_MEDIA_PATTERN`. -/
def mediaPattern : String → Option ℕ := fullmatchOrdinal "media/" 8 ".bin"

def manifestFileName : String := "manifest.json"

/-- `_validated_package_path`. -/
def PackagePathValid (pattern : String → Option ℕ) (ordinal : ℕ) (value : String) : Prop :=
  value ≠ "" ∧ value.length ≤ 255 ∧ value.toList.all (fun c => c.toNat < 128) = true ∧
    value.toList.head? ≠ some '/' ∧ value.toList.getLast? ≠ some '/' ∧ '\\' ∉ value.toList ∧
    ¬ ['/', '/'] <:+: value.toList ∧
    (∀ segment ∈ value.toList.splitOn '/',
      segment ≠ [] ∧ segment ≠ ['.'] ∧ segment ≠ ['.', '.']) ∧
    pattern value = some ordinal

instance decidablePackagePathValid (pattern : String → Option ℕ) (ordinal : ℕ) (value : String) :
    Decidable (PackagePathValid pattern ordinal value) := inferInstanceAs (Decidable (_ ∧ _))

/-! ## The entries of a package -/

/-- `_PackageEntry`, with the bytes of its source. -/
structure PackageEntry where
  path : String
  data : Bytes
  deriving DecidableEq, Repr

/-- The files that a manifest declares, with the manifest itself. -/
structure PackagePlan where
  manifest : Bytes
  /-- The records and the media index of each component. -/
  components : List (PackageEntry × PackageEntry)
  media : List PackageEntry
  deriving DecidableEq, Repr

/-- `_MAXIMUM_MANIFEST_BYTES` of the builder. -/
def builderManifestBytes : ℕ := 1024 ^ 3

/-- The entries of the components, whose ordinals go up from the given one. -/
def componentEntries : ℕ → List (PackageEntry × PackageEntry) → Option (List PackageEntry)
  | _, [] => some []
  | ordinal, (records, mediaIndex) :: rest => do
    guard (PackagePathValid componentRecordsPattern ordinal records.path)
    guard (PackagePathValid componentMediaPattern ordinal mediaIndex.path)
    let entries ← componentEntries (ordinal + 1) rest
    return records :: mediaIndex :: entries

/-- The entries of the media objects. -/
def mediaEntries : ℕ → List PackageEntry → Option (List PackageEntry)
  | _, [] => some []
  | ordinal, media :: rest => do
    guard (PackagePathValid mediaPattern ordinal media.path)
    let entries ← mediaEntries (ordinal + 1) rest
    return media :: entries

/-- `_manifest_entries`. -/
def manifestEntries (plan : PackagePlan) : Option (List PackageEntry) := do
  guard (plan.components ≠ [])
  guard (0 < plan.manifest.length ∧ plan.manifest.length ≤ builderManifestBytes)
  let components ← componentEntries 1 plan.components
  let media ← mediaEntries 1 plan.media
  let entries := ⟨manifestFileName, plan.manifest⟩ :: (components ++ media)
  guard (entries.length ≤ maximumPackageEntries)
  guard (entries.map (·.path)).Nodup
  guard (entries.map fun e => portablePathKey e.path).Nodup
  return entries

/-- `_capacity_check`, on a disk with room. -/
def CapacityChecked (entries : List PackageEntry) : Prop :=
  (entries.map (·.data.length)).sum + (1024 ^ 2 + entries.length * 2048) ≤ maximumPackageBytes

instance decidableCapacityChecked (entries : List PackageEntry) :
    Decidable (CapacityChecked entries) := inferInstanceAs (Decidable (_ ≤ _))

/-! ## The archive -/

/-- One bit of `zlib.crc32`. -/
def crc32Bit (crc : UInt32) : UInt32 :=
  if crc &&& 1 = 1 then (crc >>> 1) ^^^ 0xEDB88320 else crc >>> 1

/-- `zlib.crc32`. -/
def crc32 (data : Bytes) : UInt32 :=
  data.foldl (fun crc b => Nat.iterate crc32Bit 8 (crc ^^^ b.toUInt32)) 0xFFFFFFFF ^^^ 0xFFFFFFFF

/-- `zipfile.ZIP64_LIMIT`. -/
def zip64Limit : ℕ := 2 ^ 31 - 1

/-- `zipfile.ZIP_FILECOUNT_LIMIT`. -/
def zipFilecountLimit : ℕ := 2 ^ 16 - 1

/-- `ZipInfo.FileHeader(zip64=True)`, its name and extra field left aside. -/
def fileHeader (entry : PackageEntry) : LocalHeader :=
  { signature := localSignature, extractVersion := 45, flags := 0, compression := 0, dosTime := 0,
    dosDate := 33, crc32 := (crc32 entry.data).toNat, compressedSize := 0xFFFFFFFF,
    uncompressedSize := 0xFFFFFFFF, nameSize := (encodeAscii entry.path).length, extraSize := 20 }

/-- The values of the extra field that `_write_end_record` writes for an entry. -/
def centralExtraValues (entry : PackageEntry) (headerOffset : ℕ) : List ℕ :=
  (if zip64Limit < entry.data.length then [entry.data.length, entry.data.length] else []) ++
    if zip64Limit < headerOffset then [headerOffset] else []

/-- `struct.pack('<HH' + 'Q' * len(extra), 1, 8 * len(extra), *extra)`, when there is one. -/
def centralExtra (values : List ℕ) : Bytes :=
  if values = [] then [] else bytes 2 1 ++ bytes 2 (8 * values.length) ++ values.flatMap (bytes 8)

/-- The central header that `_write_end_record` writes. -/
def centralDirectoryHeader (entry : PackageEntry) (headerOffset : ℕ) : CentralHeader :=
  let size := if zip64Limit < entry.data.length then 0xFFFFFFFF else entry.data.length
  { signature := centralSignature, madeBy := 3 * 2 ^ 8 + 45, extractVersion := 45, flags := 0,
    compression := 0, dosTime := 0, dosDate := 33, crc32 := (crc32 entry.data).toNat,
    compressedSize := size, uncompressedSize := size,
    nameSize := (encodeAscii entry.path).length,
    extraSize := (centralExtra (centralExtraValues entry headerOffset)).length, commentSize := 0,
    disk := 0, internalAttributes := 0, externalAttributes := 0o100600 * 2 ^ 16,
    localOffset := if zip64Limit < headerOffset then 0xFFFFFFFF else headerOffset }

/-- An entry as it is written: `archive.open(info, mode="w", force_zip64=True)`. -/
def writtenMember (entry : PackageEntry) (headerOffset : ℕ) : Member :=
  { name := encodeAscii entry.path, data := entry.data, header := fileHeader entry,
    headerExtra := localExtra entry.data.length entry.data.length,
    entry := centralDirectoryHeader entry headerOffset,
    entryExtra := centralExtra (centralExtraValues entry headerOffset) }

/-- The entries one after the other. -/
def writtenMembers : ℕ → List PackageEntry → List Member
  | _, [] => []
  | offset, entry :: entries =>
    writtenMember entry offset ::
      writtenMembers (offset + (writtenMember entry offset).block.length) entries

/-- `requires_zip64`. -/
def RequiresZip64 (count size offset : ℕ) : Prop :=
  zipFilecountLimit < count ∨ zip64Limit < offset ∨ zip64Limit < size

instance decidableRequiresZip64 (count size offset : ℕ) :
    Decidable (RequiresZip64 count size offset) := inferInstanceAs (Decidable (_ ∨ _))

/-- The end records of `_write_end_record`. -/
def writtenEnding (count size offset : ℕ) : Ending :=
  if RequiresZip64 count size offset then
    { zip64 := some
        (⟨zip64EndSignature, 44, 45, 45, 0, 0, count, count, size, offset⟩,
          ⟨locatorSignature, 0, offset + size, 1⟩)
      last := ⟨endSignature, 0, 0, min count 0xFFFF, min count 0xFFFF, min size 0xFFFFFFFF,
        min offset 0xFFFFFFFF, 0⟩ }
  else { zip64 := none, last := ⟨endSignature, 0, 0, count, count, size, offset, 0⟩ }

/-- `_write_package`. -/
def writePackage (entries : List PackageEntry) : Bytes :=
  let members := writtenMembers 0 entries
  archive members (writtenEnding members.length (members.flatMap Member.record).length
    (members.flatMap Member.block).length)

/-- `_verify_archive`: the builder reads its own archive back. -/
def verifyArchive (file : Bytes) (entries : List PackageEntry) : Prop :=
  directoryMembers file = some (entries.map fun e => (encodeAscii e.path, e.data))

instance decidableVerifyArchive (file : Bytes) (entries : List PackageEntry) :
    Decidable (verifyArchive file entries) := inferInstanceAs (Decidable (_ = _))

/-- `build_package`: the entries and the archive. -/
def buildPackage (plan : PackagePlan) : Option (List PackageEntry × Bytes) := do
  let entries ← manifestEntries plan
  guard (CapacityChecked entries)
  let file := writePackage entries
  guard (verifyArchive file entries)
  guard (0 < file.length ∧ file.length ≤ maximumPackageBytes)
  return (entries, file)

/-! ## What the readers ask of a package -/

/-- `_read_entry_bytes`. -/
def readEntryBytes (file : Bytes) (entry : CentralEntry) (maximum : ℕ) (code : VerificationCode) :
    Except VerificationCode Bytes := do
  let raw := slice file entry.dataStart entry.uncompressedSize
  failUnless (raw.length ≤ maximum) code
  failUnless (raw.length = entry.uncompressedSize) code
  return raw

/-- `verify`, up to the bytes of the manifest. -/
def openVerified (file : Bytes) (entryCount : ℕ) : Except VerificationCode Bytes := do
  failUnless (0 < file.length ∧ file.length ≤ maximumPackageBytes) .packageEvidenceRejected
  failUnless (0 < entryCount ∧ entryCount ≤ maximumPackageEntries) .packageEvidenceRejected
  match ← validateRawZip file file.length entryCount with
  | [] => .error .zipStructureInvalid
  | manifest :: _ => do
    failUnless (manifest.name = manifestFileName) .manifestInvalid
    readEntryBytes file manifest maximumManifestBytes .manifestInvalid

/-- `_MAXIMUM_MANIFEST_BYTES` of the restore workspace. -/
def restoreManifestBytes : ℕ := 64 * 1024 ^ 2

/-- `_safe_archive_name`. -/
def SafeArchiveName (name : String) : Prop :=
  name ≠ "" ∧ name.toList.head? ≠ some '/' ∧ '\\' ∉ name.toList ∧ '\x00' ∉ name.toList ∧
    (∀ segment ∈ name.toList.splitOn '/', segment ≠ [] ∧ segment ≠ ['.'] ∧ segment ≠ ['.', '.']) ∧
    (name = manifestFileName ∨ (componentRecordsPattern name).isSome ∨
      (componentMediaPattern name).isSome ∨ (mediaPattern name).isSome)

instance decidableSafeArchiveName (name : String) : Decidable (SafeArchiveName name) :=
  inferInstanceAs (Decidable (_ ∧ _))

/-- `_inspect_package` of `RestoredPackageProvider`, up to the bytes of the manifest; the member
names of a package without the UTF-8 flag are read as single bytes. -/
def openRestored (file : Bytes) : Option Bytes := do
  guard (0 < file.length ∧ file.length ≤ maximumPackageBytes)
  let members ← directoryMembers file
  guard (1 ≤ members.length ∧ members.length ≤ maximumPackageEntries)
  let names ← members.mapM fun m => decodeAscii m.1
  guard (∀ name ∈ names, SafeArchiveName name)
  guard (names.Nodup ∧ names.head? = some manifestFileName)
  let (_, manifest) ← members.head?
  guard (1 ≤ manifest.length ∧ manifest.length ≤ restoreManifestBytes)
  return manifest

end NexaPos.Backups
