import NexaPos.Backups.PackageWriter

/-!
# What the verifier accepts is tiled

Every byte string that `_validate_raw_zip` accepts is the blocks of its members, their central
records and the end records, one after the other: no byte stands between or after them.  A
reader from the front and a reader from the back find the same members in it.
-/

namespace NexaPos.Backups

open ByteLayout StoredZip

/-! ## One read -/

lemma readAt_eq_ok {file raw : Bytes} {offset size : ℕ} :
    readAt file offset size = .ok raw ↔
      size ≤ maximumManifestBytes ∧ raw = slice file offset size ∧ raw.length = size := by
  unfold readAt
  simp only [except_bind_eq_ok, failUnless_eq_ok, pure, Except.pure, Except.ok.injEq]
  constructor
  · rintro ⟨-, hsize, -, hlength, rfl⟩
    exact ⟨hsize, rfl, hlength⟩
  · rintro ⟨hsize, rfl, hlength⟩
    exact ⟨(), hsize, (), hlength, rfl⟩

/-- A header that was read stands in the file. -/
lemma drop_of_readAt {α : Type} {s : Struct α} {file raw : Bytes} {offset : ℕ}
    (h : readAt file offset s.size = .ok raw) :
    file.drop offset = s.pack (s.unpack raw) ++ file.drop (offset + s.size) ∧
      s.Fits (s.unpack raw) := by
  obtain ⟨-, hslice, hlength⟩ := readAt_eq_ok.mp h
  rw [Struct.pack_unpack hlength]
  constructor
  · rw [hslice]
    exact drop_eq_slice_append file offset s.size
  · exact Struct.fits_unpack hlength

/-! ## Names -/

lemma encodeAscii_decodeAscii {raw : Bytes} {name : String} (h : decodeAscii raw = some name) :
    encodeAscii name = raw := by
  unfold decodeAscii at h
  split at h
  case isFalse => exact nomatch h
  case isTrue hascii =>
    obtain rfl := Option.some.inj h
    rw [encodeAscii, String.toList_ofList, List.map_map]
    refine (List.map_congr_left fun b hb => ?_).trans (List.map_id raw)
    have hb : b.toNat < 128 := by simpa using List.all_eq_true.mp hascii b hb
    have hchar : b.toNat.isValidChar := .inl (by omega)
    have hvalid : (Char.ofNat b.toNat).toNat = b.toNat := by
      rw [Char.ofNat, dif_pos hchar]
      rfl
    show UInt8.ofNat (Char.ofNat b.toNat).toNat = b
    rw [hvalid, UInt8.ofNat_toNat]

lemma validatedEntryName_ok {raw : Bytes} {name : String}
    (h : validatedEntryName raw = .ok name) : encodeAscii name = raw ∧ EntryNameValid name := by
  unfold validatedEntryName at h
  split at h
  · exact nomatch h
  · next decoded hdecoded =>
    split at h
    · obtain rfl := Except.ok.inj h
      exact ⟨encodeAscii_decodeAscii hdecoded, ‹_›⟩
    · exact nomatch h

/-! ## The central directory -/

lemma takeField_ok {p : Prop} [Decidable p] {value marker width : ℕ} {payload : Bytes}
    {result : ℕ × Bytes} (hp : p ↔ value = marker)
    (h : takeField p value width payload = .ok result) :
    takeMarked value marker width payload = some result := by
  unfold takeField at h
  unfold takeMarked
  split at h
  case isTrue hmarked =>
    simp only [except_bind_eq_ok, failUnless_eq_ok, pure, Except.pure, Except.ok.injEq] at h
    obtain ⟨-, hwidth, rfl⟩ := h
    rw [if_pos (hp.mp hmarked), if_neg (Nat.not_lt.mpr hwidth)]
  case isFalse hmarked =>
    rw [if_neg (hmarked ∘ hp.mpr)]
    exact congrArg some (Except.ok.inj h)

/-- The verifier reads a ZIP64 field as the format says. -/
lemma place_of_parse {raw : Bytes} {h : CentralHeader} {c u o d : ℕ}
    (hparse : parseZip64CentralExtra raw h.compressedSize h.uncompressedSize h.localOffset h.disk =
      .ok (c, u, o, d)) : h.place raw = some (u, c, o, d) := by
  unfold parseZip64CentralExtra at hparse
  split at hparse
  case isTrue hplain =>
    simp only [except_bind_eq_ok, failUnless_eq_ok, pure, Except.pure, Except.ok.injEq,
      Prod.mk.injEq] at hparse
    obtain ⟨-, rfl, rfl, rfl, rfl, rfl⟩ := hparse
    obtain ⟨hu, hc, ho, hd⟩ : h.uncompressedSize ≠ 0xFFFFFFFF ∧ h.compressedSize ≠ 0xFFFFFFFF ∧
        h.localOffset ≠ 0xFFFFFFFF ∧ h.disk ≠ 0xFFFF := by
      simpa only [not_or] using hplain
    simp [CentralHeader.place, takeMarked, hu, hc, ho, hd]
  case isFalse _ =>
    simp only [except_bind_eq_ok, failUnless_eq_ok, pure, Except.pure, Except.ok.injEq,
      Prod.mk.injEq, Prod.exists] at hparse
    obtain ⟨-, hlength, -, ⟨hid, hsize⟩, u', r₁, hu, c', r₂, hc, o', r₃, ho, d', r₄, hd, -, -,
      rfl, rfl, rfl, rfl⟩ := hparse
    have hpayload : zip64Payload raw = raw.drop 4 := by
      rw [zip64Payload, if_pos hlength, if_pos hid, hsize, slice, List.take_length]
    rw [CentralHeader.place, hpayload, takeField_ok Iff.rfl hu]
    simp only [bind, Option.bind, takeField_ok Iff.rfl hc, takeField_ok Iff.rfl ho,
      takeField_ok Iff.rfl hd, pure]

/-- A central record stands at a cursor, and the entry says what it says. -/
structure Recorded (file : Bytes) (cursor next : ℕ) (h : CentralHeader) (entry : CentralEntry) :
    Prop where
  fixed : CentralHeaderFixed h
  fits : centralHeader.Fits h
  stands : file.drop cursor =
    centralHeader.pack h ++ (encodeAscii entry.name ++ (entry.centralExtra ++ file.drop next))
  nameSize : (encodeAscii entry.name).length = h.nameSize
  extraSize : entry.centralExtra.length = h.extraSize
  place : h.place entry.centralExtra =
    some (entry.uncompressedSize, entry.compressedSize, entry.localOffset, 0)
  sizes : entry.compressedSize = entry.uncompressedSize
  bounded : entry.compressedSize ≤ maximumPackageBytes
  crc32 : entry.crc32 = h.crc32

lemma centralEntry_ok {file : Bytes} {centralOffset cursor next : ℕ} {names : List String}
    {entry : CentralEntry} (h : centralEntry file centralOffset cursor names = .ok (entry, next)) :
    (∃ head, Recorded file cursor next head entry) ∧
      portablePathKey entry.name ∉ names.map portablePathKey := by
  unfold centralEntry at h
  simp only [except_bind_eq_ok, failUnless_eq_ok, pure, Except.pure, Except.ok.injEq,
    Prod.mk.injEq, Prod.exists] at h
  obtain ⟨raw, hraw, -, hfixed, part, hpart, name, hname, -, ⟨-, hfresh⟩, c, u, o, d, hparse, -,
    ⟨rfl, rfl, hbounded, -⟩, rfl, rfl⟩ := h
  obtain ⟨hhead, hfits⟩ := drop_of_readAt (s := centralHeader) hraw
  obtain ⟨-, hslice, hlength⟩ := readAt_eq_ok.mp hpart
  obtain ⟨hencode, -⟩ := validatedEntryName_ok hname
  have hsplit : encodeAscii name ++ part.drop (centralHeader.unpack raw).nameSize = part := by
    rw [hencode, List.take_append_drop]
  refine ⟨⟨centralHeader.unpack raw, hfixed, hfits, ?_, ?_, ?_, place_of_parse hparse, rfl,
    hbounded, rfl⟩, hfresh⟩
  · rw [hhead, ← List.append_assoc (encodeAscii name), hsplit, hslice, size_centralHeader]
    exact congrArg _ (drop_eq_slice_append _ _ _)
  · rw [hencode, List.length_take, hlength]
    omega
  · rw [List.length_drop, hlength]
    omega

/-- The central records from a cursor on. -/
inductive RecordedRun (file : Bytes) : ℕ → List (CentralHeader × CentralEntry) → ℕ → Prop
  | nil {cursor : ℕ} : RecordedRun file cursor [] cursor
  | cons {cursor next last : ℕ} {h : CentralHeader} {entry : CentralEntry}
    {rest : List (CentralHeader × CentralEntry)} (head : Recorded file cursor next h entry)
    (tail : RecordedRun file next rest last) : RecordedRun file cursor ((h, entry) :: rest) last

lemma centralEntries_ok {file : Bytes} {centralOffset n cursor last : ℕ} {names : List String}
    {entries : List CentralEntry}
    (h : centralEntries file centralOffset n cursor names = .ok (entries, last)) :
    (∃ pairs, RecordedRun file cursor pairs last ∧ pairs.map Prod.snd = entries) ∧
      entries.length = n ∧ (entries.map fun e => portablePathKey e.name).Nodup ∧
      ∀ entry ∈ entries, portablePathKey entry.name ∉ names.map portablePathKey := by
  induction n generalizing cursor names entries with
  | zero =>
    simp only [centralEntries, pure, Except.pure, Except.ok.injEq, Prod.mk.injEq] at h
    obtain ⟨rfl, rfl⟩ := h
    exact ⟨⟨[], .nil, rfl⟩, rfl, List.nodup_nil, by simp⟩
  | succ n ih =>
    simp only [centralEntries, except_bind_eq_ok, pure, Except.pure, Except.ok.injEq,
      Prod.mk.injEq, Prod.exists] at h
    obtain ⟨entry, next, hentry, rest, last', hrest, rfl, rfl⟩ := h
    obtain ⟨⟨head, hhead⟩, hfresh⟩ := centralEntry_ok hentry
    obtain ⟨⟨pairs, hpairs, hmap⟩, hlength, hnodup, hapart⟩ := ih hrest
    refine ⟨⟨(head, entry) :: pairs, .cons hhead hpairs, by rw [List.map_cons, hmap]⟩,
      by rw [List.length_cons, hlength], ?_, ?_⟩
    · rw [List.map_cons, List.nodup_cons]
      refine ⟨fun hmem => ?_, hnodup⟩
      obtain ⟨other, hother, hkey⟩ := List.mem_map.mp hmem
      apply hapart other hother
      rw [List.map_append, hkey]
      exact List.mem_append_right _ List.mem_cons_self
    · intro other hother hmem
      rcases List.mem_cons.mp hother with rfl | hother
      · exact hfresh hmem
      · apply hapart other hother
        rw [List.map_append]
        exact List.mem_append_left _ hmem

/-! ## The local headers -/

/-- The ZIP64 field of a local header carries both sizes. -/
lemma sizes_localExtra {h : LocalHeader} {size : ℕ} (hsize : size ≤ maximumPackageBytes)
    (hc : h.compressedSize = 0xFFFFFFFF) (hu : h.uncompressedSize = 0xFFFFFFFF) :
    h.sizes (localExtra size size) = some (size, size) := by
  have hfits : size < 256 ^ 8 := Nat.lt_of_le_of_lt hsize (by decide)
  have hlength : (bytes 8 size ++ bytes 8 size).length = 16 := by simp
  have hpayload : zip64Payload (localExtra size size) = bytes 8 size ++ bytes 8 size := by
    have hfield : zip64Payload (bytes 2 1 ++ bytes 2 (bytes 8 size ++ bytes 8 size).length ++
        (bytes 8 size ++ bytes 8 size)) = bytes 8 size ++ bytes 8 size :=
      zip64Payload_field (by simp)
    rw [hlength, List.append_assoc] at hfield
    exact hfield
  have htake : (bytes 8 size ++ bytes 8 size).take 8 = bytes 8 size :=
    List.take_left' (length_bytes 8 size)
  have hdrop : (bytes 8 size ++ bytes 8 size).drop 8 = bytes 8 size :=
    List.drop_left' (length_bytes 8 size)
  have htake' : (bytes 8 size).take 8 = bytes 8 size :=
    List.take_of_length_le (Nat.le_of_eq (length_bytes 8 size))
  simp [LocalHeader.sizes, takeMarked, hc, hu, hpayload, htake, hdrop, htake',
    number_bytes hfits]

/-- An accepted entry is this member, whose block begins at an offset. -/
structure Describes (file : Bytes) (offset : ℕ) (entry : CentralEntry) (m : Member) : Prop where
  name : encodeAscii entry.name = m.name
  crc32 : entry.crc32 = m.header.crc32
  compressedSize : entry.compressedSize = m.data.length
  uncompressedSize : entry.uncompressedSize = m.data.length
  localOffset : entry.localOffset = offset
  centralExtra : entry.centralExtra = m.entryExtra
  dataEnd : entry.dataEnd = entry.dataStart + m.data.length
  data : slice file entry.dataStart m.data.length = m.data

lemma localEntry_ok {file : Bytes} {centralOffset cursor c next : ℕ} {h : CentralHeader}
    {entry validated : CentralEntry} (hrecorded : Recorded file c next h entry)
    (hoffset : centralOffset ≤ file.length)
    (hok : localEntry file centralOffset cursor entry = .ok validated) :
    ∃ m : Member, m.Sound cursor ∧ file.drop cursor = m.block ++ file.drop validated.dataEnd ∧
      validated.dataEnd = cursor + m.block.length ∧
      m.record = centralHeader.pack h ++ (encodeAscii entry.name ++ entry.centralExtra) ∧
      Describes file cursor validated m ∧ validated.name = entry.name := by
  unfold localEntry at hok
  simp only [except_bind_eq_ok, failUnless_eq_ok, pure, Except.pure, Except.ok.injEq] at hok
  obtain ⟨-, rfl, raw, hraw, -, hfixed, part, hpart, name, hname, -, ⟨rfl, hextra⟩, -, hend,
    rfl⟩ := hok
  obtain ⟨hhead, hfits⟩ := drop_of_readAt (s := localHeader) hraw
  obtain ⟨-, hslice, -⟩ := readAt_eq_ok.mp hpart
  obtain ⟨hencode, -⟩ := validatedEntryName_ok hname
  obtain ⟨hsignature, hversion, hflags, hstored, htime, hdate, hcrc, hc, hu, hnameSize,
    hextraSize⟩ := hfixed
  obtain ⟨hcsignature, -, hcversion, hcflags, hcstored, hctime, hcdate, -, -, hcomment, -, -⟩ :=
    hrecorded.fixed
  generalize hfirst : localHeader.unpack raw = first at *
  let start := entry.localOffset + 30 + first.nameSize + first.extraSize
  let data := slice file start entry.compressedSize
  have hdata : data.length = entry.compressedSize := by
    rw [length_slice]
    omega
  let m : Member := { name := encodeAscii entry.name, data := data, header := first,
                      headerExtra := part.drop first.nameSize, entry := h,
                      entryExtra := entry.centralExtra }
  have hm : m.Sound entry.localOffset := by
    refine ⟨hfits, hsignature, hnameSize, ?_, ?_, hflags, hstored, hrecorded.fits, hcsignature,
      hrecorded.nameSize.symm, hrecorded.extraSize.symm, hcomment, ?_, ?_, ?_, ?_, ?_, ?_, ?_⟩
    · show first.extraSize = (part.drop first.nameSize).length
      rw [hextraSize, hextra]
      simp [localExtra]
    · show first.sizes (part.drop first.nameSize) = some (data.length, data.length)
      rw [hextra, ← hrecorded.sizes, hdata]
      exact sizes_localExtra hrecorded.bounded hc hu
    · show h.place entry.centralExtra = some (data.length, data.length, entry.localOffset, 0)
      rw [hrecorded.place, ← hrecorded.sizes, hdata]
    · exact hcversion.trans hversion.symm
    · exact hcflags.trans hflags.symm
    · exact hcstored.trans hstored.symm
    · exact hctime.trans htime.symm
    · exact hcdate.trans hdate.symm
    · exact hrecorded.crc32.symm.trans hcrc.symm
  have hpartEq : encodeAscii entry.name ++ part.drop first.nameSize = part := by
    rw [hencode, List.take_append_drop]
  refine ⟨m, hm, ?_, ?_, rfl, ⟨rfl, hcrc.symm, hdata.symm, ?_, rfl, rfl, ?_, ?_⟩, rfl⟩
  · have hrest := drop_eq_slice_append file (entry.localOffset + 30)
      (first.nameSize + first.extraSize)
    rw [← hslice, ← Nat.add_assoc] at hrest
    calc file.drop entry.localOffset
        = localHeader.pack first ++
            (part ++ (data ++ file.drop (start + entry.compressedSize))) := by
          rw [hhead, size_localHeader, hrest, ← drop_eq_slice_append]
      _ = m.block ++ file.drop (start + entry.compressedSize) := by
          rw [← congrArg (· ++ (data ++ file.drop (start + entry.compressedSize))) hpartEq]
          simp only [Member.block, m, List.append_assoc]
  · rw [hm.length_block]
    show start + entry.compressedSize = entry.localOffset +
      (30 + (encodeAscii entry.name).length + (part.drop first.nameSize).length + data.length)
    rw [hdata, ← hnameSize, hextra]
    simp only [localExtra, List.length_append, length_bytes, start, hextraSize]
    omega
  · show entry.uncompressedSize = data.length
    rw [hdata, hrecorded.sizes]
  · show start + entry.compressedSize = start + data.length
    rw [hdata]
  · show slice file start data.length = data
    rw [hdata]

/-- Entries and their members, whose blocks follow each other from an offset on. -/
inductive DescribesAll (file : Bytes) : ℕ → List CentralEntry → List Member → Prop
  | nil {offset : ℕ} : DescribesAll file offset [] []
  | cons {offset : ℕ} {entry : CentralEntry} {m : Member} {entries : List CentralEntry}
    {ms : List Member} (head : Describes file offset entry m)
    (tail : DescribesAll file (offset + m.block.length) entries ms) :
    DescribesAll file offset (entry :: entries) (m :: ms)

lemma DescribesAll.length_eq {file : Bytes} {offset : ℕ} {entries : List CentralEntry}
    {ms : List Member} (h : DescribesAll file offset entries ms) : entries.length = ms.length := by
  induction h with
  | nil => rfl
  | cons _ _ ih => rw [List.length_cons, List.length_cons, ih]

/-- The members that the local loop finds for recorded entries. -/
lemma localEntries_ok {file : Bytes} {centralOffset cursor c last last' : ℕ}
    {pairs : List (CentralHeader × CentralEntry)} {validated : List CentralEntry}
    (hrun : RecordedRun file c pairs last) (hoffset : centralOffset ≤ file.length)
    (hok : localEntries file centralOffset cursor (pairs.map Prod.snd) = .ok (validated, last')) :
    ∃ ms : List Member, Tiled cursor ms ∧
      file.drop cursor = ms.flatMap Member.block ++ file.drop last' ∧
      last' = cursor + (ms.flatMap Member.block).length ∧
      file.drop c = ms.flatMap Member.record ++ file.drop last ∧
      DescribesAll file cursor validated ms ∧
      validated.map (·.name) = pairs.map (·.2.name) := by
  induction hrun generalizing cursor validated with
  | nil =>
    simp only [List.map_nil, localEntries, pure, Except.pure, Except.ok.injEq,
      Prod.mk.injEq] at hok
    obtain ⟨rfl, rfl⟩ := hok
    exact ⟨[], .nil, rfl, rfl, rfl, .nil, rfl⟩
  | @cons c next last h entry rest hhead _ ih =>
    simp only [List.map_cons, localEntries, except_bind_eq_ok, pure, Except.pure, Except.ok.injEq,
      Prod.mk.injEq, Prod.exists] at hok
    obtain ⟨first, hfirst, others, _, hothers, rfl, rfl⟩ := hok
    obtain ⟨m, hm, hblock, hend, hrecord, hdescribes, hname⟩ := localEntry_ok hhead hoffset hfirst
    obtain ⟨ms, htiled, hblocks, hlast, hrecords, hall, hnames⟩ := ih hothers
    rw [hend] at htiled hall
    refine ⟨m :: ms, .cons hm htiled, ?_, ?_, ?_, .cons hdescribes hall, ?_⟩
    · rw [hblock, hblocks, List.flatMap_cons, List.append_assoc]
    · rw [hlast, hend, List.flatMap_cons, List.length_append, Nat.add_assoc]
    · rw [hhead.stands, hrecords, List.flatMap_cons, hrecord]
      simp only [List.append_assoc]
    · rw [List.map_cons, List.map_cons, hname, hnames]

/-! ## The end records -/

/-- What the end records of a file say, which begin where the directory ends. -/
structure Ended (file : Bytes) (d : CentralDirectory) (ending : Ending) : Prop where
  stands : file.drop d.centralEnd = ending.bytes
  within : d.centralEnd + 22 ≤ file.length
  fits : endHeader.Fits ending.last
  signature : ending.last.signature = endSignature
  noComment : ending.last.commentSize = 0
  plain : ending.zip64 = none → ending.last.entryCount = d.entryCount ∧
    ending.last.centralSize = d.centralSize ∧ ending.last.centralOffset = d.centralOffset ∧
    (42 ≤ file.length → number (slice file (file.length - 42) 4) ≠ locatorSignature)
  zip64 : ∀ last locator, ending.zip64 = some (last, locator) →
    zip64End.Fits last ∧ zip64Locator.Fits locator ∧ locator.signature = locatorSignature ∧
      locator.zip64EndOffset = d.centralEnd ∧ last.entryCount = d.entryCount ∧
      last.centralSize = d.centralSize ∧ last.centralOffset = d.centralOffset

variable {file : Bytes} {e : EndHeader} {d : CentralDirectory}

lemma plainDirectory_ok (hlength : 22 ≤ file.length) (hfits : endHeader.Fits e)
    (hsignature : e.signature = endSignature) (hcomment : e.commentSize = 0)
    (hstands : file.drop (file.length - 22) = endHeader.pack e)
    (h : plainDirectory file (file.length - 22) e = .ok d) : Ended file d ⟨none, e⟩ := by
  unfold plainDirectory at h
  have hmark : 42 ≤ file.length → number (slice file (file.length - 42) 4) ≠ locatorSignature := by
    intro hlong
    rw [if_pos (by omega)] at h
    simp only [except_bind_eq_ok, failUnless_eq_ok] at h
    obtain ⟨mark, hread, -, hne, -⟩ := h
    obtain ⟨-, rfl, -⟩ := readAt_eq_ok.mp hread
    rwa [Nat.sub_sub] at hne
  have hd : d = ⟨e.entryCount, e.centralSize, e.centralOffset, file.length - 22⟩ := by
    split at h
    · simp only [except_bind_eq_ok, pure, Except.pure, Except.ok.injEq] at h
      obtain ⟨-, -, -, -, rfl⟩ := h
      rfl
    · exact (Except.ok.inj h).symm
  subst hd
  refine ⟨hstands, ?_, hfits, hsignature, hcomment, fun _ => ⟨rfl, rfl, rfl, hmark⟩, ?_⟩
  · show file.length - 22 + 22 ≤ file.length
    omega
  · intro last locator hnone
    cases hnone

lemma zip64Directory_ok (hlength : 22 ≤ file.length) (hfits : endHeader.Fits e)
    (hsignature : e.signature = endSignature) (hcomment : e.commentSize = 0)
    (hstands : file.drop (file.length - 22) = endHeader.pack e)
    (h : zip64Directory file (file.length - 22) e = .ok d) : ∃ ending, Ended file d ending := by
  unfold zip64Directory at h
  simp only [except_bind_eq_ok, failUnless_eq_ok, pure, Except.pure, Except.ok.injEq] at h
  obtain ⟨-, hroom, raw, hraw, -, ⟨hlocator, -, -, hplace⟩, raw', hraw', -, hfixed, rfl⟩ := h
  obtain ⟨hfirst, hfitsFirst⟩ := drop_of_readAt (s := zip64Locator) hraw
  obtain ⟨hsecond, hfitsSecond⟩ := drop_of_readAt (s := zip64End) hraw'
  generalize zip64Locator.unpack raw = locator at *
  generalize zip64End.unpack raw' = last at *
  have hbetween : file.length - 22 - 20 + zip64Locator.size = file.length - 22 := by
    rw [size_zip64Locator]
    omega
  refine ⟨⟨some (last, locator), e⟩, ?_, ?_, hfits, hsignature, hcomment, (fun h => by cases h), ?_⟩
  · show file.drop locator.zip64EndOffset = _
    rw [hsecond, size_zip64End, hplace, hfirst, hbetween, hstands]
    rfl
  · show locator.zip64EndOffset + 22 ≤ file.length
    omega
  · intro last' locator' hsome
    obtain ⟨rfl, rfl⟩ := Prod.mk.inj (Option.some.inj hsome)
    exact ⟨hfitsSecond, hfitsFirst, hlocator, rfl, rfl, rfl, rfl⟩

lemma readEndRecords_ok (h : readEndRecords file file.length = .ok d) :
    ∃ ending, Ended file d ending := by
  unfold readEndRecords at h
  simp only [except_bind_eq_ok, failUnless_eq_ok] at h
  obtain ⟨-, hlength, raw, hraw, -, ⟨hsignature, -, -, -, hcomment⟩, h⟩ := h
  obtain ⟨hstands, hfits⟩ := drop_of_readAt (s := endHeader) hraw
  have hrest : file.drop (file.length - 22 + endHeader.size) = [] := by
    rw [List.drop_eq_nil_iff, size_endHeader]
    omega
  rw [hrest, List.append_nil] at hstands
  split at h
  · exact zip64Directory_ok hlength hfits hsignature hcomment hstands h
  · exact ⟨_, plainDirectory_ok hlength hfits hsignature hcomment hstands h⟩

/-! ## Acceptance is exact tiling -/

/-- The accepted entries are the members of an archive without a gap, read alike by both
readers. -/
structure ExactlyTiled (file : Bytes) (entries : List CentralEntry) (members : List Member)
    (ending : Ending) : Prop where
  sound : StoredZip.Sound members ending
  tiles : file = archive members ending
  described : DescribesAll file 0 entries members
  names : (entries.map fun e => portablePathKey e.name).Nodup
  streamed : streamFrom file 0 = some (members.map Member.content)
  listed : directoryMembers file = some (members.map Member.content)

/-- A byte string that the verifier accepts is the local header, name, extra field and data of
each entry in order, then their central records, then the end records, and nothing else. -/
theorem validateRawZip_exactlyTiled {expected : ℕ} {entries : List CentralEntry}
    (h : validateRawZip file file.length expected = .ok entries) :
    entries.length = expected ∧ ∃ members ending, ExactlyTiled file entries members ending := by
  unfold validateRawZip at h
  simp only [except_bind_eq_ok, failUnless_eq_ok, pure, Except.pure, Except.ok.injEq,
    Prod.exists] at h
  obtain ⟨d, hd, -, ⟨rfl, ⟨hpositive, -⟩, hends, hfirst⟩, raw, cursor, hcentral, -, rfl, validated,
    localCursor, hlocal, -, rfl, rfl⟩ := h
  obtain ⟨ending, hended⟩ := readEndRecords_ok hd
  obtain ⟨⟨pairs, hrun, rfl⟩, hcount, hnodup, -⟩ := centralEntries_ok hcentral
  have hwithin := hended.within
  obtain ⟨ms, htiled, hblocks, hoffset, hrecords, hall, hnames⟩ :=
    localEntries_ok hrun (by omega) hlocal
  have hlength : ms.length = d.entryCount := by
    rw [← hall.length_eq, ← hcount, ← List.length_map (f := (·.name)), hnames, List.length_map,
      List.length_map]
  have hfile : file = archive ms ending := by
    rw [List.drop_zero, hrecords, hended.stands] at hblocks
    exact hblocks
  rw [Nat.zero_add] at hoffset
  have hsize : (ms.flatMap Member.record).length = d.centralSize := by
    have htotal := congrArg List.length hrecords
    rw [List.length_append, List.length_drop, List.length_drop] at htotal
    omega
  have hsound : StoredZip.Sound ms ending := by
    refine ⟨htiled, ?_, ?_, ?_⟩
    · rintro rfl
      exact absurd hpositive (by simp [← hlength])
    · rw [hlength, hsize, ← hoffset]
      refine ⟨hended.fits, hended.signature, hended.noComment, ?_, ?_⟩
      · intro hplain
        obtain ⟨hentries, hcentralSize, hcentralOffset, -⟩ := hended.plain hplain
        exact ⟨hentries, hcentralSize, hcentralOffset⟩
      · rw [hends]
        exact hended.zip64
    · rw [← hfile]
      intro hplain
      exact (hended.plain hplain).2.2.2 (by omega)
  refine ⟨?_, ms, ending, hsound, hfile, hall, ?_, ?_, ?_⟩
  · rw [hall.length_eq, hlength]
  · have hsame : (validated.map fun e => portablePathKey e.name) =
        (pairs.map Prod.snd).map fun e => portablePathKey e.name := by
      have hkeys := congrArg (List.map portablePathKey) hnames
      simp only [List.map_map] at hkeys ⊢
      exact hkeys
    rw [hsame]
    exact hnodup
  · rw [hfile]
    exact hsound.stream_archive
  · rw [hfile]
    exact hsound.directory_archive

/-- A package of a manifest, the records of one component and its media index. -/
def smallPackage : Bytes :=
  writePackage [⟨manifestFileName, encodeAscii "\x7b\x7d\n"⟩,
    ⟨"components/0001/records.ndjson", encodeAscii "\x7b\"id\":1\x7d\n"⟩,
    ⟨"components/0001/media-index.ndjson", encodeAscii "[]\n"⟩]

/-- The package is accepted, and tiled. -/
theorem smallPackage_exactlyTiled :
    ∃ entries, validateRawZip smallPackage smallPackage.length 3 = .ok entries ∧
      entries.map (fun e => (e.dataStart, e.dataEnd)) = [(63, 66), (146, 155), (239, 242)] ∧
      entries.length = 3 ∧ ∃ members ending, ExactlyTiled smallPackage entries members ending := by
  have haccepted : validateRawZip smallPackage smallPackage.length 3 =
      .ok [⟨manifestFileName, 3718361094, 3, 3, 0, [], 63, 66⟩,
        ⟨"components/0001/records.ndjson", 3650973012, 9, 9, 66, [], 146, 155⟩,
        ⟨"components/0001/media-index.ndjson", 1885917764, 3, 3, 155, [], 239, 242⟩] := by
    decide +kernel
  exact ⟨_, haccepted, rfl, validateRawZip_exactlyTiled haccepted⟩

end NexaPos.Backups
