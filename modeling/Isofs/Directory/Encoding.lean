import Isofs.Directory.Decoding
import Isofs.Directory.JolietNames

/-!
# Encoding a directory

Directory records as a writer of Joliet discs lays them out, with the fields of
`struct iso_directory_record`: numbers in both byte orders, names in big-endian UCS-2, a pad byte
that makes the length even. `getDirEntries` reads back what was encoded.
-/

namespace Isofs

open TwosComplement

/-- The name in a directory record: the directory itself, the one above it, or as many characters
as a record has room for. -/
inductive RecordName where
  | self
  | parent
  | chars (name : List UcsChar) (h : name.length ≤ 110)
  deriving DecidableEq

/-- The recording date and time of a record. -/
abbrev RecordDate := { date : List UInt8 // date.length = 7 }

/-- The bytes of a name on disk. -/
def RecordName.bytes : RecordName → List UInt8
  | .self => [0]
  | .parent => [1]
  | .chars name _ => name.flatMap fun c => [c.1, c.2]

/-- The codepage name that a listing gives. -/
def RecordName.codepageName (nls : Option NlsTable) : RecordName → List UInt8
  | .self => [0x2e]
  | .parent => [0x2e, 0x2e]
  | .chars name _ => cString (name.map fun c => convertChar nls c.1 c.2)

theorem length_ucsBytes (name : List UcsChar) :
    (name.flatMap fun c => [c.1, c.2]).length = 2 * name.length := by
  induction name with
  | nil => rfl
  | cons c cs ih =>
    rw [List.flatMap_cons, List.length_append, ih, List.length_cons]
    exact (Nat.add_comm _ _).trans (Nat.mul_succ 2 cs.length).symm

theorem RecordName.length_bytes_le (name : RecordName) : name.bytes.length ≤ 220 := by
  cases name with
  | self => decide
  | parent => decide
  | chars name h =>
    rw [bytes, length_ucsBytes]
    omega

/-- What a directory record says. -/
structure DirItem where
  name : RecordName
  extent : ℕ
  size : ℕ
  isDir : Bool
  date : RecordDate
  extent_lt : extent < 2 ^ 31
  size_lt : size < 2 ^ 31

namespace DirItem

/-- A number in both byte orders. -/
def bothEndian (n : ℕ) : List UInt8 := Memory.le32Bytes n ++ (Memory.le32Bytes n).reverse

/-- The length of a record with a name of `n` bytes: 33 fixed bytes, the name and a pad byte. -/
def recordLength (n : ℕ) : ℕ := 33 + n + (if n % 2 = 0 then 1 else 0)

/-- The flags of a record; only the one for directories is ever set. -/
def flags (item : DirItem) : UInt8 := if item.isDir then 2 else 0

/-- The bytes of the record in front of its name. -/
def header (item : DirItem) : List UInt8 :=
  [UInt8.ofNat (recordLength item.name.bytes.length), 0] ++ bothEndian item.extent ++
    bothEndian item.size ++ item.date.1 ++ [item.flags, 0, 0, 1, 0, 0, 1] ++
    [UInt8.ofNat item.name.bytes.length]

/-- The bytes of the record. -/
def bytes (item : DirItem) : List UInt8 :=
  item.header ++ (item.name.bytes ++
    List.replicate (if item.name.bytes.length % 2 = 0 then 1 else 0) 0)

theorem length_header (item : DirItem) : item.header.length = 33 := by
  simp [header, bothEndian, Memory.le32Bytes, item.date.2]

theorem length_bytes (item : DirItem) :
    item.bytes.length = recordLength item.name.bytes.length := by
  rw [bytes, List.length_append, List.length_append, List.length_replicate, length_header,
    recordLength, Nat.add_assoc]

theorem recordLength_lt (name : RecordName) : recordLength name.bytes.length < 256 := by
  have hle := name.length_bytes_le
  rw [recordLength]
  split <;> omega

/-- A byte of the header. -/
theorem getD_header (item : DirItem) {j : ℕ} (hj : j < 33) :
    item.bytes.getD j 0 = item.header.getD j 0 := by
  rw [bytes, List.getD_append _ _ _ _ (by rwa [length_header])]

theorem getD_nameLen (item : DirItem) :
    (item.bytes.getD 32 0).toNat = item.name.bytes.length := by
  have hle := item.name.length_bytes_le
  have hfront : ([UInt8.ofNat (recordLength item.name.bytes.length), 0] ++ bothEndian item.extent ++
      bothEndian item.size ++ item.date.1 ++ [item.flags, 0, 0, 1, 0, 0, 1]).length = 32 := by
    simp [bothEndian, Memory.le32Bytes, item.date.2]
  rw [getD_header item (by decide), header, List.getD_append_right _ _ _ _ (by omega), hfront]
  show (UInt8.ofNat item.name.bytes.length).toNat = _
  rw [UInt8.toNat_ofNat']
  omega

/-- The record of an item. -/
def record (item : DirItem) : DirRecord where
  bytes := item.bytes
  length_eq := by
    have hlt := recordLength_lt item.name
    have hfirst : item.bytes.getD 0 0 = UInt8.ofNat (recordLength item.name.bytes.length) := rfl
    rw [length_bytes, hfirst, UInt8.toNat_ofNat']
    omega
  name_fits := by
    rw [getD_nameLen, length_bytes, recordLength]
    omega

@[simp] theorem bytes_record (item : DirItem) : item.record.bytes = item.bytes := rfl

/-! ### Decoding -/

/-- The entry says what the item says. -/
structure Lists (nls : Option NlsTable) (e : IsoDirEntry) (item : DirItem) : Prop where
  name : e.chrName = item.name.codepageName nls
  extent : e.iExtent = item.extent
  size : e.iSize = item.size
  isDir : e.isDir = item.isDir
  date : e.dateBuf.take 7 = item.date.1

theorem isonum733_bothEndian {m : Memory} {p n : ℕ} (hn : n < 2 ^ 31)
    (h : m.HoldsAt p (bothEndian n)) : isonum733 m p = n := by
  have hlow := (Memory.holdsAt_append.mp h).1
  rw [isonum733, hlow.le32 (by omega), wrap32_eq_self (by omega) (by omega)]

section Fields

variable {m : Memory} {off : ℕ} {item : DirItem}

theorem holdsAt_header (h : m.HoldsAt off item.bytes) : m.HoldsAt off item.header :=
  (Memory.holdsAt_append.mp h).1

theorem isonum733_extent (h : m.HoldsAt off item.bytes) : isonum733 m (off + 2) = item.extent := by
  have hheader := holdsAt_header h
  simp only [header, Memory.holdsAt_append] at hheader
  exact isonum733_bothEndian item.extent_lt hheader.1.1.1.1.2

theorem isonum733_size (h : m.HoldsAt off item.bytes) : isonum733 m (off + 10) = item.size := by
  have hheader := holdsAt_header h
  simp only [header, Memory.holdsAt_append] at hheader
  exact isonum733_bothEndian item.size_lt hheader.1.1.1.2

theorem slice_date (h : m.HoldsAt off item.bytes) : m.slice (off + 18) 7 = item.date.1 := by
  have hheader := holdsAt_header h
  simp only [header, Memory.holdsAt_append] at hheader
  have hslice := hheader.1.1.2.slice
  rwa [item.date.2] at hslice

theorem flags_byte (h : m.HoldsAt off item.bytes) : m (off + 25) = item.flags := by
  have hheader := holdsAt_header h
  simp only [header, Memory.holdsAt_append] at hheader
  have hflags := hheader.1.2 0 (Nat.succ_pos 6)
  rw [List.length_append, List.length_append, List.length_append, item.date.2] at hflags
  exact hflags

end Fields

theorem holdsAt_record (item : DirItem) : item.record.mem.HoldsAt 0 item.bytes := by
  intro j hj
  rw [Nat.zero_add, DirRecord.mem, bytes_record, List.getD_eq_getElem _ _ hj]

theorem extent_record (item : DirItem) : item.record.extent = item.extent := by
  rw [DirRecord.extent, ← isonum733_extent item.holdsAt_record]

theorem size_record (item : DirItem) : item.record.size = item.size := by
  rw [DirRecord.size, ← isonum733_size item.holdsAt_record]

theorem date_record (item : DirItem) : item.record.date = item.date.1 := by
  rw [DirRecord.date, ← slice_date item.holdsAt_record]

theorem isDir_record (item : DirItem) : item.record.isDir = item.isDir := by
  have hflags : item.record.mem 25 = item.flags := by
    rw [← flags_byte item.holdsAt_record]
  rw [DirRecord.isDir, hflags, flags]
  cases item.isDir <;> rfl

/-! ### Names -/

/-- The characters of a name stand in the memory one after the other. -/
theorem holdsAt_ucsName {m : Memory} {off : ℕ} {name : List UcsChar}
    (h : m.HoldsAt off (name.flatMap fun c => [c.1, c.2])) {j : ℕ} (hj : j < name.length) :
    (m (off + j * 2), m (off + (j * 2 + 1))) = name[j] := by
  induction name generalizing off j with
  | nil => exact absurd hj (Nat.not_lt_zero j)
  | cons c cs ih =>
    rw [List.flatMap_cons, Memory.holdsAt_append] at h
    obtain ⟨hc, hcs⟩ := h
    cases j with
    | zero =>
      have hlow : m off = c.1 := hc 0 Nat.two_pos
      have hhigh : m (off + 1) = c.2 := hc 1 Nat.one_lt_two
      simp only [Nat.zero_mul, Nat.add_zero, Nat.zero_add, hlow, hhigh, List.getElem_cons_zero]
    | succ j =>
      have hrest := ih hcs (Nat.lt_of_succ_lt_succ hj)
      have h0 : off + (j + 1) * 2 = off + 2 + j * 2 := by omega
      have h1 : off + ((j + 1) * 2 + 1) = off + 2 + (j * 2 + 1) := by omega
      rw [h0, h1, List.getElem_cons_succ]
      exact hrest

section Record

variable {buffer : Memory} {i : ℕ} {item : DirItem} {rs : List DirRecord}

/-- A buffer that holds the record of an item holds its bytes. -/
theorem holdsAt_of_holdsFrom (h : HoldsFrom buffer i (item.record :: rs)) :
    buffer.HoldsAt i item.bytes := by
  intro j hj
  rw [h.head hj, DirRecord.mem, bytes_record, List.getD_eq_getElem]

theorem nameLen_item (h : HoldsFrom buffer i (item.record :: rs)) :
    nameLen buffer i = item.name.bytes.length := by
  have hpos := item.record.length_pos
  rw [nameLen, h.head (show 32 < item.record.bytes.length by omega), ← item.getD_nameLen]
  rfl

theorem nameBytes_item (h : HoldsFrom buffer i (item.record :: rs)) :
    buffer.HoldsAt (i + 33) item.name.bytes := by
  have hbytes := holdsAt_of_holdsFrom h
  rw [bytes, Memory.holdsAt_append, Memory.holdsAt_append, length_header] at hbytes
  exact hbytes.2.1

/-- The characters put into `name_buf` for the record of an item. -/
theorem nameBuf_item (vol : AttachedVolume) (h : HoldsFrom buffer i (item.record :: rs)) :
    ∃ chars, nameBuf vol.toVolData buffer i = some chars ∧
      cString chars = item.name.codepageName vol.nls := by
  have hlen := nameLen_item h
  have hbytes := nameBytes_item h
  cases hname : item.name with
  | self =>
    rw [hname] at hlen hbytes
    have hfirst : nameByte buffer i 0 = 0 := hbytes 0 (by decide)
    exact ⟨_, by rw [nameBuf, if_pos ⟨hlen, hfirst⟩], rfl⟩
  | parent =>
    rw [hname] at hlen hbytes
    have hfirst : nameByte buffer i 0 = 1 := hbytes 0 (by decide)
    have hself : ¬ (nameLen buffer i = 1 ∧ nameByte buffer i 0 = 0) := by
      rintro ⟨-, h0⟩
      rw [hfirst] at h0
      exact absurd h0 (by decide)
    exact ⟨_, by rw [nameBuf, if_neg hself, if_pos ⟨hlen, hfirst⟩], rfl⟩
  | chars name _ =>
    rw [hname] at hlen hbytes
    rw [RecordName.bytes, length_ucsBytes] at hlen
    have hlevel : vol.ucsLevel = 1 ∨ vol.ucsLevel = 2 ∨ vol.ucsLevel = 3 := by
      have h1 := vol.ucsLevel_pos
      have h3 := vol.ucsLevel_le
      omega
    refine ⟨name.map fun c => convertChar vol.nls c.1 c.2, ?_, rfl⟩
    have hchars : ((List.range (nameLen buffer i / 2)).map fun j =>
        convertChar vol.nls (nameByte buffer i (j * 2)) (nameByte buffer i (j * 2 + 1))) =
        name.map fun c => convertChar vol.nls c.1 c.2 := by
      refine List.ext_getElem (by simp [hlen]) fun j hj hj' => ?_
      rw [List.length_map] at hj'
      have hchar := Prod.ext_iff.mp (holdsAt_ucsName hbytes hj')
      rw [List.getElem_map, List.getElem_map, List.getElem_range, ← hchar.1, ← hchar.2]
      rfl
    rw [nameBuf, if_neg (by omega), if_neg (by omega), ← hchars]
    rcases hlevel with hl | hl | hl <;> rw [hl] <;> rfl

/-- The entry decoded at the record of an item lists the item. -/
theorem decodeRecord_item (vol : AttachedVolume) (h : HoldsFrom buffer i (item.record :: rs))
    (sector : ℤ) :
    ∃ e, decodeRecord vol.toVolData buffer sector i = some e ∧ Lists vol.nls e item := by
  obtain ⟨chars, hchars, hname⟩ := nameBuf_item vol h
  have hdescribes := recordEntry_describes h sector chars (length_nameBuf_lt hchars)
  refine ⟨recordEntry buffer sector i chars (length_nameBuf_lt hchars), ?_, hname,
    hdescribes.extent.trans item.extent_record, hdescribes.size.trans item.size_record,
    hdescribes.isDir.trans item.isDir_record, hdescribes.date.trans item.date_record⟩
  rw [decodeRecord]
  split
  · next hnone => rw [hchars] at hnone; cases hnone
  · next chars' hsome =>
    obtain rfl := Option.some.inj (hchars.symm.trans hsome)
    rfl

end Record

end DirItem

/-! ### Directories -/

/-- The sectors of a directory with the items in each. No record crosses the end of its sector, and
none starts past the last offset at which `getDirEntries` looks for one. -/
structure DirLayout where
  sectors : List (List DirItem)
  fits : ∀ s ∈ sectors, totalLength (s.map DirItem.record) ≤ 2048
  starts : ∀ s ∈ sectors, ∀ p ∈ startsFrom 0 (s.map DirItem.record),
    p ≤ 2048 - sizeofDirectoryRecord

namespace DirLayout

/-- The items of the directory in on-disk order. -/
def items (d : DirLayout) : List DirItem := d.sectors.flatten

/-- The sectors on disk. -/
def sectorBytes (sectors : List (List DirItem)) : List UInt8 :=
  sectors.flatMap fun s => layout 2048 (s.map DirItem.record)

/-- The directory on disk. -/
def bytes (d : DirLayout) : List UInt8 := sectorBytes d.sectors

theorem length_sectorBytes {sectors : List (List DirItem)}
    (h : ∀ s ∈ sectors, totalLength (s.map DirItem.record) ≤ 2048) :
    (sectorBytes sectors).length = 2048 * sectors.length := by
  induction sectors with
  | nil => rfl
  | cons s sectors ih =>
    rw [List.forall_mem_cons] at h
    have hrest := ih h.2
    rw [sectorBytes] at hrest ⊢
    rw [List.flatMap_cons, List.length_append, hrest, length_layout h.1, List.length_cons,
      Nat.mul_succ, Nat.add_comm]

theorem length_bytes (d : DirLayout) : d.bytes.length = 2048 * d.sectors.length :=
  length_sectorBytes d.fits

variable {vol : AttachedVolume}

/-- The inner loop lists the items of a sector. -/
theorem sectorEntries_items {buffer : Memory} (sector : ℤ) {i : ℕ} {items : List DirItem}
    (h : HoldsFrom buffer i (items.map DirItem.record)) (hi : i < 2048)
    (hstarts : ∀ p ∈ startsFrom i (items.map DirItem.record), p ≤ 2048 - sizeofDirectoryRecord) :
    ∃ entries, sectorEntries vol.toVolData buffer sector i = some entries ∧
      List.Forall₂ (DirItem.Lists vol.nls) entries items := by
  induction items generalizing i with
  | nil => exact ⟨[], by rw [sectorEntries, dif_pos (h.nil hi)], .nil⟩
  | cons item items ih =>
    have hlen := h.head_length
    have hpos := item.record.length_pos
    have hne : buffer i ≠ 0 := by
      intro h0
      rw [h0, UInt8.toNat_zero] at hlen
      omega
    obtain ⟨e, he, hlists⟩ := DirItem.decodeRecord_item vol h sector
    rw [sectorEntries, dif_neg hne, he]
    simp only [hlen]
    simp only [List.map_cons, startsFrom, List.forall_mem_cons] at hstarts
    cases items with
    | nil =>
      by_cases hcut : 2048 - sizeofDirectoryRecord < i + item.record.bytes.length
      · rw [dif_pos hcut]
        exact ⟨[e], rfl, .cons hlists .nil⟩
      · rw [dif_neg hcut]
        obtain ⟨entries, hentries, hall⟩ := ih h.tail (by
          rw [sizeofDirectoryRecord] at hcut
          omega) hstarts.2
        exact ⟨e :: entries, by rw [hentries]; rfl, .cons hlists hall⟩
    | cons next items =>
      -- the next record starts before the cut-off, so the loop goes on
      have hnext := hstarts.2 (i + item.record.bytes.length) List.mem_cons_self
      rw [dif_neg (by omega)]
      obtain ⟨entries, hentries, hall⟩ := ih h.tail (by
        rw [sizeofDirectoryRecord] at hnext
        omega) hstarts.2
      exact ⟨e :: entries, by rw [hentries]; rfl, .cons hlists hall⟩

/-- After the read of a stored sector the buffer holds its records. -/
theorem holdsFrom_of_holds {f : IsoFile} {block : ℕ} {rs : List DirRecord}
    (hfits : totalLength rs ≤ 2048) (h : f.Holds block (layout 2048 rs)) (pos : ℕ)
    (buffer : Memory) :
    HoldsFrom (f.seekRead pos (IsoFile.blockOffset block) 2048 buffer).1 0 rs := by
  refine ⟨by rwa [Nat.zero_add], fun j hj => ?_⟩
  rw [Nat.zero_add] at hj ⊢
  have hj' : j < (layout 2048 rs).length := by rwa [length_layout hfits]
  rw [h.seekRead pos 2048 buffer hj' hj, List.getD_eq_getElem _ _ hj']

/-- The outer loop lists the items of all sectors. -/
theorem dirSectors_items {sectors : List (List DirItem)} {block : ℕ}
    (hfits : ∀ s ∈ sectors, totalLength (s.map DirItem.record) ≤ 2048)
    (hstarts : ∀ s ∈ sectors, ∀ p ∈ startsFrom 0 (s.map DirItem.record),
      p ≤ 2048 - sizeofDirectoryRecord)
    (h : vol.isoFile.Holds block (sectorBytes sectors)) (buffer : Memory) (pos : ℕ) {len : ℤ}
    (hlen : len = 2048 * sectors.length) :
    ∃ entries pos', dirSectors vol.toVolData buffer pos block len = some (entries, pos') ∧
      List.Forall₂ (DirItem.Lists vol.nls) entries sectors.flatten := by
  induction sectors generalizing block buffer pos len with
  | nil => exact ⟨[], pos, dirSectors_of_nonpos _ _ _ _ (by simp [hlen]), .nil⟩
  | cons s sectors ih =>
    rw [List.forall_mem_cons] at hfits hstarts
    rw [List.length_cons] at hlen
    have hlayout := length_layout hfits.1
    have hsize := vol.isoFile.size_lt
    have h : vol.isoFile.Holds block
        (layout 2048 (s.map DirItem.record) ++ sectorBytes sectors) := h
    have hin := h.left.length_le (List.ne_nil_of_length_pos (by omega))
    obtain ⟨sector, hsector⟩ : ∃ sector, vol.isoFile.seekRead pos
      (IsoFile.blockOffset block) 2048 buffer = sector := ⟨_, rfl⟩
    obtain ⟨entries, hentries, hall⟩ := @sectorEntries_items vol _ block _ _
      (hsector ▸ holdsFrom_of_holds hfits.1 h.left pos buffer) (by decide) hstarts.1
    obtain ⟨rest, pos', hrest, hall'⟩ := @ih _ hfits.2 hstarts.2 (h.right (k := 1) hlayout)
      sector.1 sector.2 (len - 2048) (by omega)
    have hnext : wrap32 ((block : ℤ) + 1) = ((block + 1 : ℕ) : ℤ) :=
      wrap32_eq_self (by omega) (by omega)
    refine ⟨entries ++ rest, pos', ?_, List.rel_append hall hall'⟩
    rw [dirSectors_of_pos _ _ _ _ (by omega) hsector, hentries]
    simp only [hnext, hrest, Option.map_some]

/-- `getDirEntries` lists the items of a directory that is stored in the image. -/
theorem getDirEntries_items (d : DirLayout) {block : ℕ} (h : vol.isoFile.Holds block d.bytes)
    (stack : Memory) (pos : ℕ) :
    ∃ entries pos', getDirEntries vol.toVolData stack pos block (2048 * d.sectors.length) =
        some (entries, pos') ∧
      List.Forall₂ (DirItem.Lists vol.nls) entries d.items :=
  dirSectors_items d.fits d.starts h (stack.clear 2048) pos rfl

end DirLayout

end Isofs
