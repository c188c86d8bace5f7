import Mathlib.Algebra.GroupWithZero.Nat
import Mathlib.Algebra.Order.BigOperators.Group.List
import Mathlib.Algebra.Order.Group.Nat
import Mathlib.Data.List.Forall2
import Mathlib.Data.List.GetD
import Isofs.Directory.Entries

/-!
# Decoding a well-formed directory

What `getDirEntries` returns for a directory extent whose sectors hold whole
records: the entries of the records that start at or before offset
`2048 - sizeof(struct iso_directory_record)` of their sector, in on-disk order.
-/

namespace Isofs

open TwosComplement

/-- A directory record: its first byte is its length, which covers the 33 fixed bytes
and the name. -/
structure DirRecord where
  bytes : List UInt8
  length_eq : bytes.length = (bytes.getD 0 0).toNat
  name_fits : 33 + (bytes.getD 32 0).toNat ≤ bytes.length

namespace DirRecord

/-- The bytes of a record as a memory. -/
def mem (r : DirRecord) : Memory := fun j => r.bytes.getD j 0

def extent (r : DirRecord) : ℤ := isonum733 r.mem 2
def size (r : DirRecord) : ℤ := isonum733 r.mem 10
def date (r : DirRecord) : List UInt8 := r.mem.slice 18 7
def isDir (r : DirRecord) : Bool := r.mem 25 &&& 2 ≠ 0

end DirRecord

/-- The bytes that `records` take up together. -/
def totalLength (records : List DirRecord) : ℕ := (records.map (·.bytes.length)).sum

/-- A directory sector: a sequence of records that do not cross its end. -/
structure DirSector where
  records : List DirRecord
  fits : totalLength records ≤ 2048

/-- The bytes of the records, followed by zero fill up to `room` bytes. -/
def layout (room : ℕ) (records : List DirRecord) : List UInt8 :=
  records.flatMap (·.bytes) ++ List.replicate (room - totalLength records) 0

/-- The sector on disk. -/
def DirSector.image (s : DirSector) : List UInt8 := layout 2048 s.records

/-- A directory extent of whole sectors that are fully present in the image. -/
structure DirExtent (f : IsoFile) where
  block : ℕ
  sectors : List DirSector
  present : ∀ k (h : k < sectors.length), f.read ((block + k) * 2048) 2048 = sectors[k].image

/-- The records of the extent in on-disk order. -/
def DirExtent.records {f : IsoFile} (dir : DirExtent f) : List DirRecord :=
  dir.sectors.flatMap (·.records)

/-- The offsets at which `records` start when the first starts at `i`. -/
def startsFrom (i : ℕ) : List DirRecord → List ℕ
  | [] => []
  | r :: rs => i :: startsFrom (i + r.bytes.length) rs

/-- The offsets in the sector at which its records start. -/
def DirSector.recordStarts (s : DirSector) : List ℕ := startsFrom 0 s.records

/-- The entry carries the extent, the size, the date and the directory flag of the record. -/
structure Describes (e : IsoDirEntry) (r : DirRecord) : Prop where
  extent : e.iExtent = r.extent
  size : e.iSize = r.size
  date : e.dateBuf.take 7 = r.date
  isDir : e.isDir = r.isDir

/-- `getDirEntries` returns exactly one entry for each record of the extent, in order. -/
def DecodesAll (vol : VolData) (stack : Memory) (pos : ℕ) (dir : DirExtent vol.isoFile) : Prop :=
  ∃ entries pos', getDirEntries vol stack pos dir.block (2048 * dir.sectors.length) =
      some (entries, pos') ∧
    List.Forall₂ Describes entries dir.records

/-! ### One record -/

theorem DirRecord.length_pos (r : DirRecord) : 33 ≤ r.bytes.length := by
  have := r.name_fits
  omega

theorem length_layout {room : ℕ} {records : List DirRecord} (h : totalLength records ≤ room) :
    (layout room records).length = room := by
  have hsum : (records.flatMap (·.bytes)).length = totalLength records := by
    simp [totalLength, List.length_flatMap]
  rw [layout, List.length_append, hsum, List.length_replicate]
  omega

/-- A laid out record starts the layout. -/
theorem layout_cons (room : ℕ) (r : DirRecord) (rs : List DirRecord) :
    layout room (r :: rs) = r.bytes ++ layout (room - r.bytes.length) rs := by
  simp [layout, totalLength, Nat.sub_sub]

/-- The buffer holds the layout of `rs` from offset `i` to the end of the sector. -/
def HoldsFrom (buffer : Memory) (i : ℕ) (rs : List DirRecord) : Prop :=
  i + totalLength rs ≤ 2048 ∧ ∀ j, i + j < 2048 → buffer (i + j) = (layout (2048 - i) rs).getD j 0

theorem HoldsFrom.tail {buffer : Memory} {i : ℕ} {r : DirRecord} {rs : List DirRecord}
    (h : HoldsFrom buffer i (r :: rs)) : HoldsFrom buffer (i + r.bytes.length) rs := by
  obtain ⟨hfit, hbytes⟩ := h
  simp only [totalLength, List.map_cons, List.sum_cons] at hfit
  refine ⟨by simp only [totalLength]; omega, fun j hj => ?_⟩
  have := hbytes (r.bytes.length + j) (by omega)
  rw [layout_cons, ← Nat.add_assoc] at this
  rw [this, List.getD_append_right _ _ _ _ (by omega)]
  simp [Nat.sub_sub]

/-- The bytes of the first record are the bytes at `i`. -/
theorem HoldsFrom.head {buffer : Memory} {i : ℕ} {r : DirRecord} {rs : List DirRecord}
    (h : HoldsFrom buffer i (r :: rs)) {j : ℕ} (hj : j < r.bytes.length) :
    buffer (i + j) = r.mem j := by
  obtain ⟨hfit, hbytes⟩ := h
  simp only [totalLength, List.map_cons, List.sum_cons] at hfit
  rw [hbytes j (by omega), layout_cons, List.getD_append _ _ _ _ hj]
  rfl

theorem HoldsFrom.head_length {buffer : Memory} {i : ℕ} {r : DirRecord} {rs : List DirRecord}
    (h : HoldsFrom buffer i (r :: rs)) : (buffer i).toNat = r.bytes.length := by
  have hpos := r.length_pos
  have h0 := h.head (show 0 < r.bytes.length by omega)
  rw [Nat.add_zero] at h0
  rw [h0, r.length_eq]
  rfl

/-- Behind the last record the sector is zero. -/
theorem HoldsFrom.nil {buffer : Memory} {i : ℕ} (h : HoldsFrom buffer i []) (hi : i < 2048) :
    buffer i = 0 := by
  have hroom : 0 < 2048 - i := by omega
  have := h.2 0 hi
  simpa [layout, totalLength, List.getElem?_replicate, hroom] using this

theorem isonum733_congr {m m' : Memory} {p p' : ℕ} (h : ∀ j < 4, m (p + j) = m' (p' + j)) :
    isonum733 m p = isonum733 m' p' := by
  rw [isonum733, isonum733, Memory.le32_congr h]

/-- The entry decoded at a record describes the record. -/
theorem recordEntry_describes {buffer : Memory} {i : ℕ} {r : DirRecord} {rs : List DirRecord}
    (h : HoldsFrom buffer i (r :: rs)) (extent : ℤ) (chars : List UInt8)
    (hlen : chars.length < 256) :
    Describes (recordEntry buffer extent i chars hlen) r := by
  have hpos := r.length_pos
  have hbyte : ∀ p, p < 33 → buffer (i + p) = r.mem p := fun p hp => h.head (by omega)
  constructor
  · exact isonum733_congr fun j hj => by rw [Nat.add_assoc]; exact hbyte _ (by omega)
  · exact isonum733_congr fun j hj => by rw [Nat.add_assoc]; exact hbyte _ (by omega)
  · apply List.ext_getElem (by simp [recordEntry, DirRecord.date])
    intro j hj _
    have hj7 : j < 7 := by simpa [recordEntry] using hj
    simp only [recordEntry, DirRecord.date, List.getElem_take, Memory.getElem_slice]
    rw [Nat.add_assoc]
    exact hbyte _ (by omega)
  · simp only [recordEntry, IsoDirEntry.isDir, DirRecord.isDir, hbyte 25 (by omega)]
    split <;> simp_all

theorem decodeRecord_describes {vol : VolData} (hucs : vol.ucsLevel ≤ 3) {buffer : Memory} {i : ℕ}
    {r : DirRecord} {rs : List DirRecord} (h : HoldsFrom buffer i (r :: rs)) (extent : ℤ) :
    ∃ e, decodeRecord vol buffer extent i = some e ∧ Describes e r := by
  obtain ⟨chars, hchars⟩ := nameBuf_isSome hucs buffer i
  refine ⟨recordEntry buffer extent i chars (length_nameBuf_lt hchars), ?_,
    recordEntry_describes h extent chars _⟩
  rw [decodeRecord]
  split
  · next hnone => rw [hchars] at hnone; cases hnone
  · next chars' hsome =>
    rw [hchars, Option.some.injEq] at hsome
    subst hsome
    rfl

/-! ### One sector -/

/-- The records among `rs` that the inner loop decodes when it stands at offset `i`: it
stops before a record that starts past `2048 - sizeof(struct iso_directory_record)`. -/
def readable (i : ℕ) : List DirRecord → List DirRecord
  | [] => []
  | r :: rs =>
    if 2048 - sizeofDirectoryRecord < i + r.bytes.length then [r]
    else r :: readable (i + r.bytes.length) rs

/-- The inner loop decodes the readable records of the sector. -/
theorem sectorEntries_describe {vol : VolData} (hucs : vol.ucsLevel ≤ 3) {buffer : Memory}
    (extent : ℤ) {i : ℕ} {rs : List DirRecord} (h : HoldsFrom buffer i rs) (hi : i < 2048) :
    ∃ entries, sectorEntries vol buffer extent i = some entries ∧
      List.Forall₂ Describes entries (readable i rs) := by
  induction rs generalizing i with
  | nil =>
    refine ⟨[], ?_, List.Forall₂.nil⟩
    rw [sectorEntries]
    simp [h.nil hi]
  | cons r rs ih =>
    have hlen := h.head_length
    have hpos := r.length_pos
    have hne : buffer i ≠ 0 := by
      intro h0
      rw [h0] at hlen
      simp at hlen
      omega
    obtain ⟨e, he, hd⟩ := decodeRecord_describes hucs h extent
    rw [sectorEntries]
    rw [dif_neg hne, he]
    simp only [hlen, readable]
    by_cases hcut : 2048 - sizeofDirectoryRecord < i + r.bytes.length
    · rw [dif_pos hcut, if_pos hcut]
      exact ⟨[e], rfl, List.Forall₂.cons hd List.Forall₂.nil⟩
    · rw [dif_neg hcut, if_neg hcut]
      obtain ⟨entries, hentries, hforall⟩ := ih h.tail (by
        rw [sizeofDirectoryRecord] at hcut
        omega)
      exact ⟨e :: entries, by rw [hentries]; rfl, List.Forall₂.cons hd hforall⟩

theorem length_readable_le (i : ℕ) (rs : List DirRecord) :
    (readable i rs).length ≤ rs.length := by
  induction rs generalizing i with
  | nil => simp [readable]
  | cons r rs ih =>
    rw [readable]
    split
    · simp
    · have := ih (i + r.bytes.length)
      simp only [List.length_cons]
      omega

theorem readable_eq_of_length {i : ℕ} {rs : List DirRecord}
    (h : (readable i rs).length = rs.length) : readable i rs = rs := by
  induction rs generalizing i with
  | nil => rfl
  | cons r rs ih =>
    unfold readable at h ⊢
    split at h
    · next hcut =>
      rw [if_pos hcut]
      cases rs with
      | nil => rfl
      | cons r' rs => simp at h
    · next hcut =>
      rw [if_neg hcut, ih (by simpa using h)]

/-- All records are readable exactly when none starts past the cut-off. -/
theorem readable_eq_iff {i : ℕ} (rs : List DirRecord) (hi : i ≤ 2048 - sizeofDirectoryRecord) :
    readable i rs = rs ↔ ∀ p ∈ startsFrom i rs, p ≤ 2048 - sizeofDirectoryRecord := by
  induction rs generalizing i with
  | nil => simp [readable, startsFrom]
  | cons r rs ih =>
    simp only [readable, startsFrom, List.forall_mem_cons, hi, true_and]
    by_cases hcut : 2048 - sizeofDirectoryRecord < i + r.bytes.length
    · rw [if_pos hcut]
      cases rs with
      | nil => simp [startsFrom]
      | cons r' rs =>
        simp only [List.cons.injEq, true_and, reduceCtorEq, startsFrom, List.forall_mem_cons,
          false_iff, not_and]
        omega
    · rw [if_neg hcut, List.cons.injEq, and_iff_right rfl]
      exact ih (by omega)

/-! ### The whole extent -/

/-- After the read of sector `k` of the extent the buffer holds its records. -/
theorem DirExtent.holdsFrom {f : IsoFile} (dir : DirExtent f) {k : ℕ} (hk : k < dir.sectors.length)
    (pos : ℕ) (buffer : Memory) :
    HoldsFrom (f.seekRead pos (IsoFile.blockOffset ((dir.block + k : ℕ) : ℤ)) 2048 buffer).1 0
      dir.sectors[k].records := by
  have hread := dir.present k hk
  have hlen := congrArg List.length hread
  rw [IsoFile.length_read, DirSector.image, length_layout dir.sectors[k].fits] at hlen
  have hsize := f.size_lt
  refine ⟨by simpa using dir.sectors[k].fits, fun j hj => ?_⟩
  have hin : (dir.block + k) * 2048 + j < f.bytes.length := by omega
  rw [IsoFile.blockOffset_natCast (by omega), Nat.zero_add, IsoFile.seekRead_apply _ _ _ _ _ _
    (by omega) hin]
  have hj' : j < (f.read ((dir.block + k) * 2048) 2048).length := by
    rw [IsoFile.length_read]
    omega
  rw [← IsoFile.getElem_read f _ 2048 j hj', Nat.sub_zero]
  simp only [hread, DirSector.image]
  rw [List.getD_eq_getElem]

/-- The outer loop from sector `k` on: each sector gives the entries of its readable records. -/
theorem dirSectors_describe {vol : VolData} (hucs : vol.ucsLevel ≤ 3) (dir : DirExtent vol.isoFile)
    (n k : ℕ) (hn : k + n = dir.sectors.length) (buffer : Memory) (pos : ℕ) {len : ℤ}
    (hlen : len = 2048 * n) :
    ∃ entries pos', dirSectors vol buffer pos ((dir.block + k : ℕ) : ℤ) len = some (entries, pos') ∧
      List.Forall₂ Describes entries
        ((dir.sectors.drop k).flatMap fun s => readable 0 s.records) := by
  induction n generalizing k buffer pos len with
  | zero =>
    refine ⟨[], pos, dirSectors_of_nonpos _ _ _ _ (by omega), ?_⟩
    rw [List.drop_eq_nil_of_le (by omega)]
    exact List.Forall₂.nil
  | succ n ih =>
    have hk : k < dir.sectors.length := by omega
    have hsize := vol.isoFile.size_lt
    have hread := congrArg List.length (dir.present k hk)
    rw [IsoFile.length_read, DirSector.image, length_layout dir.sectors[k].fits] at hread
    have hholds := dir.holdsFrom hk pos buffer
    generalize hsector : vol.isoFile.seekRead pos
      (IsoFile.blockOffset ((dir.block + k : ℕ) : ℤ)) 2048 buffer = sector at hholds
    obtain ⟨entries, hentries, hforall⟩ :=
      sectorEntries_describe hucs ((dir.block + k : ℕ) : ℤ) hholds (by omega)
    have hlen' : len - 2048 = 2048 * n := by omega
    obtain ⟨rest, pos', hrest, hforall'⟩ := ih (k + 1) (by omega) sector.1 sector.2 hlen'
    have hnext : wrap32 (((dir.block + k : ℕ) : ℤ) + 1) = ((dir.block + (k + 1) : ℕ) : ℤ) := by
      rw [wrap32_eq_self (by omega) (by omega)]
      omega
    refine ⟨entries ++ rest, pos', ?_, ?_⟩
    · rw [dirSectors_of_pos _ _ _ _ (by omega) hsector, hentries]
      simp only [hnext, hrest, Option.map_some]
    · rw [List.drop_eq_getElem_cons hk, List.flatMap_cons]
      exact List.rel_append hforall hforall'

/-- What `getDirEntries` returns for a well-formed extent. -/
theorem getDirEntries_describe {vol : VolData} (hucs : vol.ucsLevel ≤ 3)
    (dir : DirExtent vol.isoFile) (stack : Memory) (pos : ℕ) :
    ∃ entries pos', getDirEntries vol stack pos dir.block (2048 * dir.sectors.length) =
        some (entries, pos') ∧
      List.Forall₂ Describes entries (dir.sectors.flatMap fun s => readable 0 s.records) := by
  obtain ⟨entries, pos', h, hforall⟩ := dirSectors_describe hucs dir dir.sectors.length 0 (by omega)
    (stack.clear 2048) pos rfl
  exact ⟨entries, pos', h, hforall⟩

/-- The entries returned are as many as the readable records. -/
theorem decodesAll_iff_readable {vol : VolData} (hucs : vol.ucsLevel ≤ 3)
    (dir : DirExtent vol.isoFile) (stack : Memory) (pos : ℕ) :
    DecodesAll vol stack pos dir ↔
      ∀ s ∈ dir.sectors, (readable 0 s.records).length = s.records.length := by
  obtain ⟨entries, pos', h, hforall⟩ := getDirEntries_describe hucs dir stack pos
  constructor
  · rintro ⟨entries', pos'', h', hforall'⟩
    rw [h, Option.some.injEq, Prod.mk.injEq] at h'
    obtain ⟨rfl, rfl⟩ := h'
    have hlen := hforall.length_eq.symm.trans hforall'.length_eq
    simp only [DirExtent.records, List.length_flatMap] at hlen
    generalize dir.sectors = sectors at hlen
    -- no sector yields more than its records, so an equal sum is equal in each sector
    induction sectors with
    | nil => simp
    | cons s sectors ih =>
      have hle : (sectors.map fun s => (readable 0 s.records).length).sum ≤
          (sectors.map fun s => s.records.length).sum :=
        List.sum_le_sum fun s _ => length_readable_le 0 s.records
      have hs := length_readable_le 0 s.records
      simp only [List.map_cons, List.sum_cons] at hlen
      rw [List.forall_mem_cons]
      exact ⟨by omega, ih (by omega)⟩
  · intro hall
    refine ⟨entries, pos', h, ?_⟩
    have hrecords : (dir.sectors.flatMap fun s => readable 0 s.records) = dir.records := by
      rw [DirExtent.records]
      apply List.flatMap_congr
      intro s hs
      exact readable_eq_of_length (hall s hs)
    rwa [hrecords] at hforall

/-- `getDirEntries` decodes every record of a well-formed directory extent exactly when no
record starts in the last 70 bytes of its sector. -/
theorem getDirEntries_complete_iff (vol : AttachedVolume) (stack : Memory) (pos : ℕ)
    (dir : DirExtent vol.isoFile) :
    DecodesAll vol.toVolData stack pos dir ↔
      ∀ s ∈ dir.sectors, ∀ p ∈ s.recordStarts, p ≤ 2048 - sizeofDirectoryRecord := by
  rw [decodesAll_iff_readable vol.ucsLevel_le]
  refine forall₂_congr fun s _ => ?_
  rw [DirSector.recordStarts, ← readable_eq_iff s.records (Nat.zero_le _)]
  exact ⟨readable_eq_of_length, congrArg List.length⟩

/-! ### A directory that loses a record -/

/-- A record of `n` bytes with an empty name. -/
def blankRecord (n : ℕ) (h : 33 ≤ n ∧ n < 256) : DirRecord where
  bytes := UInt8.ofNat n :: List.replicate (n - 1) 0
  length_eq := by
    have hn : n % 256 = n := Nat.mod_eq_of_lt h.2
    simp [hn]
    omega
  name_fits := by
    have hn : 31 < n - 1 := by omega
    simp [hn]
    omega

@[simp] theorem length_blankRecord (n : ℕ) (h : 33 ≤ n ∧ n < 256) :
    (blankRecord n h).bytes.length = n := by
  simp only [blankRecord, List.length_cons, List.length_replicate]
  omega

/-- Eight records of 248 bytes and a ninth of 34 bytes at offset 1984. -/
def crowdedSector : DirSector where
  records := List.replicate 8 (blankRecord 248 (by decide)) ++ [blankRecord 34 (by decide)]
  fits := by
    simp only [totalLength, List.map_append, List.map_replicate, List.map_cons, List.map_nil,
      length_blankRecord]
    decide

/-- An image that consists of the crowded sector. -/
def crowdedFile : IsoFile where
  bytes := crowdedSector.image
  size_lt := by
    rw [DirSector.image, length_layout crowdedSector.fits]
    decide

/-- The volume of that image, with its root directory in block 0. -/
def crowdedVolume : AttachedVolume where
  isoFile := crowdedFile
  ipd := Memory.zeros
  iRootExtent := 0
  iRootSize := 2048
  ucsLevel := 3
  nls := none
  ucsLevel_pos := one_le_three
  ucsLevel_le := three_le_three

/-- The crowded sector as a directory extent. -/
def crowdedDir : DirExtent crowdedVolume.isoFile where
  block := 0
  sectors := [crowdedSector]
  present := by
    intro k hk
    have hk0 : k = 0 := by simpa using hk
    subst hk0
    have hlen : crowdedSector.image.length = 2048 := length_layout crowdedSector.fits
    simp [IsoFile.read, crowdedVolume, crowdedFile, ← hlen]

/-- The ninth record of the crowded sector is lost. -/
theorem getDirEntries_loses_record :
    ¬ DecodesAll crowdedVolume.toVolData Memory.zeros 0 crowdedDir := by
  rw [decodesAll_iff_readable crowdedVolume.ucsLevel_le]
  intro h
  have := h crowdedSector (List.mem_singleton.mpr rfl)
  simp [crowdedSector, readable, sizeofDirectoryRecord, List.replicate_succ] at this

end Isofs
