import Isofs.Directory.Soundness
import Isofs.File.ReadArray

/-!
# Sector addressing

The offsets that `getDirEntries` and `fsRead` pass to their seeks, and the places at which they
then read. Sector numbers and offsets are signed 32-bit words, so an offset is that of its sector
only below 2 GiB; past that a seek fails or leads to another sector.
-/

namespace Isofs

open TwosComplement

/-! ### The reads of `fsRead` -/

/-- The reads of the loop over the sectors behind the first. -/
def loopReads (f : IsoFile) (buff : Memory) (pos : ℕ) (iStartExtent : ℤ) (cbLen : ℕ) :
    List SectorRead :=
  if cbLen = 0 then []
  else
    let toRead := if 2048 < cbLen then 2048 else cbLen
    let r := f.sectorRead buff pos iStartExtent toRead
    r :: loopReads f r.buffer r.pos (wrap32 (iStartExtent + 1)) (cbLen - toRead)
termination_by cbLen
decreasing_by split <;> omega

/-- The number of the first sector, as `fsRead` computes it. -/
def startExtent (pread : ReadParams) : ℤ :=
  wrap32 (pread.iExtent + (pread.sffsi.sfiPosition / 2048).toNat)

/-- The number of bytes that `fsRead` takes from the first sector. -/
def firstCount (pread : ReadParams) : ℕ :=
  let offset := (pread.sffsi.sfiPosition % 2048).toNat
  let cbLen := (clipLength pread).toNat
  if cbLen < 2048 - offset then cbLen else 2048 - offset

/-- The first read of `fsRead`. -/
def firstRead (vol : VolData) (stack : Memory) (pos : ℕ) (pread : ReadParams) : SectorRead :=
  vol.isoFile.sectorRead stack pos (startExtent pread) 2048

/-- The further reads of `fsRead`. -/
def restReads (vol : VolData) (stack : Memory) (pos : ℕ) (pread : ReadParams) : List SectorRead :=
  let r := firstRead vol stack pos pread
  loopReads vol.isoFile r.buffer r.pos (wrap32 (startExtent pread + 1))
    ((clipLength pread).toNat - firstCount pread)

/-- The reads of `fsRead`. -/
def fileReads (vol : VolData) (stack : Memory) (pos : ℕ) (pread : ReadParams) : List SectorRead :=
  firstRead vol stack pos pread :: restReads vol stack pos pread

/-- The loop appends the bytes of its reads to what is in the data buffer. -/
theorem readLoop_pData (f : IsoFile) (pos : ℕ) (buff pData : Memory) (off toRead : ℕ)
    (iStartExtent : ℤ) (cbLen bytesRead : ℕ) :
    (readLoop f pos buff pData off toRead iStartExtent cbLen bytesRead).1 =
      pData.blit (off + toRead)
        ((loopReads f buff pos iStartExtent cbLen).flatMap fun r => r.buffer.slice 0 r.cb) := by
  induction cbLen using Nat.strongRecOn generalizing pos buff pData off toRead iStartExtent
    bytesRead with
  | ind cbLen ih =>
    rw [readLoop, loopReads]
    split
    · exact (Memory.blit_nil pData _).symm
    · next hne =>
      dsimp only
      generalize hnow : (if 2048 < cbLen then 2048 else cbLen) = now
      have hlt : cbLen - now < cbLen := by split at hnow <;> omega
      rw [ih _ hlt, List.flatMap_cons, ← Memory.blit_append, Memory.length_slice]
      rfl

/-- What `fsRead` delivers are the bytes of its reads. -/
theorem fsRead_pData_eq (vol : VolData) (stack : Memory) (pos : ℕ) (pData : Memory)
    (pread : ReadParams) :
    (fsRead vol stack pos pData pread).pData =
      pData.blit 0 ((firstRead vol stack pos pread).buffer.slice
          (pread.sffsi.sfiPosition % 2048).toNat (firstCount pread) ++
        (restReads vol stack pos pread).flatMap fun r => r.buffer.slice 0 r.cb) := by
  have hloop := readLoop_pData vol.isoFile (firstRead vol stack pos pread).pos
    (firstRead vol stack pos pread).buffer
    (pData.blit 0 ((firstRead vol stack pos pread).buffer.slice
      (pread.sffsi.sfiPosition % 2048).toNat (firstCount pread))) 0 (firstCount pread)
    (wrap32 (startExtent pread + 1)) ((clipLength pread).toNat - firstCount pread)
    (firstCount pread)
  have happend := Memory.blit_append pData 0 ((firstRead vol stack pos pread).buffer.slice
    (pread.sffsi.sfiPosition % 2048).toNat (firstCount pread))
  rw [Memory.length_slice] at happend
  rw [← happend]
  exact hloop

/-! ### Exact offsets -/

/-- The `j`-th read seeks to the offset of the sector `e + j`. -/
def ExactReads (e : ℤ) (reads : List SectorRead) : Prop :=
  ∀ (j : ℕ) r, reads[j]? = some r → r.offset = 2048 * (e + j)

/-- The offset of a sector is exact below 2 GiB. -/
theorem blockOffset_eq_iff {x e : ℤ} (h : x % 2 ^ 32 = e % 2 ^ 32) (he : 0 ≤ e) :
    IsoFile.blockOffset x = 2048 * e ↔ e < 2 ^ 20 := by
  rw [IsoFile.blockOffset, wrap32]
  omega

/-- A sequence of reads whose `j`-th is one of the sector `x + j` modulo `2 ^ 32`. -/
theorem exactReads_iff {f : IsoFile} {reads : List SectorRead} {e : ℤ} (he : 0 ≤ e)
    (hreads : ∀ (j : ℕ) r, reads[j]? = some r → ∃ buffer pos x cb,
      x % 2 ^ 32 = (e + j) % 2 ^ 32 ∧ r = f.sectorRead buffer pos x cb) :
    ExactReads e reads ↔ reads = [] ∨ e + reads.length ≤ 2 ^ 20 := by
  constructor
  · intro h
    apply or_iff_not_imp_left.mpr
    intro hne
    have hpos := List.length_pos_iff.mpr hne
    have hlast := List.getElem?_eq_getElem (l := reads) (i := reads.length - 1) (by omega)
    obtain ⟨buffer, pos, x, cb, hx, hr⟩ := hreads _ _ hlast
    have hoffset := h _ _ hlast
    rw [hr] at hoffset
    have := (blockOffset_eq_iff hx (by omega)).mp hoffset
    omega
  · rintro (rfl | hle) j r hr
    · cases hr
    · obtain ⟨hj, -⟩ := List.getElem?_eq_some_iff.mp hr
      obtain ⟨buffer, pos, x, cb, hx, rfl⟩ := hreads j r hr
      exact (blockOffset_eq_iff hx (by omega)).mpr (by omega)

/-! ### Other sectors -/

/-- No read takes bytes from another sector: the `j`-th gets none, or it is made at the sector
`e + j`. -/
def OwnSectors (f : IsoFile) (e : ℤ) (reads : List SectorRead) : Prop :=
  ∀ (j : ℕ) r, reads[j]? = some r → f.read r.start r.cb = [] ∨ (r.start : ℤ) = 2048 * (e + j)

/-- Where one of the `n` sectors from `e` on is looked for that lies past 2 GiB, the image has
nothing. -/
def NothingElsewhere (f : IsoFile) (pos : ℕ) (e : ℤ) (n : ℕ) : Prop :=
  ∀ j < n, 2 ^ 20 ≤ e + j → f.bytes.length ≤ seekPlace pos e j

theorem seekPlace_congr {pos : ℕ} {x y : ℤ} (h : x % 2 ^ 32 = y % 2 ^ 32) (j : ℕ) :
    seekPlace pos x j = seekPlace pos y j := by
  unfold seekPlace
  have hmod : x % 2 ^ 21 = y % 2 ^ 21 := by omega
  have hsum : (x + j) % 2 ^ 21 = (y + j) % 2 ^ 21 := by omega
  rw [hmod, hsum]

theorem read_eq_nil_iff {f : IsoFile} {pos n : ℕ} (hn : 0 < n) :
    f.read pos n = [] ↔ f.bytes.length ≤ pos := by
  rw [← List.length_eq_zero_iff, f.length_read]
  omega

/-- The read of one sector keeps to it, or the sector lies past 2 GiB and nothing is read. -/
theorem own_iff {f : IsoFile} {pos : ℕ} {e : ℤ} {j start cb : ℕ} (he : 0 ≤ e) (hcb : 0 < cb)
    (hstart : SamePlace f start (seekPlace pos e j)) :
    f.read start cb = [] ∨ (start : ℤ) = 2048 * (e + j) ↔
      (2 ^ 20 ≤ e + j → f.bytes.length ≤ seekPlace pos e j) := by
  have hsize := f.size_lt
  rw [read_eq_nil_iff hcb]
  unfold SamePlace at hstart
  constructor
  · intro hown hover
    omega
  · intro hnothing
    by_cases hover : 2 ^ 20 ≤ e + j
    · have := hnothing hover
      omega
    · have hplace : seekPlace pos e j = 2048 * (e + j).toNat := by
        rw [seekPlace, if_neg (by omega)]
        omega
      omega

/-- The reads of a directory keep to their sectors when nothing is found elsewhere. -/
theorem ownSectors_dirReads_iff (f : IsoFile) (stack : Memory) (pos : ℕ) (extent len : ℤ) :
    OwnSectors f (extent % 2 ^ 32) (dirReads f stack pos extent len) ↔
      NothingElsewhere f pos (extent % 2 ^ 32) (sectorCount len) := by
  have hcount : (dirReads f stack pos extent len).length = sectorCount len := length_sectorReads ..
  have hplace : ∀ {j : ℕ} {r : SectorRead}, (dirReads f stack pos extent len)[j]? = some r →
      0 < r.cb ∧ SamePlace f r.start (seekPlace pos (extent % 2 ^ 32) j) := by
    intro j r hr
    have hsame := start_sectorReads hr
    rw [seekPlace_congr (y := extent % 2 ^ 32) (by omega)] at hsame
    obtain ⟨-, buffer, pos', x, -, rfl⟩ := getElem?_sectorReads hr
    exact ⟨Nat.zero_lt_succ _, hsame⟩
  constructor
  · intro hown j hj
    have hr := List.getElem?_eq_getElem (hcount.symm ▸ hj)
    obtain ⟨hcb, hstart⟩ := hplace hr
    exact (own_iff (by omega) hcb hstart).mp (hown j _ hr)
  · intro hnothing j r hr
    obtain ⟨hcb, hstart⟩ := hplace hr
    have hj := (List.getElem?_eq_some_iff.mp hr).1
    exact (own_iff (by omega) hcb hstart).mpr (hnothing j (hcount ▸ hj))

/-- Exact seeks lead to their own sectors. -/
theorem ExactReads.ownSectors {f : IsoFile} {e : ℤ} {reads : List SectorRead} (he : 0 ≤ e)
    (hreads : ∀ (j : ℕ) r, reads[j]? = some r → ∃ buffer pos x cb,
      r = f.sectorRead buffer pos x cb)
    (h : ExactReads e reads) : OwnSectors f e reads := by
  intro j r hr
  have hoff := h j r hr
  obtain ⟨buffer, pos, x, cb, rfl⟩ := hreads j r hr
  have hstart : (f.sectorRead buffer pos x cb).start =
      IsoFile.lseek pos (f.sectorRead buffer pos x cb).offset := rfl
  right
  rw [hstart, hoff, IsoFile.lseek, if_neg (by omega)]
  omega

/-! ### Directories -/

/-- `getDirEntries` seeks to the sectors of the extent, or it yields nothing; and it reads no
other sector. -/
structure DirExact (vol : VolData) (stack : Memory) (pos : ℕ) (extent len : ℤ) : Prop where
  exact : ExactReads (extent % 2 ^ 32) (dirReads vol.isoFile stack pos extent len) ∨
    ∃ pos', getDirEntries vol stack pos extent len = some ([], pos')
  own : OwnSectors vol.isoFile (extent % 2 ^ 32) (dirReads vol.isoFile stack pos extent len)

/-- The `n` sectors from `e` on lie below 2 GiB, or the image has nothing where the others are
looked for and none of its own sectors of the extent starts with a record. -/
def DirAddressed (f : IsoFile) (pos : ℕ) (e : ℤ) (n : ℕ) : Prop :=
  e + n ≤ 2 ^ 20 ∨
    NothingElsewhere f pos e n ∧ ∀ j < n, ∀ b, f.byteAt (2048 * (e + j)) = some b → b = 0

theorem recordPlaces_eq_nil_iff {k : ℕ} {reads : List SectorRead} :
    recordPlaces k reads = [] ↔ ∀ r ∈ reads, r.buffer 0 = 0 := by
  induction reads generalizing k with
  | nil => exact ⟨nofun, fun _ => rfl⟩
  | cons r reads ih =>
    rw [recordPlaces, List.append_eq_nil_iff, List.map_eq_nil_iff, recordOffsets_eq_nil_iff, ih,
      List.forall_mem_cons]

/-- A listing is empty when no sector that the reads deliver starts with a record. -/
theorem getDirEntries_eq_nil_iff {vol : VolData} (hucs : vol.ucsLevel ≤ 3) (stack : Memory)
    (pos : ℕ) (extent len : ℤ) :
    (∃ pos', getDirEntries vol stack pos extent len = some ([], pos')) ↔
      ∀ r ∈ dirReads vol.isoFile stack pos extent len, r.buffer 0 = 0 := by
  obtain ⟨entries, pos', hlist, hall⟩ := getDirEntries_places hucs stack pos extent len
  rw [← recordPlaces_eq_nil_iff (k := 0), hlist]
  constructor
  · rintro ⟨pos'', h⟩
    obtain ⟨rfl, -⟩ := Prod.mk.inj (Option.some.inj h)
    exact List.forall₂_nil_left_iff.mp hall
  · intro hnil
    rw [hnil] at hall
    obtain rfl := List.forall₂_nil_right_iff.mp hall
    exact ⟨pos', rfl⟩

theorem lastByte_congr {f : IsoFile} {pos i : ℕ} {x y : ℤ} (h : x % 2 ^ 32 = y % 2 ^ 32) (j : ℕ) :
    lastByte f pos x i j = lastByte f pos y i j := by
  induction j with
  | zero => rw [lastByte, lastByte, seekPlace_congr h]
  | succ j ih => rw [lastByte, lastByte, seekPlace_congr h, ih]

/-- When nothing is found elsewhere, what is found is what the sector itself has. -/
theorem getElem?_seekPlace {f : IsoFile} {pos : ℕ} {e : ℤ} {j : ℕ} (he : 0 ≤ e)
    (h : 2 ^ 20 ≤ e + j → f.bytes.length ≤ seekPlace pos e j) :
    f.bytes[seekPlace pos e j]? = f.byteAt (2048 * (e + j)) := by
  have hsize := f.size_lt
  rw [IsoFile.byteAt, if_neg (by omega)]
  by_cases hover : 2 ^ 20 ≤ e + j
  · have hnothing := h hover
    rw [List.getElem?_eq_none hnothing, List.getElem?_eq_none (by omega)]
  · rw [seekPlace, if_neg (by omega)]
    congr 1
    omega

/-- When nothing is found elsewhere, the sectors read start with zero exactly when those of the
extent do. -/
theorem lastByte_eq_zero_iff {f : IsoFile} {pos : ℕ} {e : ℤ} {n : ℕ} (he : 0 ≤ e)
    (h : NothingElsewhere f pos e n) :
    (∀ j < n, lastByte f pos e 0 j = 0) ↔
      ∀ j < n, ∀ b, f.byteAt (2048 * (e + j)) = some b → b = 0 := by
  constructor
  · intro hzero j hj b hb
    have hlast := hzero j hj
    rw [← getElem?_seekPlace he (h j hj)] at hb
    cases j with
    | zero => rwa [lastByte, Nat.add_zero, hb, Option.getD_some] at hlast
    | succ j => rwa [lastByte, Nat.add_zero, hb, Option.getD_some] at hlast
  · intro hbytes j hj
    have hbyte := hbytes j hj
    rw [← getElem?_seekPlace he (h j hj)] at hbyte
    induction j with
    | zero =>
      rw [lastByte, Nat.add_zero]
      cases hget : f.bytes[seekPlace pos e 0]? with
      | none => rfl
      | some b => exact hbyte b hget
    | succ j ih =>
      rw [lastByte, Nat.add_zero]
      cases hget : f.bytes[seekPlace pos e (j + 1)]? with
      | none =>
        have hj' := Nat.lt_of_succ_lt hj
        apply ih hj'
        rw [getElem?_seekPlace he (h j hj')]
        exact hbytes j hj'
      | some b => exact hbyte b hget

/-- A listing that reads no other sector is empty when none of its own starts with a record. -/
theorem getDirEntries_eq_nil_iff_byteAt {vol : VolData} (hucs : vol.ucsLevel ≤ 3) (stack : Memory)
    {pos : ℕ} {extent len : ℤ}
    (h : NothingElsewhere vol.isoFile pos (extent % 2 ^ 32) (sectorCount len)) :
    (∃ pos', getDirEntries vol stack pos extent len = some ([], pos')) ↔
      ∀ j < sectorCount len, ∀ b,
        vol.isoFile.byteAt (2048 * (extent % 2 ^ 32 + j)) = some b → b = 0 := by
  have hcount : (dirReads vol.isoFile stack pos extent len).length = sectorCount len :=
    length_sectorReads ..
  rw [getDirEntries_eq_nil_iff hucs, ← lastByte_eq_zero_iff (by omega) h]
  constructor
  · intro hzero j hj
    have hr := List.getElem?_eq_getElem (hcount.symm ▸ hj)
    rw [lastByte_congr (y := extent) (by omega), ← buffer_dirReads hr (by decide)]
    exact hzero _ (List.getElem_mem _)
  · intro hzero r hr
    obtain ⟨j, hj, rfl⟩ := List.getElem_of_mem hr
    rw [buffer_dirReads (List.getElem?_eq_getElem hj) (by decide),
      lastByte_congr (y := extent % 2 ^ 32) (by omega)]
    exact hzero j (hcount ▸ hj)

theorem dirExact_iff {vol : VolData} (hucs : vol.ucsLevel ≤ 3) (stack : Memory) (pos : ℕ)
    (extent len : ℤ) :
    DirExact vol stack pos extent len ↔
      DirAddressed vol.isoFile pos (extent % 2 ^ 32) (sectorCount len) := by
  have hcount : (dirReads vol.isoFile stack pos extent len).length = sectorCount len :=
    length_sectorReads ..
  have hexact : ExactReads (extent % 2 ^ 32) (dirReads vol.isoFile stack pos extent len) ↔
      dirReads vol.isoFile stack pos extent len = [] ∨
        extent % 2 ^ 32 + sectorCount len ≤ 2 ^ 20 := by
    rw [exactReads_iff (f := vol.isoFile) (by omega), hcount]
    intro j r hr
    obtain ⟨-, buffer, pos', x, hx, hr⟩ := getElem?_sectorReads hr
    exact ⟨buffer, pos', x, 2048, by omega, hr⟩
  constructor
  · rintro ⟨hexact' | hempty, hown⟩
    · rcases hexact.mp hexact' with hnil | hle
      · rw [← hcount, hnil]
        exact Or.inr ⟨fun j hj => absurd hj (Nat.not_lt_zero j),
          fun j hj => absurd hj (Nat.not_lt_zero j)⟩
      · exact Or.inl hle
    · have hnothing := (ownSectors_dirReads_iff ..).mp hown
      exact Or.inr ⟨hnothing, (getDirEntries_eq_nil_iff_byteAt hucs stack hnothing).mp hempty⟩
  · rintro (hle | ⟨hnothing, hbytes⟩)
    · refine ⟨Or.inl (hexact.mpr (Or.inr hle)), (ownSectors_dirReads_iff ..).mpr ?_⟩
      intro j hj hover
      omega
    · exact ⟨Or.inr ((getDirEntries_eq_nil_iff_byteAt hucs stack hnothing).mpr hbytes),
        (ownSectors_dirReads_iff ..).mpr hnothing⟩

/-! ### Files -/

/-- The sector in which the position of a read lies. -/
def positionSector (pread : ReadParams) : ℤ :=
  pread.iExtent % 2 ^ 32 + (pread.sffsi.sfiPosition.toNat / 2048 : ℕ)

theorem positionSector_nonneg (pread : ReadParams) : 0 ≤ positionSector pread := by
  rw [positionSector]
  omega

/-- `fsRead` seeks to the sectors of the file from the one at the position on, or it fails or
yields nothing; and it reads no other sector. -/
structure FileExact (vol : VolData) (stack : Memory) (pos : ℕ) (pData : Memory)
    (pread : ReadParams) : Prop where
  exact : ExactReads (positionSector pread) (fileReads vol stack pos pread) ∨
    (fsRead vol stack pos pData pread).rc ≠ .NO_ERROR ∨
    (fsRead vol stack pos pData pread).pread.cbLen = 0 ∧
      (fsRead vol stack pos pData pread).pData = pData
  own : OwnSectors vol.isoFile (positionSector pread) (fileReads vol stack pos pread)

/-- The number of bytes that the length, the size and the position of a read leave to it. -/
def clippedCount (pread : ReadParams) : ℕ :=
  min (min pread.cbLen.toNat pread.sffsi.sfiSize.toNat)
    ((2 ^ 32 - pread.sffsi.sfiPosition.toNat + pread.sffsi.sfiSize.toNat) % 2 ^ 32)

/-- The sector of the last byte of a read lies below 2 GiB; or the read has no byte, and where the
sector at its position is looked for the image has nothing if that lies past 2 GiB. -/
def FileAddressed (f : IsoFile) (pos : ℕ) (pread : ReadParams) : Prop :=
  if clippedCount pread = 0 then NothingElsewhere f pos (positionSector pread) 1
  else
    pread.iExtent % 2 ^ 32 +
      ((pread.sffsi.sfiPosition.toNat + clippedCount pread - 1) / 2048 : ℕ) < 2 ^ 20

theorem getElem?_loopReads {f : IsoFile} {buff : Memory} {pos : ℕ} {iStartExtent : ℤ}
    {cbLen j : ℕ} {r : SectorRead} (h : (loopReads f buff pos iStartExtent cbLen)[j]? = some r) :
    ∃ buffer pos x cb, x % 2 ^ 32 = (iStartExtent + j) % 2 ^ 32 ∧
      r = f.sectorRead buffer pos x cb := by
  induction cbLen using Nat.strongRecOn generalizing buff pos iStartExtent j with
  | ind cbLen ih =>
    rw [loopReads] at h
    split at h
    · cases h
    · next hne =>
      dsimp only at h
      generalize hnow : (if 2048 < cbLen then 2048 else cbLen) = now at h
      have hlt : cbLen - now < cbLen := by split at hnow <;> omega
      cases j with
      | zero =>
        obtain rfl := Option.some.inj h
        exact ⟨buff, pos, iStartExtent, now, by omega, rfl⟩
      | succ j =>
        obtain ⟨buffer, pos', x, cb, hx, hr⟩ := ih _ hlt h
        refine ⟨buffer, pos', x, cb, ?_, hr⟩
        rw [wrap32] at hx
        push_cast
        omega

/-- The loop reads as many sectors as its bytes take up. -/
theorem length_loopReads (f : IsoFile) (buff : Memory) (pos : ℕ) (iStartExtent : ℤ) (cbLen : ℕ) :
    (loopReads f buff pos iStartExtent cbLen).length = (cbLen + 2047) / 2048 := by
  induction cbLen using Nat.strongRecOn generalizing buff pos iStartExtent with
  | ind cbLen ih =>
    rw [loopReads]
    split
    · next hzero =>
      subst hzero
      rfl
    · next hne =>
      dsimp only
      generalize hnow : (if 2048 < cbLen then 2048 else cbLen) = now
      have hlt : cbLen - now < cbLen := by split at hnow <;> omega
      rw [List.length_cons, ih _ hlt]
      split at hnow <;> omega

theorem startExtent_mod (pread : ReadParams) :
    startExtent pread % 2 ^ 32 = positionSector pread % 2 ^ 32 := by
  have hdiv : (pread.sffsi.sfiPosition / 2048).toNat = pread.sffsi.sfiPosition.toNat / 2048 :=
    UInt32.toNat_div _ _
  rw [startExtent, positionSector, wrap32, hdiv]
  omega

theorem getElem?_fileReads {vol : VolData} {stack : Memory} {pos : ℕ} {pread : ReadParams} {j : ℕ}
    {r : SectorRead} (h : (fileReads vol stack pos pread)[j]? = some r) :
    ∃ buffer pos x cb, x % 2 ^ 32 = (positionSector pread + j) % 2 ^ 32 ∧
      r = vol.isoFile.sectorRead buffer pos x cb := by
  have hstart := startExtent_mod pread
  cases j with
  | zero =>
    obtain rfl := Option.some.inj h
    exact ⟨stack, pos, startExtent pread, 2048, by omega, rfl⟩
  | succ j =>
    obtain ⟨buffer, pos', x, cb, hx, hr⟩ := getElem?_loopReads h
    refine ⟨buffer, pos', x, cb, ?_, hr⟩
    rw [wrap32] at hx
    push_cast
    omega

/-- A read that yields something reads the sectors in which its bytes lie. -/
theorem length_fileReads (vol : VolData) (stack : Memory) (pos : ℕ) {pread : ReadParams}
    (h : 0 < (clipLength pread).toNat) :
    pread.sffsi.sfiPosition.toNat / 2048 + (fileReads vol stack pos pread).length =
      (pread.sffsi.sfiPosition.toNat + (clipLength pread).toNat - 1) / 2048 + 1 := by
  have hmod : (pread.sffsi.sfiPosition % 2048).toNat = pread.sffsi.sfiPosition.toNat % 2048 :=
    UInt32.toNat_mod _ _
  have hrest : (restReads vol stack pos pread).length =
      ((clipLength pread).toNat - firstCount pread + 2047) / 2048 := length_loopReads ..
  rw [fileReads, List.length_cons, hrest]
  unfold firstCount
  rw [hmod]
  dsimp only
  split <;> omega

/-- A read that has no byte reads one sector and delivers nothing. -/
theorem fileReads_of_zero (vol : VolData) (stack : Memory) (pos : ℕ) (pData : Memory)
    {pread : ReadParams} (h : (clipLength pread).toNat = 0) :
    fileReads vol stack pos pread = [firstRead vol stack pos pread] ∧
      (fsRead vol stack pos pData pread).pData = pData := by
  have hfirst : firstCount pread = 0 := by
    rw [firstCount, h]
    split <;> omega
  have hrest : restReads vol stack pos pread = [] := by
    rw [restReads, h, loopReads, if_pos (Nat.zero_sub _)]
  refine ⟨by rw [fileReads, hrest], ?_⟩
  rw [fsRead_pData_eq, hrest, hfirst]
  exact Memory.blit_nil pData 0

/-- A read that has no byte is exact when the one sector that it reads is its own. -/
theorem fileExact_iff_of_zero (vol : VolData) (stack : Memory) (pos : ℕ) (pData : Memory)
    {pread : ReadParams} (h : (clipLength pread).toNat = 0) :
    FileExact vol stack pos pData pread ↔
      NothingElsewhere vol.isoFile pos (positionSector pread) 1 := by
  obtain ⟨hreads, hdata⟩ := fileReads_of_zero vol stack pos pData h
  have hstart : SamePlace vol.isoFile (firstRead vol stack pos pread).start
      (seekPlace pos (positionSector pread) 0) :=
    Or.inl (start_sectorRead _ stack pos 2048 (startExtent_mod pread))
  have hown := own_iff (positionSector_nonneg pread) (Nat.zero_lt_succ 2047) hstart
  constructor
  · intro hexact j hj
    obtain rfl : j = 0 := by omega
    exact hown.mp (hexact.own 0 _ (by rw [hreads]; rfl))
  · intro hnothing
    have hcbLen : (fsRead vol stack pos pData pread).pread.cbLen = 0 :=
      UInt16.toNat_inj.mp ((fsRead_cbLen vol stack pos pData pread).trans h)
    constructor
    · exact Or.inr (Or.inr ⟨hcbLen, hdata⟩)
    · intro j r hr
      rw [hreads] at hr
      cases j with
      | zero =>
        obtain rfl := Option.some.inj hr
        exact hown.mpr (hnothing 0 Nat.one_pos)
      | succ j => cases hr

/-- A read that has bytes is exact when the sector of its last byte lies below 2 GiB. -/
theorem fileExact_iff_of_pos (vol : VolData) (stack : Memory) (pos : ℕ) (pData : Memory)
    {pread : ReadParams} (h : 0 < (clipLength pread).toNat) :
    FileExact vol stack pos pData pread ↔
      pread.iExtent % 2 ^ 32 +
        ((pread.sffsi.sfiPosition.toNat + (clipLength pread).toNat - 1) / 2048 : ℕ) < 2 ^ 20 := by
  have hlength := length_fileReads vol stack pos h
  have hne : fileReads vol stack pos pread ≠ [] := List.cons_ne_nil _ _
  have hreads : ∀ (j : ℕ) r, (fileReads vol stack pos pread)[j]? = some r → ∃ buffer pos x cb,
      x % 2 ^ 32 = (positionSector pread + j) % 2 ^ 32 ∧
        r = vol.isoFile.sectorRead buffer pos x cb := fun _ _ => getElem?_fileReads
  have hexact : ExactReads (positionSector pread) (fileReads vol stack pos pread) ↔
      pread.iExtent % 2 ^ 32 +
        ((pread.sffsi.sfiPosition.toNat + (clipLength pread).toNat - 1) / 2048 : ℕ) < 2 ^ 20 := by
    rw [exactReads_iff (positionSector_nonneg pread) hreads, or_iff_right hne, positionSector]
    omega
  rw [← hexact]
  constructor
  · rintro ⟨hexact' | hrc | ⟨hcbLen, -⟩, -⟩
    · exact hexact'
    · exact absurd rfl hrc
    · have hcount := fsRead_cbLen vol stack pos pData pread
      rw [hcbLen, UInt16.toNat_zero] at hcount
      omega
  · intro hexact'
    refine ⟨Or.inl hexact', hexact'.ownSectors (positionSector_nonneg pread) ?_⟩
    intro j r hr
    obtain ⟨buffer, pos', x, cb, -, hr⟩ := hreads j r hr
    exact ⟨buffer, pos', x, cb, hr⟩

theorem fileExact_iff (vol : VolData) (stack : Memory) (pos : ℕ) (pData : Memory)
    (pread : ReadParams) :
    FileExact vol stack pos pData pread ↔ FileAddressed vol.isoFile pos pread := by
  have hclip : (clipLength pread).toNat = clippedCount pread := toNat_clipLength pread
  rw [FileAddressed, ← hclip]
  split
  · next hzero => exact fileExact_iff_of_zero vol stack pos pData hzero
  · next hne => exact fileExact_iff_of_pos vol stack pos pData (Nat.pos_of_ne_zero hne)

/-- The reads of a listing are made at the sectors of the extent, or it yields nothing and reads
nothing else, and so those of a file read: exactly when the sectors lie below 2 GiB, or nothing is
found where they are looked for. -/
theorem sector_addressing_exact_iff (vol : AttachedVolume) (stack : Memory) (pos : ℕ)
    (extent len : ℤ) (pData : Memory) (pread : ReadParams) :
    (DirExact vol.toVolData stack pos extent len ↔
      DirAddressed vol.isoFile pos (extent % 2 ^ 32) (sectorCount len)) ∧
    (FileExact vol.toVolData stack pos pData pread ↔ FileAddressed vol.isoFile pos pread) :=
  ⟨dirExact_iff vol.ucsLevel_le stack pos extent len, fileExact_iff _ stack pos pData pread⟩

/-! ### A sector past 4 GiB -/

/-- A read of one byte of a file whose extent is sector `2 ^ 21`. -/
def readPast4GiB : ReadParams where
  sffsi := { (default : Sffsi) with sfiSize := 1 }
  iExtent := 2 ^ 21
  cbLen := 1

/-- The offset of sector `2 ^ 21` wraps around to that of sector 0, which is listed and read. -/
theorem sector_past_4GiB_wraps :
    ¬ DirExact overlongVolume.toVolData Memory.zeros 0 (2 ^ 21) 2048 ∧
      ¬ FileExact overlongVolume.toVolData Memory.zeros 0 Memory.zeros readPast4GiB := by
  constructor
  · rintro ⟨-, hown⟩
    rcases hown 0 _ rfl with hnone | hplace
    · exact absurd hnone (by decide)
    · exact absurd hplace (by decide)
  · rintro ⟨-, hown⟩
    rcases hown 0 _ rfl with hnone | hplace
    · exact absurd hnone (by decide)
    · exact absurd hplace (by decide)

end Isofs
