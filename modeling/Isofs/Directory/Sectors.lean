import Mathlib.Data.List.Forall2
import Isofs.Directory.Entries

/-!
# The sectors of a directory extent

The reads that `getDirEntries` makes, and the places in the sector buffer at which it finds
its records, for an image with any contents.
-/

namespace Isofs

open TwosComplement

/-- The number of turns of the outer loop. -/
def sectorCount (len : ℤ) : ℕ := ((len + 2047) / 2048).toNat

/-- The reads of `n` sectors from `extent` on, over one buffer. -/
def sectorReads (f : IsoFile) (buffer : Memory) (pos : ℕ) (extent : ℤ) : ℕ → List SectorRead
  | 0 => []
  | n + 1 =>
    let r := f.sectorRead buffer pos extent 2048
    r :: sectorReads f r.buffer r.pos (wrap32 (extent + 1)) n

/-- The offsets of the records that the inner loop finds from `i` on: it follows the length
bytes. -/
def recordOffsets (buffer : Memory) (i : ℕ) : List ℕ :=
  if _hlen : buffer i = 0 then []
  else if _hi : 2048 - sizeofDirectoryRecord < i + (buffer i).toNat then [i]
  else i :: recordOffsets buffer (i + (buffer i).toNat)
termination_by 2048 - i
decreasing_by
  have hpos := UInt8.toNat_pos_of_ne_zero _hlen
  rw [sizeofDirectoryRecord] at _hi
  omega

/-- Where a record was found: the number of its sector in the extent, the read of that sector and
the offset in the buffer. -/
structure RecordPlace where
  sector : ℕ
  read : SectorRead
  offset : ℕ

/-- The length byte of the record. -/
def RecordPlace.length (p : RecordPlace) : ℕ := (p.read.buffer p.offset).toNat

/-- The records found in some sectors, of which the first has the number `k`. -/
def recordPlaces (k : ℕ) : List SectorRead → List RecordPlace
  | [] => []
  | r :: rs => (recordOffsets r.buffer 0).map (⟨k, r, ·⟩) ++ recordPlaces (k + 1) rs

/-- The entry is the one decoded at a place. -/
def DecodedAt (vol : VolData) (e : IsoDirEntry) (p : RecordPlace) : Prop :=
  decodeRecord vol p.read.buffer p.read.extent p.offset = some e

/-- The reads of `getDirEntries`. -/
def dirReads (f : IsoFile) (stack : Memory) (pos : ℕ) (extent len : ℤ) : List SectorRead :=
  sectorReads f (stack.clear 2048) pos extent (sectorCount len)

/-- Where in the image the `j`-th sector of an extent is looked for, the file position being
`pos`. A seek takes the sector number modulo `2 ^ 21` and fails in the upper half of that range;
when the first seeks fail, what follows `pos` is read instead. -/
def seekPlace (pos : ℕ) (extent : ℤ) (j : ℕ) : ℕ :=
  if 2 ^ 20 ≤ extent % 2 ^ 21 ∧ extent % 2 ^ 21 + j < 2 ^ 21 then pos + 2048 * j
  else 2048 * ((extent + j) % 2 ^ 21).toNat

/-- The last byte that the image has for the offset `i` where the sectors up to the `j`-th are
looked for, zero if there is none. -/
def lastByte (f : IsoFile) (pos : ℕ) (extent : ℤ) (i : ℕ) : ℕ → UInt8
  | 0 => (f.bytes[seekPlace pos extent 0 + i]?).getD 0
  | j + 1 => (f.bytes[seekPlace pos extent (j + 1) + i]?).getD (lastByte f pos extent i j)

/-! ### The listing -/

theorem sectorCount_of_nonpos {len : ℤ} (h : len ≤ 0) : sectorCount len = 0 := by
  rw [sectorCount]
  omega

theorem sectorCount_of_pos {len : ℤ} (h : 0 < len) :
    sectorCount len = sectorCount (len - 2048) + 1 := by
  unfold sectorCount
  omega

theorem recordOffsets_of_zero {buffer : Memory} {i : ℕ} (h : buffer i = 0) :
    recordOffsets buffer i = [] := by
  rw [recordOffsets, dif_pos h]

theorem recordOffsets_eq_nil_iff {buffer : Memory} {i : ℕ} :
    recordOffsets buffer i = [] ↔ buffer i = 0 := by
  refine ⟨fun h => ?_, recordOffsets_of_zero⟩
  by_contra hne
  rw [recordOffsets, dif_neg hne] at h
  split at h <;> cases h

theorem decodeRecord_isSome {vol : VolData} (hucs : vol.ucsLevel ≤ 3) (buffer : Memory)
    (extent : ℤ) (i : ℕ) : ∃ e, decodeRecord vol buffer extent i = some e := by
  obtain ⟨chars, hchars⟩ := nameBuf_isSome hucs buffer i
  rw [decodeRecord]
  split
  · next hnone => rw [hchars] at hnone; cases hnone
  · exact ⟨_, rfl⟩

/-- The inner loop decodes the records that it finds. -/
theorem sectorEntries_places {vol : VolData} (hucs : vol.ucsLevel ≤ 3) (buffer : Memory)
    (extent : ℤ) (i : ℕ) : ∃ entries, sectorEntries vol buffer extent i = some entries ∧
      List.Forall₂ (fun e i => decodeRecord vol buffer extent i = some e) entries
        (recordOffsets buffer i) := by
  induction i using recordOffsets.induct buffer with
  | case1 i hlen =>
    refine ⟨[], by rw [sectorEntries, dif_pos hlen], ?_⟩
    rw [recordOffsets_of_zero hlen]
    exact List.Forall₂.nil
  | case2 i hlen hi =>
    obtain ⟨e, he⟩ := decodeRecord_isSome hucs buffer extent i
    refine ⟨[e], by rw [sectorEntries, dif_neg hlen, he]; simp only [dif_pos hi], ?_⟩
    rw [recordOffsets, dif_neg hlen, dif_pos hi]
    exact List.Forall₂.cons he List.Forall₂.nil
  | case3 i hlen hi ih =>
    obtain ⟨e, he⟩ := decodeRecord_isSome hucs buffer extent i
    obtain ⟨entries, hentries, hall⟩ := ih
    refine ⟨e :: entries, ?_, ?_⟩
    · rw [sectorEntries, dif_neg hlen, he]
      simp only [dif_neg hi, hentries, Option.map_some]
    · rw [recordOffsets, dif_neg hlen, dif_neg hi]
      exact List.Forall₂.cons he hall

theorem dirSectors_places {vol : VolData} (hucs : vol.ucsLevel ≤ 3) (n k : ℕ) (buffer : Memory)
    (pos : ℕ) (extent len : ℤ) (hn : sectorCount len = n) :
    ∃ entries pos', dirSectors vol buffer pos extent len = some (entries, pos') ∧
      List.Forall₂ (DecodedAt vol) entries
        (recordPlaces k (sectorReads vol.isoFile buffer pos extent n)) := by
  induction n generalizing k buffer pos extent len with
  | zero =>
    have hlen : len ≤ 0 := by
      by_contra hpos
      rw [sectorCount_of_pos (by omega)] at hn
      cases hn
    exact ⟨[], pos, dirSectors_of_nonpos _ _ _ _ hlen, List.Forall₂.nil⟩
  | succ n ih =>
    have hlen : 0 < len := by
      by_contra hpos
      rw [sectorCount_of_nonpos (by omega)] at hn
      cases hn
    rw [sectorCount_of_pos hlen] at hn
    obtain ⟨r, hr⟩ : ∃ r, r = vol.isoFile.sectorRead buffer pos extent 2048 := ⟨_, rfl⟩
    have hstep := @dirSectors_of_pos vol buffer pos extent len hlen (r.buffer, r.pos) (hr ▸ rfl)
    obtain ⟨entries, hentries, hall⟩ := sectorEntries_places hucs r.buffer extent 0
    -- the next sector is read into the same buffer
    obtain ⟨rest, pos', hrest, hall'⟩ := ih (k + 1) r.buffer r.pos (wrap32 (extent + 1))
      (len - 2048) (by omega)
    refine ⟨entries ++ rest, pos', ?_, ?_⟩
    · rw [hstep]
      simp only [hentries, hrest, Option.map_some]
    · rw [sectorReads, ← hr]
      refine List.rel_append ?_ hall'
      rw [List.forall₂_map_right_iff, hr]
      rw [hr] at hall
      exact hall

/-- A listing consists of the entries decoded at the places where its reads find records. -/
theorem getDirEntries_places {vol : VolData} (hucs : vol.ucsLevel ≤ 3) (stack : Memory) (pos : ℕ)
    (extent len : ℤ) :
    ∃ entries pos', getDirEntries vol stack pos extent len = some (entries, pos') ∧
      List.Forall₂ (DecodedAt vol) entries
        (recordPlaces 0 (dirReads vol.isoFile stack pos extent len)) :=
  dirSectors_places hucs _ 0 _ pos extent len rfl

/-! ### The reads -/

theorem blockOffset_congr {x y : ℤ} (h : x % 2 ^ 32 = y % 2 ^ 32) :
    IsoFile.blockOffset x = IsoFile.blockOffset y := by
  unfold IsoFile.blockOffset wrap32
  omega

/-- The `j`-th read is one of the sector `extent + j`. -/
theorem getElem?_sectorReads {f : IsoFile} {buffer : Memory} {pos : ℕ} {extent : ℤ} {n j : ℕ}
    {r : SectorRead} (h : (sectorReads f buffer pos extent n)[j]? = some r) :
    j < n ∧ ∃ buffer pos x, x % 2 ^ 32 = (extent + j) % 2 ^ 32 ∧
      r = f.sectorRead buffer pos x 2048 := by
  induction n generalizing buffer pos extent j with
  | zero => cases h
  | succ n ih =>
    cases j with
    | zero =>
      obtain rfl := Option.some.inj h
      exact ⟨Nat.zero_lt_succ n, buffer, pos, extent, by omega, rfl⟩
    | succ j =>
      obtain ⟨hj, buffer', pos', x, hx, hr⟩ := ih h
      refine ⟨Nat.succ_lt_succ hj, buffer', pos', x, ?_, hr⟩
      rw [wrap32] at hx
      push_cast
      omega

theorem sectorReads_zero {f : IsoFile} {buffer : Memory} {pos : ℕ} {extent : ℤ} {n : ℕ}
    {r : SectorRead} (h : (sectorReads f buffer pos extent n)[0]? = some r) :
    r = f.sectorRead buffer pos extent 2048 := by
  cases n with
  | zero => cases h
  | succ n => exact (Option.some.inj h).symm

/-- A further sector is read over the buffer and from the file position of the read before. -/
theorem sectorReads_succ {f : IsoFile} {buffer : Memory} {pos : ℕ} {extent : ℤ} {n j : ℕ}
    {r : SectorRead} (h : (sectorReads f buffer pos extent n)[j + 1]? = some r) :
    ∃ r₀ x, (sectorReads f buffer pos extent n)[j]? = some r₀ ∧
      x % 2 ^ 32 = (extent + (j + 1 : ℕ)) % 2 ^ 32 ∧ r = f.sectorRead r₀.buffer r₀.pos x 2048 := by
  induction n generalizing buffer pos extent j with
  | zero => cases h
  | succ n ih =>
    cases j with
    | zero =>
      refine ⟨_, wrap32 (extent + 1), rfl, ?_, sectorReads_zero h⟩
      rw [wrap32]
      omega
    | succ j =>
      obtain ⟨r₀, x, hr₀, hx, hr⟩ := ih h
      refine ⟨r₀, x, hr₀, ?_, hr⟩
      rw [wrap32] at hx
      push_cast at hx ⊢
      omega

theorem length_sectorReads (f : IsoFile) (buffer : Memory) (pos : ℕ) (extent : ℤ) (n : ℕ) :
    (sectorReads f buffer pos extent n).length = n := by
  induction n generalizing buffer pos extent with
  | zero => rfl
  | succ n ih => exact congrArg Nat.succ (ih _ _ _)

/-! ### Where the reads lead -/

theorem start_sectorRead_of_lt (f : IsoFile) (buffer : Memory) (pos cb : ℕ) {x : ℤ}
    (h : x % 2 ^ 21 < 2 ^ 20) :
    (f.sectorRead buffer pos x cb).start = 2048 * (x % 2 ^ 21).toNat := by
  show IsoFile.lseek pos (wrap32 (x * 2048)) = _
  rw [wrap32_mul_2048_of_lt h, IsoFile.lseek, if_neg (by omega)]
  omega

theorem start_sectorRead_of_le (f : IsoFile) (buffer : Memory) (pos cb : ℕ) {x : ℤ}
    (h : 2 ^ 20 ≤ x % 2 ^ 21) : (f.sectorRead buffer pos x cb).start = pos :=
  IsoFile.lseek_of_neg pos (wrap32_mul_2048_neg h)

/-- A seek that is made first leads to the place of its sector. -/
theorem start_sectorRead (f : IsoFile) (buffer : Memory) (pos cb : ℕ) {x extent : ℤ}
    (hx : x % 2 ^ 32 = extent % 2 ^ 32) :
    (f.sectorRead buffer pos x cb).start = seekPlace pos extent 0 := by
  rw [seekPlace]
  by_cases hlt : x % 2 ^ 21 < 2 ^ 20
  · rw [start_sectorRead_of_lt f buffer pos cb hlt, if_neg (by omega)]
    omega
  · rw [start_sectorRead_of_le f buffer pos cb (by omega), if_pos (by omega)]
    rfl

/-- Two file positions from which the same is read: they are equal, or nothing is there. -/
def SamePlace (f : IsoFile) (p q : ℕ) : Prop :=
  p = q ∨ f.bytes.length ≤ p ∧ f.bytes.length ≤ q

theorem SamePlace.getElem? {f : IsoFile} {p q : ℕ} (h : SamePlace f p q) (i : ℕ) :
    f.bytes[p + i]? = f.bytes[q + i]? := by
  rcases h with rfl | ⟨hp, hq⟩
  · rfl
  · rw [List.getElem?_eq_none (by omega), List.getElem?_eq_none (by omega)]

/-- The `j`-th read takes what stands at the place of its sector. -/
theorem start_sectorReads {f : IsoFile} {buffer : Memory} {pos : ℕ} {extent : ℤ} {n j : ℕ}
    {r : SectorRead} (h : (sectorReads f buffer pos extent n)[j]? = some r) :
    SamePlace f r.start (seekPlace pos extent j) := by
  have hsize := f.size_lt
  induction j generalizing r with
  | zero =>
    rw [sectorReads_zero h]
    exact Or.inl (start_sectorRead f buffer pos 2048 rfl)
  | succ j ih =>
    obtain ⟨r₀, x, hr₀, hx, rfl⟩ := sectorReads_succ h
    have hprev := ih hr₀
    obtain ⟨-, buffer', pos', x', hx', hr₀⟩ := getElem?_sectorReads hr₀
    have hpos : r₀.pos = r₀.start + min 2048 (f.bytes.length - r₀.start) := by
      rw [hr₀]
      exact f.pos_sectorRead buffer' pos' x' 2048
    by_cases hlt : x % 2 ^ 21 < 2 ^ 20
    · rw [start_sectorRead_of_lt f _ _ _ hlt, SamePlace, seekPlace, if_neg (by omega)]
      omega
    · -- the seek fails: a read that went before stopped at this place, or at the end of the image
      rw [start_sectorRead_of_le f _ _ _ (by omega)]
      unfold SamePlace seekPlace at *
      split at hprev <;> split <;> omega

/-- What the sector buffer holds after the `j`-th read. -/
theorem buffer_dirReads {f : IsoFile} {stack : Memory} {pos : ℕ} {extent len : ℤ} {j : ℕ}
    {r : SectorRead} (h : (dirReads f stack pos extent len)[j]? = some r) {i : ℕ} (hi : i < 2048) :
    r.buffer i = lastByte f pos extent i j := by
  have hplace := start_sectorReads h
  induction j generalizing r with
  | zero =>
    obtain rfl := sectorReads_zero h
    rw [f.buffer_sectorRead _ _ _ hi, hplace.getElem? i, lastByte, Memory.clear, if_pos hi]
  | succ j ih =>
    obtain ⟨r₀, x, hr₀, -, rfl⟩ := sectorReads_succ h
    rw [f.buffer_sectorRead _ _ _ hi, hplace.getElem? i, lastByte,
      ih hr₀ (start_sectorReads hr₀)]

/-- A record is found in the read of its sector. -/
theorem mem_recordPlaces_iff {k : ℕ} {reads : List SectorRead} {p : RecordPlace} :
    p ∈ recordPlaces k reads ↔ k ≤ p.sector ∧ reads[p.sector - k]? = some p.read ∧
      p.offset ∈ recordOffsets p.read.buffer 0 := by
  induction reads generalizing k with
  | nil => exact ⟨nofun, fun h => nomatch h.2.1⟩
  | cons r reads ih =>
    rw [recordPlaces, List.mem_append, List.mem_map, ih]
    constructor
    · rintro (⟨i, hi, rfl⟩ | ⟨hk, hread, hoff⟩)
      · exact ⟨Nat.le_refl k, by rw [Nat.sub_self]; rfl, hi⟩
      · have hsub : p.sector - k = p.sector - (k + 1) + 1 := by omega
        exact ⟨by omega, by rw [hsub]; exact hread, hoff⟩
    · rintro ⟨hk, hread, hoff⟩
      obtain ⟨sector, read, offset⟩ := p
      dsimp only at hk hread hoff ⊢
      rcases Nat.eq_or_lt_of_le hk with rfl | hlt
      · rw [Nat.sub_self] at hread
        obtain rfl := Option.some.inj hread
        exact Or.inl ⟨offset, hoff, rfl⟩
      · have hsub : sector - k = sector - (k + 1) + 1 := by omega
        rw [hsub] at hread
        exact Or.inr ⟨hlt, hread, hoff⟩

end Isofs
