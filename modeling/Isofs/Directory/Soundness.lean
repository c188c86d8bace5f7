import Isofs.Directory.Sectors

/-!
# Decoding a hostile directory

When the entries of a listing were all decoded from records that the image really has, for an
image with any contents.
-/

namespace Isofs

/-- The record found at a place covers its header and its name, ends in its sector, and is in the
image: the buffer holds its bytes as the sector of the extent has them. -/
structure Sound (f : IsoFile) (extent : ℤ) (p : RecordPlace) : Prop where
  covers : 33 + nameLen p.read.buffer p.offset ≤ p.length
  inside : p.offset + p.length ≤ 2048
  present : ∀ j < p.length, f.byteAt (2048 * (extent + p.sector) + (p.offset + j : ℕ)) =
    some (p.read.buffer (p.offset + j))

/-- Each entry of the listing was decoded from a record that the image has. -/
def SoundListing (vol : VolData) (stack : Memory) (pos : ℕ) (extent len : ℤ) : Prop :=
  ∃ entries pos', getDirEntries vol stack pos extent len = some (entries, pos') ∧
    List.Forall₂ (fun e p => DecodedAt vol e p ∧ Sound vol.isoFile extent p) entries
      (recordPlaces 0 (dirReads vol.isoFile stack pos extent len))

/-- The bytes of one directory record: the first gives their number, and they have room for the
header and the name. -/
structure IsRecord (bytes : List UInt8) : Prop where
  length : (bytes.getD 0 0).toNat = bytes.length
  covers : 33 + (bytes.getD 32 0).toNat ≤ bytes.length

/-- What the image has of a sector from the offset `i` on is a run of records. It ends at a zero
byte, past the last offset at which a record is looked for, or where the image has no more of the
sector and the byte that is `left` there is zero. -/
def RecordRun (left : ℕ → UInt8) (i : ℕ) (bytes : List UInt8) : Prop :=
  ∃ (records : List (List UInt8)) (rest : List UInt8),
    (∀ r ∈ records, IsRecord r) ∧ bytes = records.flatten ++ rest ∧
    (2048 - sizeofDirectoryRecord < i + records.flatten.length ∨ rest.head? = some 0 ∨
      rest = [] ∧ left (i + records.flatten.length) = 0)

/-- What the image has of each of the `n` sectors of an extent is a run of records. What is left
behind a sector that is cut off comes from the places of the sectors up to it. -/
def CleanExtent (f : IsoFile) (pos : ℕ) (extent : ℤ) (n : ℕ) : Prop :=
  ∀ j < n, RecordRun (lastByte f pos extent · j) 0 (f.sector (extent + j))

/-! ### Clean sectors -/

/-- The record at the offset `i` of the buffer covers its header and its name and ends in the
`present` first bytes. -/
def CleanRecord (buffer : Memory) (present i : ℕ) : Prop :=
  33 + nameLen buffer i ≤ (buffer i).toNat ∧ i + (buffer i).toNat ≤ present

/-- The buffer holds what the image has of a sector, and behind it what is left. -/
structure HoldsSector (buffer : Memory) (sector : List UInt8) (left : ℕ → UInt8) : Prop where
  length_le : sector.length ≤ 2048
  inside : ∀ {i : ℕ} {b : UInt8}, sector[i]? = some b → buffer i = b
  behind : ∀ {i : ℕ}, i < 2048 → sector.length ≤ i → buffer i = left i

namespace HoldsSector

variable {buffer : Memory} {sector : List UInt8} {left : ℕ → UInt8}

theorem eq_getD (h : HoldsSector buffer sector left) {i k : ℕ} (hk : i + k < sector.length) :
    ((sector.drop i).getD k 0) = buffer (i + k) := by
  rw [List.getD_eq_getElem?_getD, List.getElem?_drop, List.getElem?_eq_getElem hk,
    Option.getD_some]
  exact (h.inside (List.getElem?_eq_getElem hk)).symm

/-- A clean record in the buffer is one in the image. -/
theorem isRecord (h : HoldsSector buffer sector left) {i : ℕ}
    (hclean : CleanRecord buffer sector.length i) :
    IsRecord ((sector.drop i).take (buffer i).toNat) := by
  obtain ⟨hcovers, hend⟩ := hclean
  have hlen : ((sector.drop i).take (buffer i).toNat).length = (buffer i).toNat := by
    rw [List.length_take, List.length_drop]
    omega
  have htake : ∀ k < (buffer i).toNat,
      ((sector.drop i).take (buffer i).toNat).getD k 0 = buffer (i + k) := by
    intro k hk
    rw [List.getD_eq_getElem?_getD, List.getElem?_take_of_lt hk, ← List.getD_eq_getElem?_getD]
    exact h.eq_getD (by omega)
  constructor
  · rw [htake 0 (by omega), hlen]
    rfl
  · rw [htake 32 (by omega), hlen]
    exact hcovers

/-- A record in the image is a clean one in the buffer. -/
theorem cleanRecord (h : HoldsSector buffer sector left) {i : ℕ} {r rest : List UInt8}
    (hrecord : IsRecord r) (hdrop : sector.drop i = r ++ rest) :
    (buffer i).toNat = r.length ∧ CleanRecord buffer sector.length i := by
  have hroom := hrecord.covers
  have hlen := congrArg List.length hdrop
  rw [List.length_drop, List.length_append] at hlen
  have hget : ∀ k < r.length, r.getD k 0 = buffer (i + k) := by
    intro k hk
    rw [← h.eq_getD (by omega), hdrop, List.getD_eq_getElem?_getD,
      List.getD_eq_getElem?_getD, List.getElem?_append_left hk]
  have hfirst : (buffer i).toNat = r.length := by
    rw [← hrecord.length, hget 0 (by omega)]
    rfl
  refine ⟨hfirst, ?_, by omega⟩
  rw [hget 32 (by omega)] at hroom
  rw [hfirst]
  exact hroom

/-- A sector in which the loop of `getDirEntries` comes across clean records only is a run of
records. -/
theorem recordRun_of_clean (h : HoldsSector buffer sector left) {i : ℕ} (hin : i ≤ sector.length)
    (hstart : i ≤ 2048 - sizeofDirectoryRecord)
    (hall : ∀ o ∈ recordOffsets buffer i, CleanRecord buffer sector.length o) :
    RecordRun left i (sector.drop i) := by
  have hbound : 2048 - sizeofDirectoryRecord < 2048 := by decide
  induction i using recordOffsets.induct buffer with
  -- the induction is on the records that the loop comes across
  | case1 i hlen =>
    refine ⟨[], sector.drop i, List.forall_mem_nil _, rfl, Or.inr ?_⟩
    rcases Nat.lt_or_ge i sector.length with hlt | hge
    · left
      have hget := List.getElem?_eq_getElem hlt
      rw [List.head?_drop, hget, ← h.inside hget, hlen]
    · exact Or.inr ⟨List.drop_eq_nil_of_le hge, (h.behind (by omega) hge).symm.trans hlen⟩
  | case2 i hlen hi =>
    rw [recordOffsets, dif_neg hlen, dif_pos hi] at hall
    have hclean := hall i List.mem_cons_self
    refine ⟨[_], (sector.drop i).drop (buffer i).toNat,
      List.forall_mem_singleton.mpr (h.isRecord hclean), ?_, Or.inl ?_⟩
    · rw [List.flatten_singleton]
      exact (List.take_append_drop _ _).symm
    · have hend := hclean.2
      rw [List.flatten_singleton, List.length_take, List.length_drop]
      omega
  | case3 i hlen hi ih =>
    rw [recordOffsets, dif_neg hlen, dif_neg hi] at hall
    have hclean := hall i List.mem_cons_self
    have hend := hclean.2
    have htake : ((sector.drop i).take (buffer i).toNat).length = (buffer i).toNat := by
      rw [List.length_take, List.length_drop]
      omega
    obtain ⟨records, rest, hrecords, hrest, hstop⟩ := ih hend (Nat.le_of_not_lt hi)
      fun o ho => hall o (List.mem_cons_of_mem i ho)
    refine ⟨_ :: records, rest, List.forall_mem_cons.mpr ⟨h.isRecord hclean, hrecords⟩, ?_, ?_⟩
    · rw [List.flatten_cons, List.append_assoc, ← hrest, ← List.drop_drop]
      exact (List.take_append_drop _ _).symm
    · rw [List.flatten_cons, List.length_append, htake, ← Nat.add_assoc]
      exact hstop

/-- In a run of records the loop comes across these only. -/
theorem clean_of_recordRun (h : HoldsSector buffer sector left) {i : ℕ} (hin : i ≤ sector.length)
    (hstart : i ≤ 2048 - sizeofDirectoryRecord) (hrun : RecordRun left i (sector.drop i)) :
    ∀ o ∈ recordOffsets buffer i, CleanRecord buffer sector.length o := by
  have hbound : 2048 - sizeofDirectoryRecord < 2048 := by decide
  obtain ⟨records, rest, hrecords, hrest, hstop⟩ := hrun
  induction records generalizing i with
  | nil =>
    have hzero : buffer i = 0 := by
      rcases hstop with hlast | hhead | ⟨rfl, hleft⟩
      · exact absurd hlast (by simpa using hstart)
      · rw [List.flatten_nil, List.nil_append] at hrest
        rw [← hrest, List.head?_drop] at hhead
        exact h.inside hhead
      · have hge := List.drop_eq_nil_iff.mp hrest
        exact (h.behind (by omega) hge).trans hleft
    rw [recordOffsets_of_zero hzero]
    exact List.forall_mem_nil _
  | cons r records ih =>
    obtain ⟨hrecord, hrecords⟩ := List.forall_mem_cons.mp hrecords
    rw [List.flatten_cons, List.append_assoc] at hrest
    rw [List.flatten_cons, List.length_append, ← Nat.add_assoc] at hstop
    obtain ⟨hlen, hclean⟩ := h.cleanRecord hrecord hrest
    have hend := hclean.2
    have hne : buffer i ≠ 0 := by
      intro hzero
      have hroom := hrecord.covers
      rw [hzero, UInt8.toNat_zero] at hlen
      omega
    rw [recordOffsets, dif_neg hne]
    split
    · exact List.forall_mem_singleton.mpr hclean
    · next hnext =>
      rw [hlen] at hend hnext ⊢
      refine List.forall_mem_cons.mpr ⟨hclean, ih hend (Nat.le_of_not_lt hnext) hrecords ?_ hstop⟩
      rw [← List.drop_drop, hrest, List.drop_left]

end HoldsSector

/-- What the sector buffer holds after the read of a sector of the extent. -/
theorem holdsSector_of_dirReads {f : IsoFile} {stack : Memory} {pos : ℕ} {extent len : ℤ} {j : ℕ}
    {r : SectorRead} (h : (dirReads f stack pos extent len)[j]? = some r) :
    HoldsSector r.buffer (f.sector (extent + j)) (lastByte f pos extent · j) where
  length_le := f.length_sector_le _
  inside {i b} hb := by
    have hi : i < 2048 :=
      Nat.lt_of_lt_of_le (List.getElem?_eq_some_iff.mp hb).1 (f.length_sector_le _)
    obtain ⟨-, buffer, pos', x, hx, rfl⟩ := getElem?_sectorReads h
    exact IsoFile.sectorRead_of_byteAt buffer pos' (blockOffset_congr hx) hi hi
      ((f.byteAt_block _ hi).trans hb)
  behind hi _ := buffer_dirReads h hi

theorem ne_zero_of_mem_recordOffsets {buffer : Memory} {i o : ℕ}
    (h : o ∈ recordOffsets buffer i) : buffer o ≠ 0 := by
  induction i using recordOffsets.induct buffer with
  | case1 i hlen =>
    rw [recordOffsets_of_zero hlen] at h
    cases h
  | case2 i hlen hi =>
    rw [recordOffsets, dif_neg hlen, dif_pos hi] at h
    obtain rfl := List.mem_singleton.mp h
    exact hlen
  | case3 i hlen hi ih =>
    rw [recordOffsets, dif_neg hlen, dif_neg hi] at h
    rcases List.mem_cons.mp h with rfl | h
    · exact hlen
    · exact ih h

/-! ### Sound records -/

/-- A record is sound when it is clean in the sector that was read for it. -/
theorem sound_iff_cleanRecord {f : IsoFile} {stack : Memory} {pos : ℕ} {extent len : ℤ}
    {p : RecordPlace} (hread : (dirReads f stack pos extent len)[p.sector]? = some p.read)
    (hoff : p.offset ∈ recordOffsets p.read.buffer 0) :
    Sound f extent p ↔
      CleanRecord p.read.buffer (f.sector (extent + p.sector)).length p.offset := by
  have hlength : 0 < p.length := UInt8.toNat_pos_of_ne_zero (ne_zero_of_mem_recordOffsets hoff)
  have hholds := holdsSector_of_dirReads hread
  have hle := hholds.length_le
  constructor
  · rintro ⟨hcovers, hinside, hpresent⟩
    refine ⟨hcovers, ?_⟩
    have hlast := hpresent (p.length - 1) (by omega)
    rw [f.byteAt_block _ (by omega)] at hlast
    have hlt := (List.getElem?_eq_some_iff.mp hlast).1
    show p.offset + p.length ≤ _
    omega
  · rintro ⟨hcovers, hpresent⟩
    change p.offset + p.length ≤ _ at hpresent
    constructor
    · exact hcovers
    · exact Nat.le_trans hpresent hle
    · intro j hj
      have hin : p.offset + j < (f.sector (extent + p.sector)).length := by omega
      rw [f.byteAt_block _ (by omega), List.getElem?_eq_getElem hin]
      exact congrArg some (hholds.inside (List.getElem?_eq_getElem hin)).symm

theorem SoundListing.sound {vol : VolData} {stack : Memory} {pos : ℕ} {extent len : ℤ}
    (h : SoundListing vol stack pos extent len) {p : RecordPlace}
    (hp : p ∈ recordPlaces 0 (dirReads vol.isoFile stack pos extent len)) :
    Sound vol.isoFile extent p := by
  obtain ⟨entries, pos', -, hall⟩ := h
  obtain ⟨i, hi, hget⟩ := List.getElem_of_mem hp
  have hsound := (hall.get (hall.length_eq.symm ▸ hi) hi).2
  rwa [List.get_eq_getElem, hget] at hsound

theorem mem_places_iff {f : IsoFile} {stack : Memory} {pos : ℕ} {extent len : ℤ}
    {p : RecordPlace} :
    p ∈ recordPlaces 0 (dirReads f stack pos extent len) ↔
      (dirReads f stack pos extent len)[p.sector]? = some p.read ∧
        p.offset ∈ recordOffsets p.read.buffer 0 := by
  rw [mem_recordPlaces_iff, Nat.sub_zero, and_iff_right (Nat.zero_le _)]

/-- Each entry of a listing was decoded from a record that the image has exactly when what the
image has of the sectors of the extent are runs of records. -/
theorem soundListing_iff_cleanExtent (vol : AttachedVolume) (stack : Memory) (pos : ℕ)
    (extent len : ℤ) :
    SoundListing vol.toVolData stack pos extent len ↔
      CleanExtent vol.isoFile pos extent (sectorCount len) := by
  obtain ⟨entries, pos', hlist, hall⟩ :=
    getDirEntries_places vol.ucsLevel_le stack pos extent len
  have hcount : (dirReads vol.isoFile stack pos extent len).length = sectorCount len :=
    length_sectorReads ..
  constructor
  · intro hsound j hj
    have hr := List.getElem?_eq_getElem (hcount.symm ▸ hj)
    apply (holdsSector_of_dirReads hr).recordRun_of_clean (Nat.zero_le _) (Nat.zero_le _)
    intro o ho
    have hplace := hsound.sound (p := ⟨j, _, o⟩) (mem_places_iff.mpr ⟨hr, ho⟩)
    exact (sound_iff_cleanRecord hr ho).mp hplace
  · intro hclean
    refine ⟨entries, pos', hlist, List.forall₂_iff_get.mpr ⟨hall.length_eq, ?_⟩⟩
    intro i hi hi'
    refine ⟨hall.get hi hi', ?_⟩
    obtain ⟨hread, hoff⟩ := mem_places_iff.mp (List.get_mem _ ⟨i, hi'⟩)
    have hj := (List.getElem?_eq_some_iff.mp hread).1
    have hclean' := (holdsSector_of_dirReads hread).clean_of_recordRun (Nat.zero_le _)
      (Nat.zero_le _) (hclean _ (hcount ▸ hj))
    exact (sound_iff_cleanRecord hread hoff).mpr (hclean' _ hoff)

/-! ### A name that leaves its record -/

theorem mem_recordOffsets_self {buffer : Memory} {i : ℕ} (h : buffer i ≠ 0) :
    i ∈ recordOffsets buffer i := by
  rw [recordOffsets, dif_neg h]
  split <;> exact List.mem_cons_self

/-- An image of one directory record with 34 bytes, whose name length is 2. -/
def overlongFile : IsoFile where
  bytes := 34 :: List.replicate 31 0 ++ [2, 0]
  size_lt := by decide

def overlongVolume : AttachedVolume where
  isoFile := overlongFile
  ipd := Memory.zeros
  iRootExtent := 0
  iRootSize := 2048
  ucsLevel := 3
  nls := none
  ucsLevel_pos := one_le_three
  ucsLevel_le := three_le_three

/-- The second byte of the name lies behind the record. -/
theorem overlong_name_is_decoded :
    ¬ SoundListing overlongVolume.toVolData Memory.zeros 0 0 2048 := by
  intro h
  have hoff : 0 ∈ recordOffsets (overlongFile.sectorRead (Memory.zeros.clear 2048) 0 0 2048).buffer
      0 := mem_recordOffsets_self (by decide)
  have hsound := h.sound (p := ⟨0, _, 0⟩) (mem_places_iff.mpr ⟨rfl, hoff⟩)
  exact absurd hsound.covers (by decide)

end Isofs
