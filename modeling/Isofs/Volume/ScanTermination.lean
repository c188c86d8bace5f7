import Isofs.Volume.Attach

/-!
# When a mount ends

The descriptor scan never looks at what `read` returns. It walks through the file block by
block, past its end, and starts over when the offset wraps, so it ends exactly when some
block of the file stops it.
-/

namespace Isofs

open TwosComplement Loop Memory

/-! ### The descriptor buffer -/

/-- The buffer after the blocks up to `m` have been read one after the other: the bytes of
block `m`, and behind the end of the file those of the block before. -/
def sectorView (isoFile : IsoFile) : ℕ → Memory
  | 0 => Memory.zeros.blit 0 (isoFile.read 0 2048)
  | m + 1 => (sectorView isoFile m).blit 0 (isoFile.read (2048 * (m + 1)) 2048)

/-- The block that a read of descriptor `block` addresses, modulo the wrap of its offset. -/
def target (iSectorOffset block : ℤ) : ℕ := ((block + iSectorOffset) % 2 ^ 21).toNat

/-- The buffer after the first read, when it addresses a block of the file. -/
def startView (isoFile : IsoFile) (iSectorOffset : ℤ) : Memory :=
  Memory.zeros.blit 0 (isoFile.read (2048 * target iSectorOffset 16) 2048)

/-- The scan looks at the first bytes of a descriptor only. -/
theorem endsScan_congr {b b' : Memory} (h : AgreeBelow 2048 b b') : endsScan b = endsScan b' := by
  have h0 := h 0 (by decide)
  have h88 := h (88 + 0) (by decide)
  have h89 := h (88 + 1) (by decide)
  have h90 := h (88 + 2) (by decide)
  have h91 := h (88 + 3) (by decide)
  unfold endsScan isJoliet escapeSequence
  rw [h0, h88, h89, h90, h91]

/-- A buffer of zeros goes on scanning. -/
theorem endsScan_zeros : endsScan Memory.zeros = false := by decide

/-! ### One read -/

variable {isoFile : IsoFile} {iSectorOffset : ℤ}

/-- Where a read takes its bytes: an offset past 2 GiB is negative, and the seek fails. -/
def readPosition (iSectorOffset block : ℤ) (pos : ℕ) : ℕ :=
  if target iSectorOffset block < 2 ^ 20 then 2048 * target iSectorOffset block else pos

theorem lseek_blockOffset (iSectorOffset block : ℤ) (pos : ℕ) :
    IsoFile.lseek pos (IsoFile.blockOffset (block + iSectorOffset)) =
      readPosition iSectorOffset block pos := by
  rw [readPosition, target, IsoFile.blockOffset]
  have hpos : 0 ≤ (block + iSectorOffset) % 2 ^ 21 := Int.emod_nonneg _ (by decide)
  split
  · next h =>
    have hlt : (block + iSectorOffset) % 2 ^ 21 < 2 ^ 20 := by omega
    rw [wrap32_mul_2048_of_lt hlt]
    obtain ⟨t, ht⟩ := Int.eq_ofNat_of_zero_le hpos
    rw [ht, Int.toNat_natCast]
    have hcast : (t : ℤ) * 2048 = ((2048 * t : ℕ) : ℤ) := by omega
    rw [hcast, IsoFile.lseek_natCast]
  · next h =>
    exact IsoFile.lseek_of_neg pos (wrap32_mul_2048_neg (by omega))

theorem readDescriptor_eq (block : ℤ) (ipd : Memory) (pos : ℕ) :
    readDescriptor isoFile iSectorOffset block ipd pos =
      ⟨block, ipd.blit 0 (isoFile.read (readPosition iSectorOffset block pos) 2048),
        readPosition iSectorOffset block pos +
          (isoFile.read (readPosition iSectorOffset block pos) 2048).length⟩ := by
  simp only [readDescriptor, IsoFile.seekRead, lseek_blockOffset]

/-! ### The invariant of the scan -/

/-- What the scan has in its buffer and where it stands: the buffer shows a block of the file
or nothing, the position is at the end of the file or behind the block in the buffer, and a
block that the last read addressed and got in full is in the buffer. -/
structure Scanned (isoFile : IsoFile) (iSectorOffset : ℤ) (s : ScanState) : Prop where
  view : AgreeBelow 2048 s.ipd Memory.zeros ∨
    (∃ m, 2048 * m < isoFile.bytes.length ∧ AgreeBelow 2048 s.ipd (sectorView isoFile m)) ∨
    (target iSectorOffset 16 < 2 ^ 20 ∧ 2048 * target iSectorOffset 16 < isoFile.bytes.length ∧
      AgreeBelow 2048 s.ipd (startView isoFile iSectorOffset))
  pos : isoFile.bytes.length ≤ s.pos ∨
    ∃ m, s.pos = 2048 * (m + 1) ∧ AgreeBelow 2048 s.ipd (sectorView isoFile m)
  last : ∀ t, target iSectorOffset s.block = t → t < 2 ^ 20 →
    2048 * (t + 1) ≤ isoFile.bytes.length → AgreeBelow 2048 s.ipd (sectorView isoFile t)

/-- A whole block read over any buffer. -/
theorem agreeBelow_sectorView_of_full {m : ℕ} (h : 2048 * (m + 1) ≤ isoFile.bytes.length)
    (b : Memory) :
    AgreeBelow 2048 (b.blit 0 (isoFile.read (2048 * m) 2048)) (sectorView isoFile m) := by
  have hlen : (isoFile.read (2048 * m) 2048).length = 2048 := by
    rw [IsoFile.length_read]
    omega
  cases m with
  | zero => exact agreeBelow_blit_of_length hlen b _
  | succ m => exact agreeBelow_blit_of_length hlen b _

theorem sectorView_zero_congr {b : Memory} (h : AgreeBelow 2048 b Memory.zeros ∨
    AgreeBelow 2048 b (sectorView isoFile 0)) :
    AgreeBelow 2048 (b.blit 0 (isoFile.read (2048 * 0) 2048)) (sectorView isoFile 0) := by
  rcases h with h | h
  · exact h.blit _
  · have hblit := h.blit (isoFile.read (2048 * 0) 2048)
    rwa [show (sectorView isoFile 0).blit 0 (isoFile.read (2048 * 0) 2048) = sectorView isoFile 0
      from blit_blit _ _] at hblit

theorem target_lt (iSectorOffset block : ℤ) : target iSectorOffset block < 2 ^ 21 := by
  rw [target]
  omega

/-- The block after a block that is not the last one before the wrap. -/
theorem target_pred {block : ℤ} {t : ℕ} (h : target iSectorOffset (block + 1) = t + 1) :
    target iSectorOffset block = t := by
  unfold target at h ⊢
  omega

/-- A read that addresses block `t` of the file brings it into the buffer. -/
theorem Scanned.shows {s : ScanState} (hs : Scanned isoFile iSectorOffset s) {t : ℕ}
    (ht : target iSectorOffset (s.block + 1) = t) (hlt : t < 2 ^ 20)
    (hin : 2048 * t < isoFile.bytes.length) :
    AgreeBelow 2048 (s.ipd.blit 0 (isoFile.read (2048 * t) 2048)) (sectorView isoFile t) := by
  by_cases hfull : 2048 * (t + 1) ≤ isoFile.bytes.length
  · exact agreeBelow_sectorView_of_full hfull _
  cases t with
  | zero =>
    -- the file is shorter than a block, so the buffer shows its only block or nothing
    refine sectorView_zero_congr ?_
    rcases hs.view with h | ⟨m, hm, h⟩ | ⟨-, hm, h⟩
    · exact Or.inl h
    · obtain rfl : m = 0 := by omega
      exact Or.inr h
    · have hzero : target iSectorOffset 16 = 0 := by omega
      rw [startView, hzero] at h
      exact Or.inr h
  | succ t => exact (hs.last t (target_pred ht) (by omega) (by omega)).blit _

/-- A read at or past the end of the file changes nothing. -/
theorem blit_read_eq_self (b : Memory) {q : ℕ} (h : isoFile.bytes.length ≤ q) :
    b.blit 0 (isoFile.read q 2048) = b ∧ q + (isoFile.read q 2048).length = q := by
  rw [isoFile.read_eq_nil 2048 h, blit_nil]
  exact ⟨rfl, rfl⟩

/-- Behind a read of block `m` the position is behind the block or at the end of the file. -/
theorem position_after_read {m : ℕ} {b : Memory} (hb : AgreeBelow 2048 b (sectorView isoFile m)) :
    isoFile.bytes.length ≤ 2048 * m + (isoFile.read (2048 * m) 2048).length ∨
      ∃ m', 2048 * m + (isoFile.read (2048 * m) 2048).length = 2048 * (m' + 1) ∧
        AgreeBelow 2048 b (sectorView isoFile m') := by
  rw [IsoFile.length_read]
  by_cases h : 2048 * (m + 1) ≤ isoFile.bytes.length
  · exact Or.inr ⟨m, by omega, hb⟩
  · exact Or.inl (by omega)

/-- The invariant holds after the first read. -/
theorem scanned_first : Scanned isoFile iSectorOffset (firstDescriptor isoFile iSectorOffset) := by
  rw [firstDescriptor, readDescriptor_eq]
  by_cases hlt : target iSectorOffset 16 < 2 ^ 20
  · rw [readPosition, if_pos hlt]
    by_cases hin : 2048 * target iSectorOffset 16 < isoFile.bytes.length
    · have hfull : 2048 * (target iSectorOffset 16 + 1) ≤ isoFile.bytes.length →
          AgreeBelow 2048 (startView isoFile iSectorOffset)
            (sectorView isoFile (target iSectorOffset 16)) :=
        fun h => agreeBelow_sectorView_of_full h _
      refine ⟨Or.inr (Or.inr ⟨hlt, hin, AgreeBelow.refl _ _⟩), ?_, ?_⟩
      · by_cases h : 2048 * (target iSectorOffset 16 + 1) ≤ isoFile.bytes.length
        · exact position_after_read (hfull h)
        · left
          simp only [IsoFile.length_read]
          omega
      · rintro t rfl - h
        exact hfull h
    · obtain ⟨hblit, hpos⟩ := blit_read_eq_self Memory.zeros (Nat.not_lt.mp hin)
      rw [hblit, hpos]
      refine ⟨Or.inl (AgreeBelow.refl _ _), Or.inl (Nat.not_lt.mp hin), fun t ht _ h => ?_⟩
      have hblock : target iSectorOffset 16 = t := ht
      omega
  · rw [readPosition, if_neg hlt]
    -- the seek fails, and the first sector is read
    have hview : AgreeBelow 2048 (Memory.zeros.blit 0 (isoFile.read (2048 * 0) 2048))
        (sectorView isoFile 0) := sectorView_zero_congr (Or.inl (AgreeBelow.refl _ _))
    refine ⟨?_, position_after_read hview, fun t ht hlt' => absurd (ht ▸ hlt') hlt⟩
    by_cases hempty : isoFile.bytes.length ≤ 0
    · left
      show AgreeBelow 2048 (Memory.zeros.blit 0 (isoFile.read 0 2048)) Memory.zeros
      rw [(blit_read_eq_self Memory.zeros hempty).1]
      exact AgreeBelow.refl _ _
    · exact Or.inr (Or.inl ⟨0, by omega, hview⟩)

/-- One round of the loop keeps the invariant. -/
theorem Scanned.next {s : ScanState} (hs : Scanned isoFile iSectorOffset s) :
    Scanned isoFile iSectorOffset (nextDescriptor isoFile iSectorOffset s) := by
  rw [nextDescriptor, readDescriptor_eq]
  -- a read behind the end of the file leaves the sector of the round before
  have hkeep : ∀ {q : ℕ}, isoFile.bytes.length ≤ q →
      (∀ t, target iSectorOffset (s.block + 1) = t → t < 2 ^ 20 →
        ¬ 2048 * (t + 1) ≤ isoFile.bytes.length) →
      Scanned isoFile iSectorOffset ⟨s.block + 1, s.ipd.blit 0 (isoFile.read q 2048),
        q + (isoFile.read q 2048).length⟩ := by
    intro q hq hlast
    obtain ⟨hblit, hpos⟩ := blit_read_eq_self s.ipd hq
    rw [hblit, hpos]
    exact ⟨hs.view, Or.inl hq, fun t ht hlt h => absurd h (hlast t ht hlt)⟩
  by_cases hlt : target iSectorOffset (s.block + 1) < 2 ^ 20
  · rw [readPosition, if_pos hlt]
    by_cases hin : 2048 * target iSectorOffset (s.block + 1) < isoFile.bytes.length
    · have hview := hs.shows rfl hlt hin
      refine ⟨Or.inr (Or.inl ⟨_, hin, hview⟩), position_after_read hview, ?_⟩
      rintro t rfl - -
      exact hview
    · refine hkeep (Nat.not_lt.mp hin) ?_
      rintro t rfl -
      omega
  · -- the seek fails, and the read goes on where the last one ended
    rw [readPosition, if_neg hlt]
    have hnot : ∀ t, target iSectorOffset (s.block + 1) = t → t < 2 ^ 20 →
        ¬ 2048 * (t + 1) ≤ isoFile.bytes.length := fun t ht hlt' => absurd (ht ▸ hlt') hlt
    by_cases hend : isoFile.bytes.length ≤ s.pos
    · exact hkeep hend hnot
    · obtain ⟨m, hpos, hview⟩ := hs.pos.resolve_left hend
      rw [hpos]
      have hnext := hview.blit (isoFile.read (2048 * (m + 1)) 2048)
      exact ⟨Or.inr (Or.inl ⟨m + 1, by omega, hnext⟩), position_after_read (m := m + 1) hnext,
        fun t ht hlt' h => absurd h (hnot t ht hlt')⟩

/-! ### The whole scan -/

theorem scanned_iterate (k : ℕ) : Scanned isoFile iSectorOffset
    ((nextDescriptor isoFile iSectorOffset)^[k] (firstDescriptor isoFile iSectorOffset)) := by
  induction k with
  | zero => exact scanned_first
  | succ k ih =>
    rw [Function.iterate_succ_apply']
    exact ih.next

theorem iterate_block (k : ℕ) : ((nextDescriptor isoFile iSectorOffset)^[k]
    (firstDescriptor isoFile iSectorOffset)).block = 16 + k := by
  induction k with
  | zero => rfl
  | succ k ih =>
    rw [Function.iterate_succ_apply', nextDescriptor, readDescriptor_eq, ih]
    show (16 : ℤ) + k + 1 = 16 + (k + 1 : ℕ)
    omega

/-- The scan comes by every block of the file. -/
theorem exists_iterate_shows (iSectorOffset : ℤ) {m : ℕ} (hm : 2048 * m < isoFile.bytes.length) :
    ∃ k, AgreeBelow 2048 ((nextDescriptor isoFile iSectorOffset)^[k]
      (firstDescriptor isoFile iSectorOffset)).ipd (sectorView isoFile m) := by
  have hsize := isoFile.size_lt
  -- the round before the one that addresses block `m`, behind the wrap of the offset
  obtain ⟨k, hk⟩ : ∃ k : ℕ, target iSectorOffset (16 + (k : ℤ) + 1) = m := by
    refine ⟨2 ^ 21 - 1 - target iSectorOffset 16 + m, ?_⟩
    have ht := target_lt iSectorOffset 16
    unfold target at ht ⊢
    omega
  refine ⟨k + 1, ?_⟩
  rw [Function.iterate_succ_apply', nextDescriptor, readDescriptor_eq, iterate_block, readPosition,
    hk, if_pos (by omega)]
  exact (scanned_iterate k).shows (by rw [iterate_block, hk]) (by omega) hm

/-- Some block of the file stops the scan: one read over the block before it, or the first
one, read over zeros. -/
def StopsScan (isoFile : IsoFile) (iSectorOffset : ℤ) : Prop :=
  (∃ m, 2048 * m < isoFile.bytes.length ∧ endsScan (sectorView isoFile m) = true) ∨
    (target iSectorOffset 16 < 2 ^ 20 ∧ 2048 * target iSectorOffset 16 < isoFile.bytes.length ∧
      endsScan (startView isoFile iSectorOffset) = true)

theorem exists_iterate_ends_iff : (∃ k, endsScan ((nextDescriptor isoFile iSectorOffset)^[k]
    (firstDescriptor isoFile iSectorOffset)).ipd = true) ↔ StopsScan isoFile iSectorOffset := by
  constructor
  · rintro ⟨k, hk⟩
    rcases (scanned_iterate k).view with h | ⟨m, hm, h⟩ | ⟨hlt, hin, h⟩
    · rw [endsScan_congr h, endsScan_zeros] at hk
      cases hk
    · exact Or.inl ⟨m, hm, (endsScan_congr h).symm.trans hk⟩
    · exact Or.inr ⟨hlt, hin, (endsScan_congr h).symm.trans hk⟩
  · rintro (⟨m, hm, h⟩ | ⟨hlt, hin, h⟩)
    · obtain ⟨k, hk⟩ := exists_iterate_shows iSectorOffset hm
      exact ⟨k, (endsScan_congr hk).trans h⟩
    · refine ⟨0, ?_⟩
      rw [Function.iterate_zero_apply, firstDescriptor, readDescriptor_eq, readPosition, if_pos hlt]
      exact h

/-- The scan ends exactly when some block of the file stops it. -/
theorem exists_scanDescriptors_iff :
    (∃ fuel, (scanDescriptors fuel isoFile iSectorOffset).isSome) ↔
      StopsScan isoFile iSectorOffset :=
  exists_runUntil_isSome_iff.trans exists_iterate_ends_iff

/-! ### The whole mount -/

section Mount

variable {env : MountEnv} {pData : Memory} {pattach : Request} {server : ServerData}

/-- A mount returns when it does not get to the scan, or the scan ends. -/
theorem attachVolume_isSome_iff (fuel : ℕ) :
    (attachVolume env fuel pData pattach server).isSome ↔
      checkAttachParms pattach.cbParm pData ≠ .NO_ERROR ∨ env.malloc = false ∨
        ∀ isoFile, env.fopen (cString (szBasePath pData)) = some isoFile →
          (scanDescriptors fuel isoFile (iOffsetParm pData)).isSome := by
  rw [attachVolume]
  by_cases hcheck : checkAttachParms pattach.cbParm pData ≠ .NO_ERROR
  · simp [hcheck]
  by_cases hmalloc : env.malloc = false
  · simp [hcheck, hmalloc]
  cases hopen : env.fopen (cString (szBasePath pData)) with
  | none => simp [hcheck, hmalloc]
  | some isoFile => simp [hcheck, hmalloc]

/-- A mount returns exactly when it is refused before the scan or some block of the file
stops the scan. -/
theorem attachVolume_returns_iff (env : MountEnv) (pData : Memory) (pattach : Request)
    (server : ServerData) :
    (∃ fuel, (attachVolume env fuel pData pattach server).isSome) ↔
      checkAttachParms pattach.cbParm pData ≠ .NO_ERROR ∨ env.malloc = false ∨
        ∀ isoFile, env.fopen (cString (szBasePath pData)) = some isoFile →
          StopsScan isoFile (iOffsetParm pData) := by
  simp only [attachVolume_isSome_iff]
  by_cases hrefused : checkAttachParms pattach.cbParm pData ≠ .NO_ERROR ∨ env.malloc = false
  · rw [← or_assoc, iff_true_right (Or.inl hrefused)]
    exact ⟨0, or_assoc.mp (Or.inl hrefused)⟩
  simp only [← or_assoc, hrefused, false_or]
  cases env.fopen (cString (szBasePath pData)) with
  | none => simp
  | some isoFile => simp [exists_scanDescriptors_iff]

/-- An attach request for an image at sector offset 0. -/
def attachParms : Memory := Memory.zeros.blit 4 [0x43, 0x3a, 0x5c, 0x61]

theorem checkAttachParms_attachParms : checkAttachParms 524 attachParms = .NO_ERROR := by
  decide +kernel

/-- A system on which that image is an empty file. -/
def emptyImageEnv : MountEnv where
  malloc := true
  loadNls _ := none
  queryCp := none
  fopen _ := some ⟨[], IsoFile.length_nil_lt⟩

/-- The mount of an empty file does not return. -/
theorem attachVolume_empty_file_hangs : ¬ ∃ fuel, (attachVolume emptyImageEnv fuel attachParms
    { (default : Request) with cbParm := 524 } ⟨0, Heap.empty, 0, 0⟩).isSome := by
  rintro ⟨fuel, h⟩
  rw [attachVolume_isSome_iff] at h
  have hscan := (h.resolve_left (not_not.mpr checkAttachParms_attachParms)).resolve_left (by decide)
    _ rfl
  rcases exists_scanDescriptors_iff.mp ⟨fuel, hscan⟩ with ⟨m, hm, -⟩ | ⟨-, hin, -⟩
  · exact absurd hm (Nat.not_lt_zero _)
  · exact absurd hin (Nat.not_lt_zero _)

end Mount

end Isofs
