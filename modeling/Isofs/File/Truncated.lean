import Isofs.File.ReadArray

/-!
# Reading from a truncated image

`fsRead` takes its counts from the length that it is asked for and not from what its reads
deliver. What it reports is in the image exactly when the image reaches to the end of the range.
-/

namespace Isofs

open TwosComplement

namespace ReadParams

/-- The offset in the image of the first byte that the read is to give. -/
def start (pread : ReadParams) : ℤ :=
  2048 * pread.iExtent + pread.sffsi.sfiPosition.toNat

/-- The number of bytes of the file that the read asks for. -/
def asked (pread : ReadParams) : ℕ :=
  readCount pread.sffsi.sfiSize.toNat pread.sffsi.sfiPosition.toNat pread.cbLen.toNat

/-- The range that the read asks for is empty or lies in the image. -/
def InImage (pread : ReadParams) (f : IsoFile) : Prop :=
  pread.asked = 0 ∨ 0 ≤ pread.start ∧ pread.start + pread.asked ≤ f.bytes.length

end ReadParams

/-- Each byte that the reply counts is the one that the image has at its offset. -/
def InventsNothing (f : IsoFile) (pread : ReadParams) (reply : ReadReply) : Prop :=
  ∀ k < reply.pread.cbLen.toNat, f.byteAt (pread.start + k) = some (reply.pData k)

/-- The image has a byte at the offsets below its length. -/
theorem IsoFile.byteAt_isSome_iff {f : IsoFile} {off : ℤ} :
    (f.byteAt off).isSome ↔ 0 ≤ off ∧ off < f.bytes.length := by
  rw [byteAt]
  split
  · next hneg => exact iff_of_false (by simp) (by omega)
  · next hpos =>
    rw [Option.isSome_iff_ne_none, Ne, List.getElem?_eq_none_iff]
    omega

section

variable (vol : VolData) (stack : Memory) (pos : ℕ) (pData : Memory) {pread : ReadParams}

/-- Inside the file `fsRead` reports all that it is asked for. -/
theorem fsRead_reports_asked (h : pread.sffsi.sfiPosition < pread.sffsi.sfiSize) :
    (fsRead vol stack pos pData pread).pread.cbLen.toNat = pread.asked := by
  rw [fsRead_cbLen]
  exact toNat_clipLength_inside (Nat.le_of_lt (UInt32.lt_iff_toNat_lt.mp h))

/-- `fsRead` at a position inside the file invents nothing exactly when the range that it is
asked for is empty or lies in the image. -/
theorem fsRead_inventsNothing_iff (h : pread.sffsi.sfiPosition < pread.sffsi.sfiSize) :
    InventsNothing vol.isoFile pread (fsRead vol stack pos pData pread) ↔
      pread.InImage vol.isoFile := by
  have hreports := fsRead_reports_asked vol stack pos pData h
  rw [InventsNothing, hreports]
  constructor
  · intro hall
    refine or_iff_not_imp_left.mpr fun hsome => ?_
    -- the first and the last byte that are counted are in the image
    have hat {k : ℕ} (hk : k < pread.asked) :
        0 ≤ pread.start + k ∧ pread.start + k < vol.isoFile.bytes.length := by
      apply IsoFile.byteAt_isSome_iff.mp
      rw [hall k hk]
      rfl
    have hfirst := hat (k := 0) (by omega)
    have hlast := hat (k := pread.asked - 1) (by omega)
    omega
  · rintro (hnone | ⟨hpos, hend⟩) k hk
    · omega
    · obtain ⟨start, hstart⟩ := Int.eq_ofNat_of_zero_le hpos
      have hclip := fsRead_cbLen vol stack pos pData pread
      rw [hreports] at hclip
      have hnat : (pread.start + k).toNat = start + k := by omega
      rw [IsoFile.byteAt, if_neg (by omega), hnat]
      apply fsRead_byte vol stack pos pData pread hstart.symm
      · rw [← hclip]
        omega
      · rwa [← hclip]

end

/-! ### A file cut off in its first sector -/

/-- A read of the three bytes of a file of which the image holds two. -/
def readCutOff : ReadParams where
  sffsi := { (default : Sffsi) with sfiSize := 3 }
  iExtent := 0
  cbLen := 3

/-- The third byte is one that was left in the sector buffer. -/
theorem fsRead_invents :
    ¬ InventsNothing shortVolume.isoFile readCutOff
      (fsRead shortVolume Memory.zeros 0 Memory.zeros readCutOff) := by
  intro h
  have hcount :
      2 < (fsRead shortVolume Memory.zeros 0 Memory.zeros readCutOff).pread.cbLen.toNat := by
    rw [fsRead_cbLen]
    decide
  have hbyte := h 2 hcount
  cases hbyte

/-- A read of the two bytes that the image holds. -/
theorem fsRead_inventsNothing_sample :
    InventsNothing shortVolume.isoFile { readCutOff with cbLen := 2 }
      (fsRead shortVolume Memory.zeros 0 Memory.zeros { readCutOff with cbLen := 2 }) := by
  refine (fsRead_inventsNothing_iff shortVolume Memory.zeros 0 Memory.zeros ?_).mpr ?_
  · decide
  · exact Or.inr (by decide)

end Isofs
