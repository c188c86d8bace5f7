import Mathlib.Data.List.GetD
import Isofs.File.Read

/-!
# Reading a file as a byte array

A file is the array of its bytes in the image. `fsRead` reads from that array at every
position up to the end of the file; past the end its length clipping wraps around.
-/

namespace Isofs

open TwosComplement

/-- A read of a file whose extent lies completely inside the image. -/
structure FileRead (f : IsoFile) extends ReadParams where
  block : ℕ
  iExtent_eq : iExtent = (block : ℤ)
  inside : 2048 * block + sffsi.sfiSize.toNat ≤ f.bytes.length

/-- The number of bytes of an array of `size` bytes that a read at `position` gives. -/
def readCount (size position requested : ℕ) : ℕ :=
  if position < size then min requested (size - position) else 0

namespace FileRead

variable {f : IsoFile} (r : FileRead f)

def size : ℕ := r.sffsi.sfiSize.toNat
def position : ℕ := r.sffsi.sfiPosition.toNat
def requested : ℕ := r.cbLen.toNat

/-- The number of bytes that the read is to give. -/
def count : ℕ := readCount r.size r.position r.requested

end FileRead

/-- The reply gives the bytes of the file from the position on and moves the position
past them. -/
structure ReadsArray {f : IsoFile} (r : FileRead f) (reply : ReadReply) : Prop where
  rc : reply.rc = .NO_ERROR
  cbLen : reply.pread.cbLen.toNat = r.count
  data : ∀ k < r.count, f.bytes[2048 * r.block + r.position + k]? = some (reply.pData k)
  position : reply.pread.sffsi.sfiPosition.toNat = r.position + r.count

/-! ### The sector loop -/

theorem toNat_clipLength (pread : ReadParams) :
    (clipLength pread).toNat = min (min pread.cbLen.toNat pread.sffsi.sfiSize.toNat)
      ((2 ^ 32 - pread.sffsi.sfiPosition.toNat + pread.sffsi.sfiSize.toNat) % 2 ^ 32) := by
  rw [clipLength]
  simp only [UInt32.lt_iff_toNat_lt, apply_ite UInt32.toNat, UInt32.toNat_sub,
    UInt16.toNat_toUInt32]
  split <;> split <;> omega

/-- Up to the end of the file the clipped length is what the read is to give. -/
theorem toNat_clipLength_inside {pread : ReadParams}
    (h : pread.sffsi.sfiPosition.toNat ≤ pread.sffsi.sfiSize.toNat) :
    (clipLength pread).toNat = readCount pread.sffsi.sfiSize.toNat
      pread.sffsi.sfiPosition.toNat pread.cbLen.toNat := by
  have hsize := pread.sffsi.sfiSize.toNat_lt
  rw [toNat_clipLength, readCount]
  split <;> omega

/-- The loop counts all bytes it is asked for, whether or not the image has them. -/
theorem readLoop_bytesRead (f : IsoFile) (pos : ℕ) (buff pData : Memory) (off toRead : ℕ)
    (iStartExtent : ℤ) (cbLen bytesRead : ℕ) :
    (readLoop f pos buff pData off toRead iStartExtent cbLen bytesRead).2.1 =
      bytesRead + cbLen := by
  induction cbLen using Nat.strongRecOn generalizing pos buff pData off toRead iStartExtent
    bytesRead with
  | ind cbLen ih =>
    rw [readLoop]
    split
    · next h => simp [h]
    · next h =>
      dsimp only
      rw [ih _ (by split <;> omega)]
      split <;> omega

/-- From block `e` on the loop appends the next `cbLen` bytes of the image to the `off + toRead`
bytes that are in the data buffer. -/
theorem readLoop_data (f : IsoFile) (pos : ℕ) (buff pData : Memory) (off toRead : ℕ)
    (cbLen bytesRead e : ℕ) {iStartExtent : ℤ}
    (he : 0 < cbLen → iStartExtent = (e : ℤ) ∧ 2048 * e + cbLen ≤ f.bytes.length) (k : ℕ)
    (hk : k < off + toRead + cbLen) :
    (readLoop f pos buff pData off toRead iStartExtent cbLen bytesRead).1 k =
      if k < off + toRead then pData k else f.bytes.getD (2048 * e + (k - (off + toRead))) 0 := by
  induction cbLen using Nat.strongRecOn generalizing pos buff pData off toRead iStartExtent
    bytesRead e with
  | ind cbLen ih =>
    rw [readLoop]
    split
    · next h => rw [if_pos (by omega)]
    · next h =>
      obtain ⟨rfl, hin⟩ := he (by omega)
      have hsize := f.size_lt
      dsimp only
      generalize hnow : (if 2048 < cbLen then 2048 else cbLen) = now
      have hnow' : 0 < now ∧ now ≤ cbLen ∧ (now < 2048 → now = cbLen) ∧ now ≤ 2048 := by
        split at hnow <;> omega
      obtain ⟨e', he'⟩ : ∃ e', e' = e + 1 := ⟨_, rfl⟩
      rw [ih (cbLen - now) (by omega) _ _ _ _ _ _ e' (fun hmore => ⟨by
        rw [wrap32_eq_self (by omega) (by omega)]
        omega, by omega⟩) (by omega)]
      by_cases hold : k < off + toRead
      · rw [if_pos hold, if_pos (by omega), Memory.blit_of_not _ (Or.inl hold)]
      · rw [if_neg hold]
        by_cases hfirst : k < off + toRead + now
        · have hblk : k - (off + toRead) < now := by omega
          have hbyte : 2048 * e + (k - (off + toRead)) < f.bytes.length := by omega
          rw [if_pos hfirst, Memory.blit_of_lt _ (by omega) (by simpa using hblk),
            Memory.getElem_slice, Nat.zero_add, IsoFile.seekRead_blockOffset _ _ _ _ _ _ hblk hbyte,
            List.getD_eq_getElem _ _ hbyte]
        · have hidx : 2048 * e' + (k - (off + toRead + now)) = 2048 * e + (k - (off + toRead)) := by
            omega
          rw [if_neg hfirst, hidx]

/-- The first sector: the data buffer holds the bytes of the image from the position on. -/
theorem firstSector_data (f : IsoFile) (pos : ℕ) (stack pData : Memory) (b offset toRead : ℕ)
    (h : 0 < toRead → 2048 * b + offset + toRead ≤ f.bytes.length) (hroom : offset + toRead ≤ 2048)
    (k : ℕ) (hk : k < toRead) :
    pData.blit 0
      ((f.seekRead pos (IsoFile.blockOffset (b : ℤ)) 2048 stack).1.slice offset toRead) k =
      f.bytes.getD (2048 * b + offset + k) 0 := by
  have hin := h (by omega)
  have hbyte : 2048 * b + (offset + k) < f.bytes.length := by omega
  have hsector : offset + k < 2048 := by omega
  rw [Memory.blit_of_lt _ (Nat.zero_le k) (by simpa using hk), Memory.getElem_slice, Nat.sub_zero k,
    IsoFile.seekRead_blockOffset _ _ _ _ _ _ hsector hbyte, Nat.add_assoc (2048 * b) offset k,
    List.getD_eq_getElem _ _ hbyte]

/-! ### The read -/

/-- The length of the read: `cbLen` as the reply counts it. -/
theorem fsRead_cbLen (vol : VolData) (stack : Memory) (pos : ℕ) (pData : Memory)
    (pread : ReadParams) :
    (fsRead vol stack pos pData pread).pread.cbLen.toNat = (clipLength pread).toNat := by
  have hclip := toNat_clipLength pread
  have hlt := pread.cbLen.toNat_lt
  simp only [fsRead, readLoop_bytesRead, UInt16.toNat_ofNat']
  split <;> omega

theorem fsRead_sfiPosition (vol : VolData) (stack : Memory) (pos : ℕ) (pData : Memory)
    (pread : ReadParams) :
    (fsRead vol stack pos pData pread).pread.sffsi.sfiPosition.toNat =
      (pread.sffsi.sfiPosition.toNat + (clipLength pread).toNat) % 2 ^ 32 := by
  simp only [fsRead, readLoop_bytesRead, UInt32.toNat_add, UInt32.toNat_ofNat']
  split <;> omega

/-- The sector of the first byte and the offset of the byte in it. -/
theorem sector_of_first {start p : ℕ} {e : ℤ} (h : (start : ℤ) = 2048 * e + p) :
    e + (p / 2048 : ℕ) = (start / 2048 : ℕ) ∧ p % 2048 = start % 2048 := by
  constructor
  · omega
  · omega

/-- What lies in the image is read from it: no sector number wraps around there. `start` is the
offset of the first byte. -/
theorem fsRead_byte (vol : VolData) (stack : Memory) (pos : ℕ) (pData : Memory)
    (pread : ReadParams) {start : ℕ}
    (hstart : (start : ℤ) = 2048 * pread.iExtent + pread.sffsi.sfiPosition.toNat)
    (hin : start + (clipLength pread).toNat ≤ vol.isoFile.bytes.length) {k : ℕ}
    (hk : k < (clipLength pread).toNat) :
    vol.isoFile.bytes[start + k]? = some ((fsRead vol stack pos pData pread).pData k) := by
  have hfile := vol.isoFile.size_lt
  have hdiv : (pread.sffsi.sfiPosition / 2048).toNat = pread.sffsi.sfiPosition.toNat / 2048 :=
    UInt32.toNat_div _ _
  have hmod : (pread.sffsi.sfiPosition % 2048).toNat = pread.sffsi.sfiPosition.toNat % 2048 :=
    UInt32.toNat_mod _ _
  obtain ⟨hsector, hoffset⟩ := sector_of_first hstart
  have hbyte : start + k < vol.isoFile.bytes.length :=
    Nat.lt_of_lt_of_le (Nat.add_lt_add_left hk start) hin
  have hsplit := Nat.div_add_mod start 2048
  have hlt := Nat.mod_lt start (show 0 < 2048 by decide)
  rw [List.getElem?_eq_getElem hbyte, Option.some.injEq, ← List.getD_eq_getElem _ 0 hbyte]
  simp only [fsRead, hdiv, hmod, hsector, hoffset]
  clear hdiv hmod hsector hoffset hstart
  -- the first sector gives `toRead` bytes from `offset` on, the loop the others
  generalize (clipLength pread).toNat = count at hin hk ⊢
  generalize start / 2048 = b at hsplit ⊢
  generalize start % 2048 = offset at hsplit hlt ⊢
  generalize htoRead : (if count < 2048 - offset then count else 2048 - offset) = toRead
  have hfirst : toRead ≤ count ∧ offset + toRead ≤ 2048 ∧
      (toRead < count → offset + toRead = 2048) := by
    split at htoRead <;> omega
  clear htoRead
  obtain ⟨hle, hroom, hfull⟩ := hfirst
  have hblock : wrap32 (b : ℤ) = b := wrap32_eq_self (by omega) (by omega)
  have hnext : wrap32 ((b : ℤ) + 1) = ((b + 1 : ℕ) : ℤ) := wrap32_eq_self (by omega) (by omega)
  have hrest : 0 < count - toRead → ((b + 1 : ℕ) : ℤ) = ((b + 1 : ℕ) : ℤ) ∧
      2048 * (b + 1) + (count - toRead) ≤ vol.isoFile.bytes.length :=
    fun _ => ⟨rfl, by omega⟩
  rw [hblock, hnext, readLoop_data _ _ _ _ _ _ _ _ (b + 1) hrest k (by omega)]
  by_cases hk' : k < 0 + toRead
  · have hinside : 0 < toRead → 2048 * b + offset + toRead ≤ vol.isoFile.bytes.length := by omega
    rw [if_pos hk', firstSector_data _ pos stack pData b offset toRead hinside hroom k (by omega),
      hsplit]
  · have hidx : start + k = 2048 * (b + 1) + (k - (0 + toRead)) := by omega
    rw [if_neg hk', hidx]

section

variable {vol : VolData} (stack : Memory) (pos : ℕ) (pData : Memory) (r : FileRead vol.isoFile)

theorem toNat_clipLength_eq : (clipLength r.toReadParams).toNat =
    min (min r.requested r.size) ((2 ^ 32 - r.position + r.size) % 2 ^ 32) :=
  toNat_clipLength _

/-- Up to the end of the file the clipped length is the number of bytes to give. -/
theorem toNat_clipLength_of_le (h : r.position ≤ r.size) :
    (clipLength r.toReadParams).toNat = r.count :=
  toNat_clipLength_inside h

/-- What is to be given ends inside the file. -/
theorem position_add_count_le (h : r.position ≤ r.size) : r.position + r.count ≤ r.size := by
  rw [FileRead.count, readCount]
  split <;> omega

theorem fsRead_data (h : r.position ≤ r.size) (k : ℕ) (hk : k < r.count) :
    vol.isoFile.bytes[2048 * r.block + r.position + k]? =
      some ((fsRead vol stack pos pData r.toReadParams).pData k) := by
  have hclip := toNat_clipLength_of_le r h
  have hin := r.inside
  have hend := position_add_count_le r h
  have hsize : r.sffsi.sfiSize.toNat = r.size := rfl
  have hposition : r.sffsi.sfiPosition.toNat = r.position := rfl
  have hstart : ((2048 * r.block + r.position : ℕ) : ℤ) =
      2048 * r.iExtent + r.sffsi.sfiPosition.toNat := by
    rw [r.iExtent_eq, hposition]
    omega
  exact fsRead_byte vol stack pos pData r.toReadParams hstart (by omega) (by omega)

/-- `fsRead` reads the file as an array of bytes exactly when the position is not past the
end of the file, or the read asks for nothing, or the file is empty. -/
theorem fsRead_readsArray_iff :
    ReadsArray r (fsRead vol stack pos pData r.toReadParams) ↔
      r.position ≤ r.size ∨ r.requested = 0 ∨ r.size = 0 := by
  have hposition : r.position < 2 ^ 32 := r.sffsi.sfiPosition.toNat_lt
  have hsize : r.size < 2 ^ 32 := r.sffsi.sfiSize.toNat_lt
  have hcbLen := fsRead_cbLen vol stack pos pData r.toReadParams
  have hsfiPosition := fsRead_sfiPosition vol stack pos pData r.toReadParams
  have hself : r.sffsi.sfiPosition.toNat = r.position := rfl
  by_cases h : r.position ≤ r.size
  · have hend := position_add_count_le r h
    rw [toNat_clipLength_of_le r h] at hcbLen hsfiPosition
    exact iff_of_true ⟨rfl, hcbLen, fsRead_data stack pos pData r h, by omega⟩ (Or.inl h)
  · -- past the end nothing is to be given, so the clipped length must be zero
    have hcount : r.count = 0 := by
      rw [FileRead.count, readCount, if_neg (by omega)]
    have hclip := toNat_clipLength_eq r
    constructor
    · intro hreads
      have hlen := hreads.cbLen
      omega
    · intro hzero
      exact ⟨rfl, by omega, by simp [hcount], by omega⟩

end

/-! ### A read past the end -/

/-- A file of one byte in an image of two. -/
def shortFile : IsoFile where
  bytes := [0x41, 0x42]
  size_lt := by decide

def shortVolume : VolData where
  isoFile := shortFile
  ipd := Memory.zeros
  iRootExtent := 1
  iRootSize := 2048
  ucsLevel := 3
  nls := none

/-- A read of one byte at position 2. -/
def readPastEnd : FileRead shortVolume.isoFile where
  sffsi := { (default : Sffsi) with sfiSize := 1, sfiPosition := 2 }
  iExtent := 0
  cbLen := 1
  block := 0
  iExtent_eq := rfl
  inside := by decide

/-- The read past the end of the file gives a byte. -/
theorem fsRead_past_end :
    ¬ ReadsArray readPastEnd
      (fsRead shortVolume Memory.zeros 0 Memory.zeros readPastEnd.toReadParams) := by
  intro h
  have hlen := h.cbLen
  rw [fsRead_cbLen] at hlen
  revert hlen
  decide

end Isofs
