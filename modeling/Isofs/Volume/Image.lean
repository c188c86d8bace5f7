import Isofs.Library.Memory
import Isofs.Library.TwosComplement

/-!
# The mounted image file

The daemon reads a volume through one open file. `off_t` is a 32-bit `long`, so
no byte of an open file lies at or past offset `2 ^ 31`, and a seek to a negative
offset fails and leaves the file position where it was. A read returns the bytes
that are there, at most as many as asked for, and moves the position past them.
-/

namespace Isofs

open TwosComplement

/-- An ISO image as the C library gives it to the daemon. -/
structure IsoFile where
  bytes : List UInt8
  size_lt : bytes.length < 2 ^ 31

namespace IsoFile

theorem length_nil_lt : ([] : List UInt8).length < 2 ^ 31 := by decide

/-- `lseek(fd, off, SEEK_SET)`: the position afterwards. -/
def lseek (pos : ℕ) (off : ℤ) : ℕ := if off < 0 then pos else off.toNat

/-- The bytes `read(fd, _, n)` delivers at position `pos`. -/
def read (f : IsoFile) (pos n : ℕ) : List UInt8 := (f.bytes.drop pos).take n

/-- Seek to `off`, then read up to `n` bytes over the start of `buffer`: the buffer
and the file position afterwards. -/
def seekRead (f : IsoFile) (pos : ℕ) (off : ℤ) (n : ℕ) (buffer : Memory) : Memory × ℕ :=
  let pos := lseek pos off
  let got := f.read pos n
  (buffer.blit 0 got, pos + got.length)

/-- The file offset of block `n`, computed as `n << 11` in an `int`. -/
def blockOffset (n : ℤ) : ℤ := wrap32 (n * 2048)

theorem length_read (f : IsoFile) (pos n : ℕ) :
    (f.read pos n).length = min n (f.bytes.length - pos) := by
  simp [read]

/-- A delivered byte is the file's byte at that place. -/
theorem getElem_read (f : IsoFile) (pos n i : ℕ) (h : i < (f.read pos n).length)
    (hi : pos + i < f.bytes.length) : (f.read pos n)[i] = f.bytes[pos + i] := by
  simp [read]

/-- Nothing is read at or past the end of the file. -/
theorem read_eq_nil (f : IsoFile) {pos : ℕ} (n : ℕ) (h : f.bytes.length ≤ pos) :
    f.read pos n = [] := by
  simp [read, List.drop_eq_nil_of_le h]

theorem lseek_natCast (pos off : ℕ) : lseek pos (off : ℤ) = off := by
  have h : ¬ (off : ℤ) < 0 := by omega
  simp [lseek, h]

theorem lseek_of_neg (pos : ℕ) {off : ℤ} (h : off < 0) : lseek pos off = pos := by
  simp [lseek, h]

/-- The blocks below the 2 GiB limit have their exact offset. -/
theorem blockOffset_natCast {n : ℕ} (h : n < 2 ^ 20) :
    blockOffset (n : ℤ) = ((n * 2048 : ℕ) : ℤ) := by
  rw [blockOffset]
  rw [wrap32_eq_self (by omega) (by omega)]
  omega

/-- A buffered byte after a read at a non-negative offset. -/
theorem seekRead_apply (f : IsoFile) (pos off n i : ℕ) (buffer : Memory)
    (hi : i < n) (hf : off + i < f.bytes.length) :
    (f.seekRead pos (off : ℤ) n buffer).1 i = f.bytes[off + i] := by
  have hlen : i < (f.read off n).length := by
    rw [length_read]
    omega
  simp only [seekRead, lseek_natCast]
  rw [Memory.blit_of_lt _ (Nat.zero_le i) (by simpa using hlen)]
  exact getElem_read f off n i hlen hf

/-- A buffered byte after a read at the start of block `b`. -/
theorem seekRead_blockOffset (f : IsoFile) (pos b n i : ℕ) (buffer : Memory)
    (hi : i < n) (hf : 2048 * b + i < f.bytes.length) :
    (f.seekRead pos (blockOffset (b : ℤ)) n buffer).1 i = f.bytes[2048 * b + i] := by
  have hsize := f.size_lt
  rw [blockOffset_natCast (by omega), seekRead_apply f pos (b * 2048) n i buffer hi (by omega)]
  congr 1
  omega

/-- The byte of the image at an offset, if there is one. -/
def byteAt (f : IsoFile) (off : ℤ) : Option UInt8 := if off < 0 then none else f.bytes[off.toNat]?

/-- What the image has of a block. -/
def sector (f : IsoFile) (block : ℤ) : List UInt8 :=
  if block < 0 then [] else f.read (2048 * block.toNat) 2048

theorem length_sector_le (f : IsoFile) (block : ℤ) : (f.sector block).length ≤ 2048 := by
  rw [sector]
  split
  · exact Nat.zero_le _
  · rw [length_read]
    exact Nat.min_le_left _ _

/-- A byte of a block is one of the image. -/
theorem byteAt_block (f : IsoFile) (block : ℤ) {j : ℕ} (hj : j < 2048) :
    f.byteAt (2048 * block + j) = (f.sector block)[j]? := by
  rw [byteAt, sector]
  by_cases hneg : block < 0
  · rw [if_pos hneg, if_pos (by omega), List.getElem?_nil]
  · have hoff : (2048 * block + j).toNat = 2048 * block.toNat + j := by omega
    rw [if_neg hneg, if_neg (by omega), hoff, read, List.getElem?_take_of_lt hj, List.getElem?_drop]

end IsoFile

/-- A seek to the offset of a sector and the read of `cb` bytes there, as one of a sequence: the
file position at which it reads, and the sector buffer and the position that it leaves. -/
structure SectorRead where
  extent : ℤ
  offset : ℤ
  cb : ℕ
  start : ℕ
  buffer : Memory
  pos : ℕ

/-- Seek to the sector `extent` and read `cb` bytes. -/
def IsoFile.sectorRead (f : IsoFile) (buffer : Memory) (pos : ℕ) (extent : ℤ) (cb : ℕ) :
    SectorRead :=
  let r := f.seekRead pos (blockOffset extent) cb buffer
  ⟨extent, blockOffset extent, cb, lseek pos (blockOffset extent), r.1, r.2⟩

namespace IsoFile

theorem pos_sectorRead (f : IsoFile) (buffer : Memory) (pos : ℕ) (extent : ℤ) (cb : ℕ) :
    (f.sectorRead buffer pos extent cb).pos =
      (f.sectorRead buffer pos extent cb).start +
        min cb (f.bytes.length - (f.sectorRead buffer pos extent cb).start) :=
  congrArg ((f.sectorRead buffer pos extent cb).start + ·) (f.length_read _ cb)

/-- A read replaces the bytes of the buffer for which the image has one. -/
theorem buffer_sectorRead (f : IsoFile) (buffer : Memory) (pos : ℕ) (extent : ℤ) {cb i : ℕ}
    (hi : i < cb) :
    (f.sectorRead buffer pos extent cb).buffer i =
      (f.bytes[(f.sectorRead buffer pos extent cb).start + i]?).getD (buffer i) := by
  generalize hstart : (f.sectorRead buffer pos extent cb).start = start
  have hbuffer : (f.sectorRead buffer pos extent cb).buffer =
      buffer.blit 0 (f.read start cb) := by rw [← hstart]; rfl
  rw [hbuffer]
  by_cases hin : start + i < f.bytes.length
  · have hlen : i < (f.read start cb).length := by
      rw [length_read]
      omega
    rw [Memory.blit_of_lt _ (Nat.zero_le i) (by omega), List.getElem?_eq_getElem hin,
      Option.getD_some]
    exact f.getElem_read start cb i hlen hin
  · have hlen : 0 + (f.read start cb).length ≤ i := by
      rw [length_read]
      omega
    rw [Memory.blit_of_not _ (Or.inr hlen), List.getElem?_eq_none (by omega), Option.getD_none]

/-- The offset of a block that the image has is exact. -/
theorem blockOffset_of_byteAt {f : IsoFile} {block : ℤ} {j : ℕ} (hj : j < 2048) {b : UInt8}
    (h : f.byteAt (2048 * block + j) = some b) :
    0 ≤ block ∧ blockOffset block = 2048 * block := by
  have hsize := f.size_lt
  rw [byteAt] at h
  split at h
  · cases h
  · have hlt := (List.getElem?_eq_some_iff.mp h).1
    refine ⟨by omega, ?_⟩
    rw [blockOffset, wrap32_eq_self (by omega) (by omega)]
    omega

/-- After the read of a block the buffer holds what the image has of it. -/
theorem sectorRead_of_byteAt {f : IsoFile} (buffer : Memory) (pos : ℕ) {extent block : ℤ}
    (hblock : blockOffset extent = blockOffset block) {cb j : ℕ} (hcb : j < cb) (hj : j < 2048)
    {b : UInt8} (h : f.byteAt (2048 * block + j) = some b) :
    (f.sectorRead buffer pos extent cb).buffer j = b := by
  obtain ⟨hpos, hoff⟩ := blockOffset_of_byteAt hj h
  have hstart : (f.sectorRead buffer pos extent cb).start = (2048 * block).toNat := by
    show lseek pos (blockOffset extent) = _
    rw [hblock, hoff, lseek, if_neg (by omega)]
  rw [byteAt, if_neg (by omega), show (2048 * block + j).toNat = (2048 * block).toNat + j by omega]
    at h
  rw [buffer_sectorRead f buffer pos extent hcb, hstart, h, Option.getD_some]

end IsoFile

/-! ### Stored bytes -/

/-- The bytes stand in the image from the start of `block` on. -/
def IsoFile.Holds (f : IsoFile) (block : ℕ) (bytes : List UInt8) : Prop :=
  bytes <+: f.bytes.drop (2048 * block)

namespace IsoFile.Holds

variable {f : IsoFile} {block : ℕ}

theorem getElem? {bytes : List UInt8} (h : f.Holds block bytes) {j : ℕ} (hj : j < bytes.length) :
    f.bytes[2048 * block + j]? = some bytes[j] := by
  obtain ⟨rest, hrest⟩ := h
  rw [← List.getElem?_drop, ← hrest, List.getElem?_append_left hj, List.getElem?_eq_getElem hj]

/-- What is stored ends inside the image. -/
theorem length_le {bytes : List UInt8} (h : f.Holds block bytes) (hne : bytes ≠ []) :
    2048 * block + bytes.length ≤ f.bytes.length := by
  have hle := List.IsPrefix.length_le h
  have hpos := List.length_pos_iff.mpr hne
  rw [List.length_drop] at hle
  omega

theorem left {x y : List UInt8} (h : f.Holds block (x ++ y)) : f.Holds block x :=
  (List.prefix_append x y).trans h

/-- What follows whole blocks starts at a block. -/
theorem right {x y : List UInt8} {k : ℕ} (h : f.Holds block (x ++ y)) (hx : x.length = 2048 * k) :
    f.Holds (block + k) y := by
  obtain ⟨rest, hrest⟩ := h
  refine ⟨rest, ?_⟩
  rw [Nat.mul_add, ← hx, ← List.drop_drop, ← hrest, List.append_assoc, List.drop_left]

/-- What is stored is read at its place. -/
theorem read {bytes : List UInt8} (h : f.Holds block bytes) :
    f.read (2048 * block) bytes.length = bytes :=
  (List.prefix_iff_eq_take.mp h).symm

/-- The sector buffer after the read of a stored block. -/
theorem seekRead {bytes : List UInt8} (h : f.Holds block bytes) (pos n : ℕ) (buffer : Memory)
    {i : ℕ} (hi : i < bytes.length) (hn : i < n) :
    (f.seekRead pos (blockOffset block) n buffer).1 i = bytes[i] := by
  have hbyte := h.getElem? hi
  obtain ⟨hlt, heq⟩ := List.getElem?_eq_some_iff.mp hbyte
  rw [seekRead_blockOffset f pos block n i buffer hn hlt, heq]

end IsoFile.Holds

end Isofs
