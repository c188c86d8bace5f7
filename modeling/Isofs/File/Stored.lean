import Isofs.File.ReadArray
import Isofs.File.Seek
import Isofs.Library.Cursor

/-!
# Reading and seeking as a cursor does

A file that the image holds is read as its bytes: `fsRead` and `fsChgFilePtr` move the position of
an open file as a cursor in these bytes is moved.
-/

namespace Isofs

/-- The file of the parameters has the bytes from `block` on. -/
structure FileOf (bytes : List UInt8) (block : ℕ) (iExtent : ℤ) (sffsi : Sffsi) : Prop where
  extent : iExtent = block
  size : sffsi.sfiSize.toNat = bytes.length

/-- The cursor of an open file. -/
def fileCursor (bytes : List UInt8) (sffsi : Sffsi) : Cursor UInt8 :=
  ⟨bytes, sffsi.sfiPosition.toNat⟩

/-- The reply to a read of `n` bytes gives what the cursor gives, and moves it on. -/
structure ReadsCursor (c : Cursor UInt8) (n : ℕ) (reply : ReadReply) : Prop where
  rc : reply.rc = .NO_ERROR
  cbLen : reply.pread.cbLen.toNat = (c.read n).length
  data : reply.pData.slice 0 reply.pread.cbLen.toNat = c.read n
  moved : fileCursor c.bytes reply.pread.sffsi = c.advance n
  size : reply.pread.sffsi.sfiSize.toNat = c.bytes.length

section Reads

variable {vol : VolData} {bytes : List UInt8} {block : ℕ} {pread : ReadParams}

/-- The clipped length is that of what the cursor gives. -/
theorem FileOf.clipLength (h : FileOf bytes block pread.iExtent pread.sffsi)
    (hpos : (fileCursor bytes pread.sffsi).pos ≤ bytes.length) :
    (clipLength pread).toNat = ((fileCursor bytes pread.sffsi).read pread.cbLen.toNat).length := by
  have hsize := h.size
  have hposition : (fileCursor bytes pread.sffsi).pos = pread.sffsi.sfiPosition.toNat := rfl
  have hbytes : (fileCursor bytes pread.sffsi).bytes = bytes := rfl
  rw [toNat_clipLength_inside (by omega), Cursor.length_read, readCount, hbytes, hposition, hsize]
  split <;> omega

/-- A read up to the end of a stored file reads as its cursor does. -/
theorem fsRead_readsCursor (hholds : vol.isoFile.Holds block bytes)
    (h : FileOf bytes block pread.iExtent pread.sffsi)
    (hpos : (fileCursor bytes pread.sffsi).pos ≤ bytes.length) (stack : Memory) (pos : ℕ)
    (pData : Memory) :
    ReadsCursor (fileCursor bytes pread.sffsi) pread.cbLen.toNat
      (fsRead vol stack pos pData pread) := by
  have hclip := h.clipLength hpos
  have hlen := fsRead_cbLen vol stack pos pData pread
  have hmoved := fsRead_sfiPosition vol stack pos pData pread
  have hlength := (fileCursor bytes pread.sffsi).length_read pread.cbLen.toNat
  have hsize := h.size
  have hlt := pread.sffsi.sfiSize.toNat_lt
  have hposition : (fileCursor bytes pread.sffsi).pos = pread.sffsi.sfiPosition.toNat := rfl
  have hbytes : (fileCursor bytes pread.sffsi).bytes = bytes := rfl
  rw [hbytes, hposition] at hlength
  refine ⟨rfl, hlen.trans hclip, ?_, ?_, hsize⟩
  · rw [hlen, hclip]
    refine List.ext_getElem (Memory.length_slice ..) fun i hi hi' => ?_
    -- byte `i` lies in the file, so it is read where it stands
    have hinside : pread.sffsi.sfiPosition.toNat + i < bytes.length := by omega
    have hbyte := hholds.getElem? hinside
    have hend := hholds.length_le (List.ne_nil_of_length_pos (Nat.zero_lt_of_lt hinside))
    have hread := @fsRead_byte vol stack pos pData pread
      (2048 * block + pread.sffsi.sfiPosition.toNat) (by rw [h.extent]; omega) (by omega) i
      (hclip ▸ hi')
    rw [Nat.add_assoc, hbyte, Option.some.injEq] at hread
    have hgiven := (fileCursor bytes pread.sffsi).getElem?_read (n := pread.cbLen.toNat) (i := i)
      (by omega)
    rw [List.getElem?_eq_getElem hi', hbytes, hposition, List.getElem?_eq_getElem hinside,
      Option.some.injEq] at hgiven
    rw [Memory.getElem_slice, Nat.zero_add, ← hread, hgiven]
  · rw [fileCursor, hmoved, hclip, Cursor.advance, hbytes, hposition, Nat.mod_eq_of_lt (by omega)]

end Reads

/-- A cursor after a seek. A seek to a position that is negative or does not fit 31 bits leaves it
where it is. -/
def seekCursor (c : Cursor UInt8) (seek : SeekType × Int32) : Cursor UInt8 :=
  { c with pos := (exactSeek c.bytes.length c.pos seek).toNat }

/-- A seek that fits moves the position as the cursor is moved. -/
theorem fsChgFilePtr_seekCursor {bytes : List UInt8} {sffsi : Sffsi} {usType : SeekType}
    {ibOffset : Int32} (hsize : sffsi.sfiSize.toNat = bytes.length)
    (hfits : SeekFits sffsi usType ibOffset) :
    fileCursor bytes (fsChgFilePtr sffsi usType ibOffset.toInt).2 =
      seekCursor (fileCursor bytes sffsi) (usType, ibOffset) := by
  have hposition := position_of_seekFits hfits
  rw [hsize] at hposition
  rw [fileCursor, seekCursor, fileCursor, ← hposition, Int.toNat_natCast]

end Isofs
