import Isofs.Interface.Request
import Isofs.Volume.Data

/-!
# Reading an open file

`fsRead` and `fsChgFilePtr` of `fileio.c`. `ULONG` is an unsigned 32-bit word, so the
length is clipped in wrapping arithmetic; extents and seek offsets are signed 32-bit.
-/

namespace Isofs

open TwosComplement

/-- `struct read`, with the extent that `pOpenFileData` gives. -/
structure ReadParams where
  sffsi : Sffsi
  iExtent : ℤ
  cbLen : UInt16

/-- What `fsRead` leaves: its code, its parameters, the data buffer and the file position. -/
structure ReadReply where
  rc : ApiRet
  pread : ReadParams
  pData : Memory
  pos : ℕ

/-- The number of bytes that `fsRead` sets out to read. -/
def clipLength (pread : ReadParams) : UInt32 :=
  let cbLen := pread.cbLen.toUInt32
  let cbLen := if pread.sffsi.sfiSize < cbLen then pread.sffsi.sfiSize else cbLen
  if pread.sffsi.sfiSize - pread.sffsi.sfiPosition < cbLen then
    pread.sffsi.sfiSize - pread.sffsi.sfiPosition
  else cbLen

/-- The loop over the sectors behind the first: the data buffer, the bytes read and the
file position. `off` is the offset of `pData` in the data buffer. -/
def readLoop (f : IsoFile) (pos : ℕ) (buff pData : Memory) (off toRead : ℕ) (iStartExtent : ℤ)
    (cbLen bytesRead : ℕ) : Memory × ℕ × ℕ :=
  if cbLen = 0 then (pData, bytesRead, pos)
  else
    let off := off + toRead
    let toRead := if 2048 < cbLen then 2048 else cbLen
    let (buff, pos) := f.seekRead pos (IsoFile.blockOffset iStartExtent) toRead buff
    readLoop f pos buff (pData.blit off (buff.slice 0 toRead)) off toRead
      (wrap32 (iStartExtent + 1)) (cbLen - toRead) (bytesRead + toRead)
termination_by cbLen
decreasing_by split <;> omega

/-- `fsRead`. `stack` is what its sector buffer holds before the first read. -/
def fsRead (vol : VolData) (stack : Memory) (pos : ℕ) (pData : Memory) (pread : ReadParams) :
    ReadReply :=
  let cbLen := (clipLength pread).toNat
  let iStartExtent := wrap32 (pread.iExtent + (pread.sffsi.sfiPosition / 2048).toNat)
  let (buff, pos) := vol.isoFile.seekRead pos (IsoFile.blockOffset iStartExtent) 2048 stack
  let offset := (pread.sffsi.sfiPosition % 2048).toNat
  let toRead := if cbLen < 2048 - offset then cbLen else 2048 - offset
  let (pData, bytesRead, pos) := readLoop vol.isoFile pos buff
    (pData.blit 0 (buff.slice offset toRead)) 0 toRead (wrap32 (iStartExtent + 1))
    (cbLen - toRead) toRead
  { rc := .NO_ERROR
    pread :=
      { pread with
        cbLen := UInt16.ofNat bytesRead
        sffsi :=
          { pread.sffsi with
            sfiPosition := pread.sffsi.sfiPosition + UInt32.ofNat bytesRead
            sfiTstamp := pread.sffsi.sfiTstamp ||| (ST_SREAD ||| ST_PREAD) } }
    pData := pData
    pos := pos }

/-- `usType` of a seek. -/
inductive SeekType where
  | FILE_BEGIN
  | FILE_CURRENT
  | FILE_END
  | unknown
  deriving DecidableEq, Repr

/-- A seek relative to `base`. -/
def seekFrom (sffsi : Sffsi) (base : UInt32) (ibOffset : ℤ) : ApiRet × Sffsi :=
  let lNewPos := wrap32 (wrap32 base.toNat + ibOffset)
  if lNewPos < 0 then (.ERROR_NEGATIVE_SEEK, sffsi)
  else (.NO_ERROR, { sffsi with sfiPosition := UInt32.ofInt lNewPos })

/-- `fsChgFilePtr`. -/
def fsChgFilePtr (sffsi : Sffsi) (usType : SeekType) (ibOffset : ℤ) : ApiRet × Sffsi :=
  match usType with
  | .FILE_BEGIN => (.NO_ERROR, { sffsi with sfiPosition := UInt32.ofInt ibOffset })
  | .FILE_CURRENT => seekFrom sffsi sffsi.sfiPosition ibOffset
  | .FILE_END => seekFrom sffsi sffsi.sfiSize ibOffset
  | .unknown => (.ERROR_NOT_SUPPORTED, sffsi)

end Isofs
