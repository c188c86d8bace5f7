import Mathlib.Data.List.TakeWhile
import Isofs.Volume.Image

/-!
# Attached volumes and directory entries

The data of `aefsdmn.h` and `iso9660.h` that the ISO access code reads: the
volume descriptor kept in `VolData`, the translation table, and the directory
entries that `getDirEntries` builds.
-/

namespace Isofs

open TwosComplement

/-- The C string that starts a character array. -/
def cString (chars : List UInt8) : List UInt8 := chars.takeWhile (· ≠ 0)

theorem length_cString_le (chars : List UInt8) : (cString chars).length ≤ chars.length :=
  (List.takeWhile_sublist _).length_le

theorem zero_notMem_cString (chars : List UInt8) : 0 ∉ cString chars := by
  intro h
  have := List.mem_takeWhile_imp h
  simp at this

/-- `page_uni2charset` of a loaded translation table: a page is absent (`NULL`) or
maps the low byte of a UCS-2 character to a codepage byte. -/
structure NlsTable where
  pageUni2charset : UInt8 → Option (UInt8 → UInt8)

/-- `VolData`, as far as the ISO access code reads it. `ipd` is the volume
descriptor selected by the mount. -/
structure VolData where
  isoFile : IsoFile
  ipd : Memory
  iRootExtent : ℤ
  iRootSize : ℤ
  ucsLevel : ℕ
  nls : Option NlsTable

/-- A volume as a mount leaves it: `attachVolume` selects one of the three Joliet
levels before it links the volume into the list. -/
structure AttachedVolume extends VolData where
  ucsLevel_pos : 1 ≤ ucsLevel
  ucsLevel_le : ucsLevel ≤ 3

theorem one_le_three : 1 ≤ 3 := by decide

theorem three_le_three : 3 ≤ 3 := by decide

/-- `fstat_buf.st_mode` of an entry. -/
inductive FileMode where
  | S_IFREG
  | S_IFDIR
  deriving DecidableEq, Repr

def FILE_READONLY : ℕ := 0x01
def FILE_HIDDEN : ℕ := 0x02
def FILE_SYSTEM : ℕ := 0x04
def FILE_DIRECTORY : ℕ := 0x10
def FILE_ARCHIVED : ℕ := 0x20

/-- The DOS attributes of an entry of a read-only volume with the given mode. -/
def dosFlags (stMode : FileMode) : ℕ :=
  if stMode = .S_IFDIR then FILE_READONLY ||| FILE_DIRECTORY else FILE_READONLY

/-- `IsoDirEntry`. A name is a C string that fits `chrName[256]`, and the flags are
those of the mode: every entry is built so. -/
structure IsoDirEntry where
  flFlags : ℕ
  iExtent : ℤ
  iSize : ℤ
  iParentExtent : ℤ
  chrName : List UInt8
  stSize : ℤ
  stMode : FileMode
  dateBuf : List UInt8
  chrName_length_lt : chrName.length < 256
  chrName_no_nul : 0 ∉ chrName
  flFlags_eq : flFlags = dosFlags stMode
  deriving DecidableEq

/-- `S_ISDIR(pEntry->fstat_buf.st_mode)`. -/
def IsoDirEntry.isDir (e : IsoDirEntry) : Bool := e.stMode = .S_IFDIR

/-- `isonum_733`: the low half of a both-endian number, as an `int`. -/
def isonum733 (m : Memory) (p : ℕ) : ℤ := wrap32 (m.le32 p)

/-- Offset of `root_directory_record` in the volume descriptor. -/
def rootRecord : ℕ := 156

end Isofs
