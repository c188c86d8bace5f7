import Isofs.Directory.Entries
import Isofs.Library.Components

/-!
# Resolving a path

The two walks of `isoaccess.c` from the root directory along the components of a path:
`isoQueryIsoEntryFromPath` for an entry, `isoQueryDirExtentFromPath` for the extent of a
directory. Both keep a file position between their listings and, as a ghost, the entries
whose contents they list.
-/

namespace Isofs

open Components

/-- `IS_PATH_SEPARATOR`. -/
def isPathSeparator (c : UInt8) : Bool := c = 0x2f || c = 0x5c

/-- `tolower` in the C locale. -/
def tolower (c : UInt8) : UInt8 := if 0x41 ≤ c ∧ c ≤ 0x5a then c + 0x20 else c

/-- `strnicmp(s, t, n) == 0` of two strings of length `n`. -/
def equalNoCase (s t : List UInt8) : Bool := s.map tolower = t.map tolower

/-- The name test of both walks: the lengths are compared first. -/
def matchesComponent (component : List UInt8) (pEntry : IsoDirEntry) : Bool :=
  pEntry.chrName.length = component.length && equalNoCase pEntry.chrName component

/-- The size that the root directory record of the volume descriptor gives. -/
def rootRecordSize (vol : VolData) : ℤ := isonum733 vol.ipd (rootRecord + 10)

/-- The entry made up for a path without components. -/
def rootEntry (vol : VolData) : IsoDirEntry where
  flFlags := FILE_READONLY ||| FILE_DIRECTORY
  iExtent := vol.iRootExtent
  iSize := vol.iRootSize
  iParentExtent := 0
  chrName := []
  stSize := 0
  stMode := .S_IFDIR
  dateBuf := vol.ipd.slice (rootRecord + 18) 9
  chrName_length_lt := by decide
  chrName_no_nul := List.not_mem_nil
  flFlags_eq := rfl

/-- What a walk ends with: its result, the file position and the entries listed. -/
structure Walk (ρ : Type) where
  result : ρ
  pos : ℕ
  listed : List IsoDirEntry

/-- A walk that went on after listing the contents of `found`, or of the root. -/
def Walk.after {ρ : Type} (found : Option IsoDirEntry) (w : Walk ρ) : Walk ρ :=
  { w with listed := found.toList ++ w.listed }

/-- The extent and the length that `isoQueryIsoEntryFromPath` lists next. -/
def contentsOf (vol : VolData) (tempEntry : Option IsoDirEntry) : ℤ × ℤ :=
  match tempEntry with
  | none => (vol.iRootExtent, rootRecordSize vol)
  | some e => (e.iExtent, e.iSize)

/-- The loop of `isoQueryIsoEntryFromPath`. `tempEntry` is absent while `bFirstFound` is
false. -/
def entryLoop (vol : VolData) (stack : Memory) (pos : ℕ) (tempEntry : Option IsoDirEntry)
    (pszPath : List UInt8) : Option (Walk (Option IsoDirEntry)) :=
  match _h : skipSeparators isPathSeparator pszPath with
  | [] => some ⟨some (tempEntry.getD (rootEntry vol)), pos, []⟩
  | c :: cs =>
    let (extent, len) := contentsOf vol tempEntry
    match getDirEntries vol stack pos extent len with
    | none => none
    | some (entries, pos) =>
      match entries.find? (matchesComponent (piece isPathSeparator (c :: cs))) with
      | none => some ⟨none, pos, tempEntry.toList⟩
      | some pEntry =>
        (entryLoop vol stack pos (some pEntry) (afterPiece isPathSeparator (c :: cs))).map
          (·.after tempEntry)
termination_by pszPath.length
decreasing_by exact length_afterPiece_lt isPathSeparator _h

/-- `isoQueryIsoEntryFromPath`: no entry is the result `NULL`. -/
def isoQueryIsoEntryFromPath (vol : VolData) (stack : Memory) (pos : ℕ) (pszPath : List UInt8) :
    Option (Walk (Option IsoDirEntry)) :=
  entryLoop vol stack pos none pszPath

/-- The loop of `isoQueryDirExtentFromPath`: the extent and the size at its `break`, or
nothing at one of its `return 0`. An `iExtent` of zero stands for the root; `found` is the
entry that `iExtent` and `iSize` come from. -/
def dirExtentLoop (vol : VolData) (stack : Memory) (pos : ℕ) (iRootExtent : ℤ)
    (found : Option IsoDirEntry) (iExtent iSize : ℤ) (pszPath : List UInt8) :
    Option (Walk (Option (ℤ × ℤ))) :=
  match _h : skipSeparators isPathSeparator pszPath with
  | [] => some ⟨some (if iExtent = 0 then iRootExtent else iExtent, iSize), pos, []⟩
  | c :: cs =>
    let (extent, len, source) :=
      if iExtent = 0 then (iRootExtent, rootRecordSize vol, none) else (iExtent, iSize, found)
    match getDirEntries vol stack pos extent len with
    | none => none
    | some (entries, pos) =>
      match entries.find? (matchesComponent (piece isPathSeparator (c :: cs))) with
      | none => some ⟨none, pos, source.toList⟩
      | some pEntry =>
        if pEntry.isDir then
          (dirExtentLoop vol stack pos iRootExtent (some pEntry) pEntry.iExtent pEntry.iSize
            (afterPiece isPathSeparator (c :: cs))).map (·.after source)
        else some ⟨none, pos, source.toList⟩
termination_by pszPath.length
decreasing_by exact length_afterPiece_lt isPathSeparator _h

/-- The value returned and the value stored through `pSize`, if any. -/
def dirExtentResult (pSize : Bool) : Option (ℤ × ℤ) → ℤ × Option ℤ
  | none => (0, none)
  | some (iExtent, iSize) => (iExtent, if pSize then some iSize else none)

/-- `isoQueryDirExtentFromPath`; `pSize` says whether the caller's pointer is not null. -/
def isoQueryDirExtentFromPath (vol : VolData) (stack : Memory) (pos : ℕ) (iRootExtent : ℤ)
    (pszPath : List UInt8) (pSize : Bool) : Option (Walk (ℤ × Option ℤ)) :=
  (dirExtentLoop vol stack pos iRootExtent none 0 (if pSize then vol.iRootSize else 0) pszPath).map
    fun w => ⟨dirExtentResult pSize w.result, w.pos, w.listed⟩

end Isofs
