import Mathlib.Data.List.DropRight
import Isofs.Find.Names
import Isofs.Info.FileInfo

/-!
# Directory searches

`find.c`: a search keeps a cursor in the entry list of its directory, and every call stores
the records of the entries that match behind one another in the data buffer. As a ghost, a
reply holds the places in the entry list of the entries that the call delivers.
-/

namespace Isofs

/-! ### The search criteria -/

/-- `SearchData`. The cursor `pIsoNext` is a place in the entry list, or its length. -/
structure SearchData where
  szName : List UInt8
  flAttr : ℕ
  pFirstInIsoDir : List IsoDirEntry
  pIsoNext : ℕ
  iNext : ℤ

def FILE_NON83 : ℕ := 0x40
def CDF_HIDDEN : ℕ := 2
def CFF_IWUSR : ℕ := 0o200
def CFF_OS2A : ℕ := 0o2000000

/-- `entryMatches`. -/
def entryMatches (pSearchData : SearchData) (pEntry : IsoDirEntry) : Bool :=
  if pEntry.flFlags &&& CDF_HIDDEN ≠ 0 ∧ pSearchData.flAttr &&& FILE_HIDDEN = 0 then false
  else if pEntry.flFlags &&& CDF_HIDDEN = 0 ∧ pSearchData.flAttr &&& (FILE_HIDDEN <<< 8) ≠ 0 then
    false
  else if pSearchData.flAttr &&& FILE_NON83 = 0 ∧ hasNon83Name pEntry.chrName then false
  else nameMatches pSearchData.szName pEntry.chrName

/-- `fileMatches2`. -/
def fileMatches2 (pSearchData : SearchData) (pEntry : IsoDirEntry) : Bool :=
  let flAttr := pSearchData.flAttr
  let fDir := pEntry.flFlags &&& FILE_DIRECTORY ≠ 0
  let fSystem := pEntry.flFlags &&& FILE_SYSTEM ≠ 0
  if fDir ∧ flAttr &&& FILE_DIRECTORY = 0 then false
  else if ¬ fDir ∧ flAttr &&& (FILE_DIRECTORY <<< 8) ≠ 0 then false
  else if fSystem ∧ flAttr &&& FILE_SYSTEM = 0 then false
  else if ¬ fSystem ∧ flAttr &&& (FILE_SYSTEM <<< 8) ≠ 0 then false
  else if pEntry.flFlags &&& CFF_IWUSR ≠ 0 ∧ flAttr &&& (FILE_READONLY <<< 8) ≠ 0 then false
  else if pEntry.flFlags &&& CFF_OS2A = 0 ∧ flAttr &&& (FILE_ARCHIVED <<< 8) ≠ 0 then false
  else true

/-! ### The cursor -/

/-- The entry at the cursor. -/
def SearchData.pEntryAt? (s : SearchData) : Option IsoDirEntry := s.pFirstInIsoDir[s.pIsoNext]?

/-- `advanceSearch`. -/
def advanceSearch (s : SearchData) : SearchData :=
  { s with pIsoNext := s.pIsoNext + 1, iNext := TwosComplement.wrap32 (s.iNext + 1) }

/-- An entry whose name `strupr` has changed. -/
def IsoDirEntry.strupr (pEntry : IsoDirEntry) : IsoDirEntry :=
  { pEntry with
    chrName := Isofs.strupr pEntry.chrName
    chrName_length_lt := by
      rw [length_strupr]
      exact pEntry.chrName_length_lt
    chrName_no_nul := zero_notMem_strupr pEntry.chrName_no_nul }

/-- The entry as it is stored: without `FILE_NON83` its name is in upper case. -/
def SearchData.storedEntry (s : SearchData) (pEntry : IsoDirEntry) : IsoDirEntry :=
  if s.flAttr &&& FILE_NON83 = 0 then pEntry.strupr else pEntry

/-- Replace the entry at the cursor. -/
def SearchData.setEntry (s : SearchData) (pEntry : IsoDirEntry) : SearchData :=
  { s with pFirstInIsoDir := s.pFirstInIsoDir.set s.pIsoNext pEntry }

theorem SearchData.cursor_lt {s : SearchData} {pEntry : IsoDirEntry}
    (h : s.pEntryAt? = some pEntry) : s.pIsoNext < s.pFirstInIsoDir.length :=
  (List.getElem?_eq_some_iff.mp h).1

/-! ### Storing the entries -/

/-- `storeNextFileInfo`: its code, the search and the data buffer. -/
def storeNextFileInfo (pgeas : Option Memory) (ulLevel flFlags : UInt16) (s : SearchData)
    (buf : OutBuf) : ApiRet × SearchData × OutBuf :=
  match _h : s.pEntryAt? with
  | none => (.ERROR_NO_MORE_FILES, s, buf)
  | some pEntry =>
    if entryMatches s pEntry ∧ fileMatches2 s pEntry then
      let pEntry := s.storedEntry pEntry
      let (rc, buf) :=
        (storeFileInfo pgeas (some pEntry.chrName) ulLevel flFlags s.iNext pEntry).run buf
      let s := s.setEntry pEntry
      if rc ≠ .NO_ERROR then (rc, s, buf) else (.NO_ERROR, advanceSearch s, buf)
    else storeNextFileInfo pgeas ulLevel flFlags (advanceSearch s) buf
termination_by s.pFirstInIsoDir.length - s.pIsoNext
decreasing_by
  have := SearchData.cursor_lt _h
  simp only [advanceSearch]
  omega

/-- What the loop of `storeDirContents` ends with: the code of `storeNextFileInfo`, the search,
the data buffer and the places of the entries stored. -/
structure StoredEntries where
  rc : ApiRet
  search : SearchData
  buf : OutBuf
  stored : List ℕ

/-- The loop of `storeDirContents`, with `cLeft` entries still to be added. -/
def storeEntries (pgeas : Option Memory) (ulLevel flFlags : UInt16) (cLeft : ℕ) (s : SearchData)
    (buf : OutBuf) : StoredEntries :=
  match cLeft with
  | 0 => ⟨.NO_ERROR, s, buf, []⟩
  | cLeft + 1 =>
    let (rc, s, buf) := storeNextFileInfo pgeas ulLevel flFlags s buf
    if rc ≠ .NO_ERROR then ⟨rc, s, buf, []⟩
    else
      let r := storeEntries pgeas ulLevel flFlags cLeft s buf
      { r with stored := (s.pIsoNext - 1) :: r.stored }

/-- What a call on a search leaves: its code, `*pcMatch`, the search, the data buffer and the
places of the entries delivered. -/
structure FindReply where
  rc : ApiRet
  cMatch : UInt16
  search : SearchData
  pData : Memory
  delivered : List ℕ

/-- The codes that end a batch which is not empty. -/
def endsBatch (rc : ApiRet) : Bool :=
  rc = .ERROR_BUFFER_OVERFLOW ∨ rc = .ERROR_EAS_DIDNT_FIT ∨ rc = .ERROR_NO_MORE_FILES

/-- What `storeDirContents` does behind its loop. -/
def finishBatch (r : StoredEntries) : FindReply :=
  if r.rc = .NO_ERROR ∨ (r.stored ≠ [] ∧ endsBatch r.rc) then
    ⟨.NO_ERROR, UInt16.ofNat r.stored.length, r.search, r.buf.mem, r.stored⟩
  else if r.rc = .ERROR_EAS_DIDNT_FIT then
    -- the entry is delivered without its attributes, and the next query goes on behind it
    ⟨r.rc, 1, advanceSearch r.search, r.buf.mem, [r.search.pIsoNext]⟩
  else ⟨r.rc, 0, r.search, r.buf.mem, []⟩

/-- `storeDirContents`. -/
def storeDirContents (s : SearchData) (pgeas : Option Memory) (pData : Memory) (cbData ulLevel
    cMatch flFlags : UInt16) : FindReply :=
  if cMatch = 0 then ⟨.ERROR_INVALID_PARAMETER, cMatch, s, pData, []⟩
  else
    finishBatch (storeEntries pgeas ulLevel flFlags cMatch.toNat s ⟨pData, 0, cbData.toNat⟩)

/-! ### The requests -/

/-- What the three requests end with. -/
def storeMatches (stack : Memory) (s : SearchData) (pData : Memory) (p : Request) : FindReply :=
  storeDirContents s (copyGeas stack pData p.usLevel) pData p.cbData p.usLevel p.cMatch p.fsFlags

/-- `fsFindNext`. -/
def fsFindNext (stack : Memory) (pSearchData : SearchData) (pData : Memory)
    (pfindnext : Request) : FindReply :=
  storeMatches stack pSearchData pData pfindnext

/-- `verifyString` of a C string. -/
def verifyString (pszStr : List UInt8) (cbMaxLen : ℕ) : Bool := cbMaxLen ≤ pszStr.length

/-- `fsFindFromName`; it does not use the name and the position. -/
def fsFindFromName (stack : Memory) (pSearchData : SearchData) (pData : Memory)
    (pfindfromname : Request) : FindReply :=
  if verifyString pfindfromname.szName CCHMAXPATH then
    ⟨.ERROR_INVALID_PARAMETER, pfindfromname.cMatch, pSearchData, pData, []⟩
  else storeMatches stack pSearchData pData pfindfromname

/-- `verifyPathName`: whether a name does not start with a drive and a separator. -/
def verifyPathName (pszName : List UInt8) : Bool :=
  match pszName with
  | _ :: 0x3a :: c :: _ => !isPathSeparator c
  | _ => true

/-- `splitPath` of a path that starts with a separator: what stands before the separators
before the last component, and the last component. -/
def splitPath (pszFull : List UInt8) : List UInt8 × List UInt8 :=
  let pszPrefix := (pszFull.rdropWhile (!isPathSeparator ·)).rdropWhile isPathSeparator
  (if pszPrefix.length ≤ 1 then [] else pszPrefix, pszFull.rtakeWhile (!isPathSeparator ·))

/-- The entries of the directory that a search is for, or the error of its path, and the file
position. -/
def searchedDir (vol : VolData) (stack : Memory) (pos : ℕ) (szDir : List UInt8) :
    Option (Except ApiRet (List IsoDirEntry) × ℕ) :=
  if szDir ≠ [] then
    match isoQueryIsoEntryFromPath vol stack pos szDir with
    | none => none
    | some ⟨none, pos, _⟩ => some (.error .ERROR_PATH_NOT_FOUND, pos)
    | some ⟨some pIsoDirEntry, pos, _⟩ =>
      if pIsoDirEntry.isDir then
        (getDirEntries vol stack pos pIsoDirEntry.iExtent pIsoDirEntry.iSize).map
          fun (entries, pos) => (.ok entries, pos)
      else some (.error .ERROR_PATH_NOT_FOUND, pos)
  else
    (getDirEntries vol stack pos vol.iRootExtent (rootRecordSize vol)).map
      fun (entries, pos) => (.ok entries, pos)

/-- What a search meets: whether `malloc` succeeds and what its memory holds in place of
`iNext`, and the stack under the sector buffer and behind the GEA list. -/
structure FindEnv where
  malloc : Bool
  iNext : ℤ
  sectorStack : Memory
  stack : Memory

/-- What `fsFindFirst` leaves: its code, `*pcMatch`, the search unless its `pSearchData` is
null, the volume, the data buffer, the file position and the places of the entries delivered. -/
structure FindFirstReply where
  rc : ApiRet
  cMatch : UInt16
  search : Option SearchData
  volume : VolNode
  pData : Memory
  pos : ℕ
  delivered : List ℕ

/-- An `fsFindFirst` that fails before it has stored anything. -/
def findFirstFails (rc : ApiRet) (node : VolNode) (pData : Memory) (pfindfirst : Request)
    (pos : ℕ) : FindFirstReply :=
  ⟨rc, pfindfirst.cMatch, none, node, pData, pos, []⟩

/-- The search that `fsFindFirst` sets up. `iNext` is not initialised. -/
def newSearch (env : FindEnv) (pfindfirst : Request) (entries : List IsoDirEntry) : SearchData where
  szName := (splitPath (pfindfirst.szName.drop 2)).2
  flAttr := pfindfirst.fsAttr.toNat
  pFirstInIsoDir := entries
  pIsoNext := 0
  iNext := env.iNext

/-- The first batch of a search. Only a batch that succeeds leaves the search open. -/
def findFirstIn (env : FindEnv) (node : VolNode) (pData : Memory) (pfindfirst : Request)
    (entries : List IsoDirEntry) (pos : ℕ) : FindFirstReply :=
  if entries = [] then findFirstFails .ERROR_FILE_NOT_FOUND node pData pfindfirst pos
  else
    let r := storeMatches env.stack (newSearch env pfindfirst entries) pData pfindfirst
    if r.rc ≠ .NO_ERROR ∧ r.rc ≠ .ERROR_EAS_DIDNT_FIT then
      ⟨r.rc, r.cMatch, none, node, r.pData, pos, r.delivered⟩
    else
      ⟨r.rc, r.cMatch, some r.search, { node with cSearches := node.cSearches + 1 }, r.pData, pos,
        r.delivered⟩

/-- The checks of `fsFindFirst` before it looks for the directory. -/
def checkFindFirst (env : FindEnv) (pfindfirst : Request) : ApiRet :=
  if verifyString pfindfirst.szName CCHMAXPATH ∨ verifyPathName pfindfirst.szName then
    .ERROR_INVALID_PARAMETER
  else if pfindfirst.usLevel ≠ FIL_STANDARD ∧ pfindfirst.usLevel ≠ FIL_QUERYEASIZE ∧
      pfindfirst.usLevel ≠ FIL_QUERYEASFROMLIST then .ERROR_NOT_SUPPORTED
  else if env.malloc = false then .ERROR_NOT_ENOUGH_MEMORY
  else if (splitPath (pfindfirst.szName.drop 2)).2 = [] then .ERROR_INVALID_PARAMETER
  else .NO_ERROR

/-- `fsFindFirst`; nothing when the daemon exits. -/
def fsFindFirst (env : FindEnv) (node : VolNode) (pos : ℕ) (pData : Memory)
    (pfindfirst : Request) : Option FindFirstReply :=
  let rc := checkFindFirst env pfindfirst
  if rc ≠ .NO_ERROR then some (findFirstFails rc node pData pfindfirst pos)
  else
    let szDir := (splitPath (pfindfirst.szName.drop 2)).1
    match searchedDir node.vol.toVolData env.sectorStack pos szDir with
    | none => none
    | some (.error rc, pos) => some (findFirstFails rc node pData pfindfirst pos)
    | some (.ok entries, pos) => some (findFirstIn env node pData pfindfirst entries pos)

end Isofs
