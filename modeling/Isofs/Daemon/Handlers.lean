import Isofs.Daemon.Walks
import Isofs.File.Read

/-!
# The handlers of the daemon

The requests that use volumes, open files and searches, as `attach.c`, `openclose.c`,
`fileio.c`, `fileinfo.c`, `dir.c` and `find.c` handle them.
-/

namespace Isofs

def OPEN_ACTION_FAIL_IF_EXISTS : UInt16 := 0
def OPEN_ACTION_OPEN_IF_EXISTS : UInt16 := 1
def OPEN_ACTION_REPLACE_IF_EXISTS : UInt16 := 2
def OPEN_FLAGS_DASD : UInt32 := 0x8000
def OPEN_ACCESS_WRITEONLY : UInt32 := 1
def OPEN_ACCESS_READWRITE : UInt32 := 2
def FILE_EXISTED : UInt16 := 1
def FS_CL_FORSYS : UInt16 := 2
def CD_FREE : UInt16 := 2
def DP_FORCE : ℕ := 1

/-- `sizeof(AEFS_DETACH)`. -/
def sizeofAefsDetach : UInt16 := 4

namespace Daemon

open Proc

/-- `VERIFYFIXED(szName) || verifyPathName(szName)`. -/
def badPath (szName : List UInt8) : Bool := verifyString szName CCHMAXPATH || verifyPathName szName

/-! ### Volumes -/

/-- `parms->flFlags & DP_FORCE`. -/
def isForced (request : Request) (pData : Memory) : Bool :=
  request.cbParm = sizeofAefsDetach && pData.le32 0 &&& DP_FORCE ≠ 0

/-- Take a volume out of the list. -/
def unlink (server : ServerData) (node : VolNode) : ServerData :=
  let volumes := if node.pNext ≠ 0 then
      server.volumes.modify node.pNext fun next => { next with pPrev := node.pPrev }
    else server.volumes
  if node.pPrev ≠ 0 then
    { server with
      volumes := volumes.modify node.pPrev fun prev => { prev with pNext := node.pNext } }
  else { server with volumes := volumes, pFirstVolume := node.pNext }

/-- `detachVolume`. -/
def detachVolume : Handler Empty := do
  let p ← read (·.request)
  let forced ← read fun s => isForced s.request s.pData
  let node ← access volumes p.pVolData
  onlyIf (node.cOpenFiles ≠ 0 ∧ ¬ forced) (done .ERROR_DRIVE_LOCKED)
  onlyIf (node.cSearches ≠ 0 ∧ ¬ forced) (done .ERROR_DRIVE_LOCKED)
  accessLink volumes node.pNext
  accessLink volumes node.pPrev
  update fun s =>
    let server := (unlink s.server node).countTable node.vol.nls (-1)
    { s with
      server :=
        { server with
          isoFiles := server.isoFiles - 1
          volumes := server.volumes.free p.pVolData } }
  done .NO_ERROR

/-- `attachVolume`. -/
def attachVolume (env : Env) : Handler ApiRet := do
  let s ← read id
  match Isofs.attachVolume env.mount env.fuel s.pData s.request s.server with
  | none => ret .waiting
  | some (rc, request, server) => do
    -- a volume that is linked becomes the one before the first one
    onlyIf (rc = .NO_ERROR) (accessLink volumes s.server.pFirstVolume)
    update fun s => { s with request := request, server := server }
    return rc

/-- `queryAttachmentInfo`. -/
def queryAttachmentInfo : Handler Empty := do
  let p ← read (·.request)
  setRequest fun r => { r with cbParm := 2 }
  onlyIf (p.cbParm < 2) (done .ERROR_BUFFER_OVERFLOW)
  update fun s => { s with pData := s.pData.clear 2 }
  done .NO_ERROR

/-- `fsAttach`. -/
def fsAttach (env : Env) : Handler Empty := do
  let p ← read (·.request)
  onlyIf (verifyString p.szDev FSXCHG_ATTACH_DEVMAX ∨ p.szDev.length ≠ 2 ∨
    p.szDev.getD 1 0 ≠ 0x3a) (done .ERROR_INVALID_PARAMETER)
  if p.fsFlag = FSA_ATTACH then do
    let rc ← attachVolume env
    update fun s => { s with pData := s.pData.clear sizeofAefsAttach.toNat }
    done rc
  else if p.fsFlag = FSA_DETACH then detachVolume
  else if p.fsFlag = FSA_ATTACH_INFO then queryAttachmentInfo
  else done .ERROR_NOT_SUPPORTED

/-! ### Files -/

/-- `isoToSffsi`, and the flag for a name that is not in 8.3 format. -/
def isoToSffsi (psffsi : Sffsi) (pszName : List UInt8) (pIsoDirEntry : IsoDirEntry) : Sffsi :=
  let date := UInt16.ofNat (fdate pIsoDirEntry)
  let time := UInt16.ofNat (ftime pIsoDirEntry)
  let attr := (psffsi.sfiDOSattr &&& ~~~(UInt8.ofNat FILE_NON83)) |||
    UInt8.ofNat pIsoDirEntry.flFlags
  { psffsi with
    sfiCdate := date, sfiCtime := time, sfiAdate := date, sfiAtime := time
    sfiMdate := date, sfiMtime := time
    sfiSize := UInt32.ofInt pIsoDirEntry.iSize
    sfiPosition := 0
    sfiType := (psffsi.sfiType &&& STYPE_FCB) ||| STYPE_FILE
    sfiDOSattr := if hasNon83Name pszName then attr ||| UInt8.ofNat FILE_NON83 else attr }

/-- `finalizeOpen`. -/
def finalizeOpen (env : Env) (pszName : List UInt8) (pIsoDirEntry : IsoDirEntry) (node : Ptr) :
    Handler Empty := do
  onlyIf (env.malloc = false) (done .ERROR_NOT_ENOUGH_MEMORY)
  let p ← read fun s => s.openFiles.next
  update fun s =>
    { s with
      openFiles := (s.openFiles.malloc
        ⟨pIsoDirEntry.iExtent, pIsoDirEntry.iSize, pszName, node, pIsoDirEntry⟩).2 }
  setRequest fun r => { r with pOpenFileData := p, usAction := FILE_EXISTED }
  let pVolData ← read (·.request.pVolData)
  let _ ← access volumes pVolData
  setVolume pVolData fun node => { node with cOpenFiles := node.cOpenFiles + 1 }
  setRequest fun r => { r with szName := pszName, sffsi := isoToSffsi r.sffsi pszName pIsoDirEntry }
  done .NO_ERROR

/-- Release the entry and return. -/
def freeAndReturn (node : Ptr) (rc : ApiRet) : Handler Empty := do
  freeEntry node
  done rc

/-- The part of `fsOpenCreate` for a path that has an entry. -/
def openFound (env : Env) (p : Request) (pIsoDirEntry : IsoDirEntry) (node : Ptr) :
    Handler Empty :=
  let action := p.fsOpenFlag &&& 0x000f
  if action = OPEN_ACTION_FAIL_IF_EXISTS then freeAndReturn node .ERROR_OPEN_FAILED
  else if CCHMAXPATH ≤ pIsoDirEntry.chrName.length then
    freeAndReturn node .ERROR_FILENAME_EXCED_RANGE
  else if pIsoDirEntry.flFlags &&& FILE_DIRECTORY ≠ 0 then freeAndReturn node .ERROR_ACCESS_DENIED
  else if action = OPEN_ACTION_OPEN_IF_EXISTS then
    -- OS/2 itself opens executables with access mode 3
    if p.flOpenMode &&& 3 = 3 then finalizeOpen env pIsoDirEntry.chrName pIsoDirEntry node
    else if (p.flOpenMode &&& OPEN_ACCESS_WRITEONLY) |||
        (p.flOpenMode &&& OPEN_ACCESS_READWRITE) ≠ 0 then freeAndReturn node .ERROR_ACCESS_DENIED
    else finalizeOpen env pIsoDirEntry.chrName pIsoDirEntry node
  else if action = OPEN_ACTION_REPLACE_IF_EXISTS then freeAndReturn node .ERROR_ACCESS_DENIED
  else freeAndReturn node .ERROR_NOT_SUPPORTED

/-- `fsOpenCreate`. -/
def fsOpenCreate (env : Env) : Handler Empty := do
  setRequest fun r => { r with pOpenFileData := 0, fsGenFlag := 0, oError := 0 }
  let p ← read (·.request)
  onlyIf (badPath p.szName) (done .ERROR_INVALID_PARAMETER)
  onlyIf (p.flOpenMode &&& OPEN_FLAGS_DASD ≠ 0) (done .ERROR_NOT_SUPPORTED)
  let node ← access volumes p.pVolData
  let (found, _) ← isoQueryIsoEntryFromPath node.vol.toVolData env (p.szName.drop 2)
  match found with
  | some (pIsoDirEntry, node) => openFound env p pIsoDirEntry node
  | none => done .ERROR_OPEN_FAILED

/-- `fsClose`. -/
def fsClose : Handler Empty := do
  let p ← read (·.request)
  onlyIf (p.usType = FS_CL_FORSYS) do
    let file ← access State.openFiles p.pOpenFileData
    freeEntry file.pIsoEntry
    update fun s => { s with openFiles := s.openFiles.free p.pOpenFileData }
    let _ ← access volumes p.pVolData
    setVolume p.pVolData fun node => { node with cOpenFiles := node.cOpenFiles - 1 }
  done .NO_ERROR

/-- `fsRead`. -/
def fsRead (env : Env) : Handler Empty := do
  let p ← read (·.request)
  let node ← access volumes p.pVolData
  let file ← access State.openFiles p.pOpenFileData
  let pData ← read (·.pData)
  let r := Isofs.fsRead node.vol.toVolData env.sectorStack env.pos pData
    ⟨p.sffsi, file.iExtent, UInt16.ofNat p.cbLen.toNat⟩
  setRequest fun q => { q with sffsi := r.pread.sffsi, cbLen := r.pread.cbLen.toUInt32 }
  setData r.pData
  done r.rc

/-! ### Information -/

/-- `fsFileInfo`. -/
def fsFileInfo (env : Env) : Handler Empty := do
  let p ← read (·.request)
  let file ← access State.openFiles p.pOpenFileData
  let _ ← access volumes p.pVolData
  let pData ← read (·.pData)
  let (rc, pData) := doFileInfo p.fsFlag p.usLevel p.cbData env.stack pData file.isoEntry
  setData pData
  done rc

/-- `fsPathInfo`. -/
def fsPathInfo (env : Env) : Handler Empty := do
  let p ← read (·.request)
  onlyIf (badPath p.szName) (done .ERROR_INVALID_PARAMETER)
  let node ← access volumes p.pVolData
  let (found, _) ← isoQueryIsoEntryFromPath node.vol.toVolData env (p.szName.drop 2)
  match found with
  | none => done .ERROR_PATH_NOT_FOUND
  | some (pIsoDirEntry, node) => do
    let pData ← read (·.pData)
    let (rc, pData) := doFileInfo p.fsFlag p.usLevel p.cbData env.stack pData pIsoDirEntry
    setData pData
    freeAndReturn node rc

/-- `fsFileAttribute`. -/
def fsFileAttribute (env : Env) : Handler Empty := do
  let p ← read (·.request)
  onlyIf (badPath p.szName) (done .ERROR_INVALID_PARAMETER)
  let node ← access volumes p.pVolData
  let (found, _) ← isoQueryIsoEntryFromPath node.vol.toVolData env (p.szName.drop 2)
  match found with
  | none => done .ERROR_PATH_NOT_FOUND
  | some (pIsoDirEntry, node) =>
    if p.fsFlag &&& FA_SET ≠ 0 then freeAndReturn node .ERROR_WRITE_PROTECT
    else do
      setRequest fun r => { r with fsAttr := UInt16.ofNat (dosFlags pIsoDirEntry.stMode) }
      freeAndReturn node .NO_ERROR

/-- `changeDir`. -/
def changeDir (env : Env) : Handler Empty := do
  let p ← read (·.request)
  onlyIf (badPath p.szName) (done .ERROR_INVALID_PARAMETER)
  let node ← access volumes p.pVolData
  let iExtent ← isoQueryDirExtentFromPath node.vol.toVolData env node.vol.iRootExtent
    (p.szName.drop 2)
  onlyIf (iExtent = 0) (done .ERROR_PATH_NOT_FOUND)
  done .NO_ERROR

/-- `fsChDir`. -/
def fsChDir (env : Env) : Handler Empty := do
  let p ← read (·.request)
  onlyIf (verifyString p.cdfsi.cdiCurdir CCHMAXPATH) (done .ERROR_INVALID_PARAMETER)
  if p.fsFlag = CD_EXPLICIT then changeDir env
  else if p.fsFlag = CD_VERIFY ∨ p.fsFlag = CD_FREE then done .NO_ERROR
  else done .ERROR_NOT_SUPPORTED

end Daemon

end Isofs
