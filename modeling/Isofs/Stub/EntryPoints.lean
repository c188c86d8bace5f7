import Isofs.Stub.Eaop

/-!
# The entry points of the driver

The `FS_*` functions of `stubfsd.c` that use the exchange buffers, each as its `fill` and
its `finish` statements in the frame `exchange`. A structure that a pointer parameter
points to is passed as its value; a null pointer is `none`. `FS_INIT`, `FS_MOUNT`,
`FS_SHUTDOWN`, `FS_FILEIO`, `FS_NMPIPE` and `FS_SETSWAP` do not use the buffers.
-/

namespace Isofs

namespace Stub

open Proc

variable {δ : Type} (env : StubEnv δ)

/-- `if (strlen(psz) >= max) RELEASE_AND_EXIT(ERROR_INVALID_PARAMETER);` -/
def checkString (psz : List UInt8) (max : ℕ) : Stub δ Unit :=
  onlyIf (max ≤ psz.length) (releaseAndExit env .ERROR_INVALID_PARAMETER)

/-- A probe whose failure releases the buffers with `ERROR_INVALID_PARAMETER`. -/
def probeOrRelease (site : ProbeSite) (p : Ptr) (len : UInt16) : Stub δ Unit := do
  let rc ← probe env site p len
  releaseOnError env rc .ERROR_INVALID_PARAMETER

/-- The checks of a parameter buffer in `FS_FSCTL` and `FS_IOCTL`. -/
def checkParms (cbMaxParm : UInt16) (ppcbParm : Ptr) (pcbParm : UInt16) (pParm : Ptr) :
    Stub δ Unit := do
  mustProbe env .pcbParm ppcbParm 2
  onlyIf (cbMaxParm < pcbParm) (ret .ERROR_INVALID_PARAMETER)
  onlyIf (pcbParm ≠ 0) (mustProbe env .parmRead pParm pcbParm)

/-- `pRequest->rc`. -/
def requestRc : Stub δ ApiRet := getRequest (·.rc)

/-- The copy of the result data that ends `FS_FSCTL` and `FS_IOCTL`. -/
def finishControl (pcbData pData : Ptr) (cbMaxData : UInt16) : Stub δ ApiRet := do
  let cbData ← getRequest (·.cbData)
  onlyIf (cbData ≠ 0) do
    probeOrRelease env .pcbData pcbData 2
    store (.cbData cbData)
    let rc ← requestRc
    onlyIf (rc = .NO_ERROR) do
      onlyIf (cbMaxData < cbData) (releaseAndExit env .ERROR_INVALID_PARAMETER)
      probeOrRelease env .dataWrite pData cbData
      copyOut pData cbData
  requestRc

/-- `FS_FSCTL` with a function that the driver does not know itself. -/
def fsFsCtl (iArgType usFunc : UInt16) (pParm : Ptr) (cbMaxParm : UInt16) (ppcbParm : Ptr)
    (pcbParm : UInt16) (pData : Ptr) (cbMaxData : UInt16) (pcbData : Ptr) : Stub δ Empty := do
  onlyIf (iArgType ≠ FSCTL_ARG_FILEINSTANCE ∧ iArgType ≠ FSCTL_ARG_CURDIR ∧
    iArgType ≠ FSCTL_ARG_NULL) (ret .ERROR_NOT_SUPPORTED)
  onlyIf (cbMaxParm ≠ 0) (checkParms env cbMaxParm ppcbParm pcbParm pParm)
  exchange env
    (do
      setRequest fun r =>
        { r with
          rq := .FSRQ_FSCTL, iArgType := iArgType, usFunc := usFunc,
          cbParm := if cbMaxParm ≠ 0 then pcbParm else 0, cbMaxData := cbMaxData, cbData := 0 }
      onlyIf (cbMaxParm ≠ 0) (copyIn pParm pcbParm))
    (finishControl env pcbData pData cbMaxData)

/-- `FS_ATTACH`. `pvpfsd` is the pointer that the volume work area starts with. -/
def fsAttach (fsFlag : UInt16) (pszDev : List UInt8) (pvpfsd : Option Ptr) (pcdfsd : Option Cdfsd)
    (pParm : Ptr) (pcbParm : UInt16) : Stub δ Empty := do
  onlyIf (fsFlag = FSA_DETACH ∧ env.daemonAtDetach = false) (ret .NO_ERROR)
  exchange env
    (do
      setRequest fun r => { r with rq := .FSRQ_ATTACH, fsFlag := fsFlag }
      checkString env pszDev FSXCHG_ATTACH_DEVMAX
      setRequest fun r =>
        { r with
          szDev := pszDev, pVolData := pvpfsd.getD r.pVolData, cdfsd := pcdfsd.getD r.cdfsd,
          cbParm := pcbParm }
      onlyIf ((fsFlag = FSA_ATTACH ∨ fsFlag = FSA_DETACH) ∧ pcbParm ≠ 0) do
        probeOrRelease env .parmRead pParm pcbParm
        copyIn pParm pcbParm)
    (do
      onlyIf (fsFlag = FSA_ATTACH_INFO) do
        let cbParm ← getRequest (·.cbParm)
        store (.cbParm cbParm)
        let rc ← requestRc
        onlyIf (cbParm ≠ 0 ∧ rc = .NO_ERROR) do
          probeOrRelease env .parmWrite pParm cbParm
          copyOut pParm cbParm
      let pVolData ← getRequest (·.pVolData)
      onlyIf (pvpfsd ≠ none) (store (.vpfsd pVolData))
      let cdfsd ← getRequest (·.cdfsd)
      onlyIf (pcdfsd ≠ none) (store (.cdfsd cdfsd))
      requestRc)

/-- `FS_IOCTL`. -/
def fsIoctl (sffsi : Sffsi) (psffsd : Ptr) (usCat usFunc : UInt16) (pParm : Ptr)
    (cbMaxParm : UInt16) (ppcbParm : Ptr) (pcbParm : UInt16) (pData : Ptr) (cbMaxData : UInt16)
    (pcbData : Ptr) : Stub δ Empty :=
  exchange env
    (do
      setRequest fun r =>
        { r with
          rq := .FSRQ_IOCTL, pVolData := env.queryVPFSD sffsi.sfiHVPB, sffsi := sffsi,
          pOpenFileData := psffsd, usCat := usCat, usFunc := usFunc,
          cbParm := if cbMaxParm ≠ 0 then pcbParm else 0, cbMaxData := cbMaxData, cbData := 0 }
      -- these checks return without releasing the exchange buffers
      onlyIf (cbMaxParm ≠ 0) do
        checkParms env cbMaxParm ppcbParm pcbParm pParm
        copyIn pParm pcbParm)
    (finishControl env pcbData pData cbMaxData)

/-- `FS_FSINFO`. -/
def fsFsInfo (fsFlag hVPB : UInt16) (pData : Ptr) (cbData usLevel : UInt16) : Stub δ Empty :=
  exchange env
    (do
      setRequest fun r =>
        { r with
          rq := .FSRQ_FSINFO, fsFlag := fsFlag, pVolData := env.queryVPFSD hVPB, cbData := cbData }
      onlyIf (fsFlag = INFO_SET ∧ cbData ≠ 0) do
        probeOrRelease env .dataRead pData cbData
        copyIn pData cbData
      setRequest fun r => { r with usLevel := usLevel })
    (do
      let rc ← requestRc
      onlyIf (fsFlag = INFO_RETRIEVE ∧ rc = .NO_ERROR) do
        let cbData ← getRequest (·.cbData)
        onlyIf (cbData ≠ 0) do
          probeOrRelease env .dataWrite pData cbData
          copyOut pData cbData
      requestRc)

/-- `FS_FLUSHBUF`. -/
def fsFlushBuf (hVPB fsFlag : UInt16) : Stub δ Empty :=
  exchange env
    (setRequest fun r =>
      { r with rq := .FSRQ_FLUSHBUF, pVolData := env.queryVPFSD hVPB, fsFlag := fsFlag })
    requestRc

/-- `FS_OPENCREATE`. -/
def fsOpenCreate (cdfsi : Cdfsi) (cdfsd : Cdfsd) (pszName : List UInt8) (iCurDirEnd : UInt16)
    (sffsi : Sffsi) (flOpenMode : UInt32) (fsOpenFlag fsAttr : UInt16) (pEABuf : Option Ptr) :
    Stub δ Empty :=
  exchange env
    (do
      setRequest fun r =>
        { r with
          rq := .FSRQ_OPENCREATE, pVolData := env.queryVPFSD cdfsi.cdiHVPB, cdfsi := cdfsi,
          cdfsd := cdfsd }
      checkString env pszName CCHMAXPATH
      setRequest fun r =>
        { r with
          szName := pszName, iCurDirEnd := iCurDirEnd, sffsi := sffsi, flOpenMode := flOpenMode,
          fsOpenFlag := fsOpenFlag, fsAttr := fsAttr }
      match pEABuf with
      | some pEABuf => do
        let rc ← call (copyEAOP env .pre pEABuf CEA_FEAS_TO_BUF 0)
        releaseOnError env rc rc
        setRequest fun r => { r with fHasEAs := true }
      | none => setRequest fun r => { r with fHasEAs := false })
    (do
      let sffsi ← getRequest (·.sffsi)
      store (.sffsi sffsi)
      let pOpenFileData ← getRequest (·.pOpenFileData)
      onlyIf (sffsi.sfiType = STYPE_FILE) (store (.sffsd pOpenFileData))
      let usAction ← getRequest (·.usAction)
      store (.usAction usAction)
      let fsGenFlag ← getRequest (·.fsGenFlag)
      store (.fsGenFlag fsGenFlag)
      match pEABuf with
      | some pEABuf => do
        let oError ← getRequest (·.oError)
        let rc ← call (copyEAOP env .post pEABuf CEA_SET_OERROR oError)
        releaseOnError env rc rc
        requestRc
      | none => requestRc)

/-- The request on an open file: its volume, its `sffsi` and its `OpenFileData`. -/
def fileRequest (rq : RequestCode) (sffsi : Sffsi) (psffsd : Ptr) (r : Request) : Request :=
  { r with
    rq := rq, pVolData := env.queryVPFSD sffsi.sfiHVPB, sffsi := sffsi, pOpenFileData := psffsd }

/-- `*psffsi = p->sffsi;` -/
def returnSffsi : Stub δ Unit := do
  let sffsi ← getRequest (·.sffsi)
  store (.sffsi sffsi)

/-- An entry point that passes its `sffsi` to the daemon and back. -/
def fileExchange (fill : Request → Request) : Stub δ Empty :=
  exchange env (setRequest fill)
    (do
      returnSffsi
      requestRc)

/-- `FS_CLOSE`. -/
def fsClose (usType fsIOFlag : UInt16) (sffsi : Sffsi) (psffsd : Ptr) : Stub δ Empty :=
  fileExchange env fun r =>
    { fileRequest env .FSRQ_CLOSE sffsi psffsd r with usType := usType, fsIOFlag := fsIOFlag }

/-- `FS_READ`. -/
def fsRead (sffsi : Sffsi) (psffsd pData : Ptr) (pcbLen fsIOFlag : UInt16) : Stub δ Empty :=
  exchange env
    (setRequest fun r =>
      { fileRequest env .FSRQ_READ sffsi psffsd r with
        cbLen := pcbLen.toUInt32, fsIOFlag := fsIOFlag })
    (do
      returnSffsi
      let cbLen ← getRequest fun r => r.cbLen.toUInt16
      store (.cbLen cbLen)
      onlyIf (cbLen ≠ 0) do
        probeOrRelease env .dataWrite pData cbLen
        copyOut pData cbLen
      requestRc)

/-- `FS_WRITE`. -/
def fsWrite (sffsi : Sffsi) (psffsd pData : Ptr) (pcbLen fsIOFlag : UInt16) : Stub δ Empty :=
  exchange env
    (do
      setRequest fun r =>
        { fileRequest env .FSRQ_WRITE sffsi psffsd r with
          cbLen := pcbLen.toUInt32, fsIOFlag := fsIOFlag }
      onlyIf (pcbLen ≠ 0) do
        probeOrRelease env .dataRead pData pcbLen
        copyIn pData pcbLen)
    (do
      returnSffsi
      let cbLen ← getRequest fun r => r.cbLen.toUInt16
      store (.cbLen cbLen)
      requestRc)

/-- `FS_CHGFILEPTR`. -/
def fsChgFilePtr (sffsi : Sffsi) (psffsd : Ptr) (ibOffset : ℤ) (usType fsIOFlag : UInt16) :
    Stub δ Empty :=
  fileExchange env fun r =>
    { fileRequest env .FSRQ_CHGFILEPTR sffsi psffsd r with
      ibOffset := ibOffset, usType := usType, fsIOFlag := fsIOFlag }

/-- `FS_NEWSIZE`. -/
def fsNewSize (sffsi : Sffsi) (psffsd : Ptr) (cbLen : UInt32) (fsIOFlag : UInt16) : Stub δ Empty :=
  fileExchange env fun r =>
    { fileRequest env .FSRQ_NEWSIZE sffsi psffsd r with cbLen := cbLen, fsIOFlag := fsIOFlag }

/-- `FS_COMMIT`. -/
def fsCommit (usType fsIOFlag : UInt16) (sffsi : Sffsi) (psffsd : Ptr) : Stub δ Empty :=
  fileExchange env fun r =>
    { fileRequest env .FSRQ_COMMIT sffsi psffsd r with usType := usType, fsIOFlag := fsIOFlag }

/-- `FS_FILEINFO`. The result of `copyFileInfoBufPre` is not looked at. -/
def fsFileInfo (fsFlag : UInt16) (sffsi : Sffsi) (psffsd : Ptr) (usLevel : UInt16) (pData : Ptr)
    (cbData fsIOFlag : UInt16) : Stub δ Empty :=
  exchange env
    (do
      setRequest fun r =>
        { fileRequest env .FSRQ_FILEINFO sffsi psffsd r with
          fsFlag := fsFlag, usLevel := usLevel, cbData := cbData, fsIOFlag := fsIOFlag }
      let _ ← call (copyFileInfoBufPre env fsFlag usLevel cbData pData))
    (do
      returnSffsi
      let oError ← getRequest (·.oError)
      let rc2 ← call (copyFileInfoBufPost env fsFlag usLevel cbData pData oError)
      let rc ← requestRc
      return if rc ≠ .NO_ERROR then rc else rc2)

/-- The head of a request on a path: the directory structures, then the checked name. -/
def pathRequest (rq : RequestCode) (cdfsi : Cdfsi) (cdfsd : Cdfsd) (pszName : List UInt8)
    (iCurDirEnd : UInt16) : Stub δ Unit := do
  setRequest fun r =>
    { r with
      rq := rq, pVolData := env.queryVPFSD cdfsi.cdiHVPB, cdfsi := cdfsi, cdfsd := cdfsd }
  checkString env pszName CCHMAXPATH
  setRequest fun r => { r with szName := pszName, iCurDirEnd := iCurDirEnd }

/-- `FS_FILEATTRIBUTE`. -/
def fsFileAttribute (fsFlag : UInt16) (cdfsi : Cdfsi) (cdfsd : Cdfsd) (pszName : List UInt8)
    (iCurDirEnd pfsAttr : UInt16) : Stub δ Empty :=
  exchange env
    (do
      pathRequest env .FSRQ_FILEATTRIBUTE cdfsi cdfsd pszName iCurDirEnd
      setRequest fun r =>
        { r with fsFlag := fsFlag, fsAttr := if fsFlag &&& FA_SET ≠ 0 then pfsAttr else r.fsAttr })
    (do
      let rc ← requestRc
      let fsAttr ← getRequest (·.fsAttr)
      onlyIf (fsFlag &&& FA_SET = 0 ∧ rc = .NO_ERROR) (store (.fsAttr fsAttr))
      requestRc)

/-- `FS_PATHINFO`. The result of `copyFileInfoBufPre` is not looked at. -/
def fsPathInfo (fsFlag : UInt16) (cdfsi : Cdfsi) (cdfsd : Cdfsd) (pszName : List UInt8)
    (iCurDirEnd usLevel : UInt16) (pData : Ptr) (cbData : UInt16) : Stub δ Empty :=
  exchange env
    (do
      pathRequest env .FSRQ_PATHINFO cdfsi cdfsd pszName iCurDirEnd
      setRequest fun r => { r with fsFlag := fsFlag, usLevel := usLevel, cbData := cbData }
      let _ ← call (copyFileInfoBufPre env fsFlag usLevel cbData pData))
    (do
      let oError ← getRequest (·.oError)
      let rc2 ← call (copyFileInfoBufPost env fsFlag usLevel cbData pData oError)
      let rc ← requestRc
      return if rc ≠ .NO_ERROR then rc else rc2)

/-- `FS_DELETE`. -/
def fsDelete (cdfsi : Cdfsi) (cdfsd : Cdfsd) (pszName : List UInt8) (iCurDirEnd : UInt16) :
    Stub δ Empty :=
  exchange env (pathRequest env .FSRQ_DELETE cdfsi cdfsd pszName iCurDirEnd) requestRc

/-- `FS_RMDIR`. -/
def fsRmDir (cdfsi : Cdfsi) (cdfsd : Cdfsd) (pszName : List UInt8) (iCurDirEnd : UInt16) :
    Stub δ Empty :=
  exchange env (pathRequest env .FSRQ_RMDIR cdfsi cdfsd pszName iCurDirEnd) requestRc

/-- An entry point that passes nothing but its request code. -/
def plainExchange (rq : RequestCode) : Stub δ Empty :=
  exchange env (setRequest fun r => { r with rq := rq }) requestRc

/-- `FS_COPY`. -/
def fsCopy : Stub δ Empty := plainExchange env .FSRQ_COPY

/-- `FS_FINDNOTIFYFIRST`. -/
def fsFindNotifyFirst : Stub δ Empty := plainExchange env .FSRQ_FINDNOTIFYFIRST

/-- `FS_FINDNOTIFYNEXT`. -/
def fsFindNotifyNext : Stub δ Empty := plainExchange env .FSRQ_FINDNOTIFYNEXT

/-- `FS_FINDNOTIFYCLOSE`. -/
def fsFindNotifyClose : Stub δ Empty := plainExchange env .FSRQ_FINDNOTIFYCLOSE

/-- `FS_MOVE`. -/
def fsMove (cdfsi : Cdfsi) (cdfsd : Cdfsd) (pszSrc : List UInt8) (iSrcCurDirEnd : UInt16)
    (pszDst : List UInt8) (iDstCurDirEnd : UInt16) : Stub δ Empty :=
  exchange env
    (do
      pathRequest env .FSRQ_MOVE cdfsi cdfsd pszSrc iSrcCurDirEnd
      checkString env pszDst CCHMAXPATH
      setRequest fun r => { r with szDst := pszDst, iDstCurDirEnd := iDstCurDirEnd })
    requestRc

/-- `FS_CHDIR`. -/
def fsChDir (fsFlag : UInt16) (cdfsi : Cdfsi) (cdfsd : Cdfsd) (pszDir : List UInt8)
    (iCurDirEnd : UInt16) : Stub δ Empty :=
  exchange env
    (do
      setRequest fun r => { r with rq := .FSRQ_CHDIR, fsFlag := fsFlag }
      onlyIf (fsFlag = CD_EXPLICIT ∨ fsFlag = CD_VERIFY) do
        setRequest fun r =>
          { r with pVolData := env.queryVPFSD cdfsi.cdiHVPB, cdfsi := cdfsi }
        onlyIf (fsFlag = CD_EXPLICIT) do
          checkString env pszDir CCHMAXPATH
          setRequest fun r => { r with szName := pszDir }
      setRequest fun r => { r with cdfsd := cdfsd, iCurDirEnd := iCurDirEnd })
    (do
      let cdfsd ← getRequest (·.cdfsd)
      onlyIf (fsFlag = CD_EXPLICIT ∨ fsFlag = CD_VERIFY) (store (.cdfsd cdfsd))
      requestRc)

/-- `FS_MKDIR`. -/
def fsMkDir (cdfsi : Cdfsi) (cdfsd : Cdfsd) (pszName : List UInt8) (iCurDirEnd : UInt16)
    (pEABuf : Option Ptr) : Stub δ Empty :=
  exchange env
    (do
      pathRequest env .FSRQ_MKDIR cdfsi cdfsd pszName iCurDirEnd
      match pEABuf with
      | some pEABuf => do
        let rc ← call (copyEAOP env .pre pEABuf CEA_FEAS_TO_BUF 0)
        releaseOnError env rc rc
        setRequest fun r => { r with fHasEAs := true }
      | none => setRequest fun r => { r with fHasEAs := false })
    (match pEABuf with
      | some pEABuf => do
        let oError ← getRequest (·.oError)
        let rc ← call (copyEAOP env .post pEABuf CEA_SET_OERROR oError)
        releaseOnError env rc rc
        requestRc
      | none => requestRc)

/-- The GEA list of a level 3 search. An error returns without releasing the exchange
buffers. -/
def findEAsPre (usLevel : UInt16) (pData : Ptr) : Stub δ Unit :=
  onlyIf (usLevel = FIL_QUERYEASFROMLIST) do
    let rc ← call (copyEAOP env .pre pData CEA_GEAS_TO_BUF 0)
    returnOnError rc
    setRequest fun r => { r with cbData := r.cbData - sizeofEAOP }

/-- `undoFindFirst`. -/
def undoFindFirst (cdfsi : Cdfsi) : Stub δ Empty := do
  setRequest fun r => { r with rq := .FSRQ_FINDCLOSE, pVolData := env.queryVPFSD cdfsi.cdiHVPB }
  signalDaemonAndWait env .undo

/-- What `FS_FINDFIRST` does before it gives up a search that the daemon has opened. -/
def undoAndRelease (cdfsi : Cdfsi) (rc : ApiRet) : Stub δ Unit := do
  let rc2 ← call (undoFindFirst env cdfsi)
  releaseOnError env rc2 rc2
  releaseAndExit env rc

/-- The result data of a search, copied behind the `EAOP` at level 3. `giveUp` ends the entry
point with an error. -/
def copyFindData (giveUp : ApiRet → Stub δ Unit) (usLevel : UInt16) (pData : Ptr)
    (cbData : UInt16) : Stub δ Unit := do
  let rc ← requestRc
  onlyIf (rc = .NO_ERROR ∨ rc = .ERROR_EAS_DIDNT_FIT) do
    let rc ← probe env .dataWrite pData cbData
    onlyIf (rc ≠ .NO_ERROR) (giveUp .ERROR_INVALID_PARAMETER)
    if usLevel = FIL_QUERYEASFROMLIST then do
      let oError ← getRequest (·.oError)
      let rc ← call (copyEAOP env .post pData CEA_SET_OERROR oError)
      onlyIf (rc ≠ .NO_ERROR) (giveUp rc)
      copyOut (pData + sizeofEAOP.toNat) (cbData - sizeofEAOP)
    else
      copyOut pData cbData

/-- `*pcMatch = p->cMatch;` and the code of the request. -/
def finishFind : Stub δ ApiRet := do
  let cMatch ← getRequest (·.cMatch)
  store (.cMatch cMatch)
  requestRc

/-- `FS_FINDFIRST`. -/
def fsFindFirst (cdfsi : Cdfsi) (cdfsd : Cdfsd) (pszName : List UInt8)
    (iCurDirEnd fsAttr : UInt16) (pData : Ptr) (cbData pcMatch usLevel fsFlags : UInt16) :
    Stub δ Empty :=
  exchange env
    (do
      pathRequest env .FSRQ_FINDFIRST cdfsi cdfsd pszName iCurDirEnd
      setRequest fun r =>
        { r with
          fsAttr := fsAttr, cbData := cbData, cMatch := pcMatch, usLevel := usLevel,
          fsFlags := fsFlags }
      findEAsPre env usLevel pData)
    (do
      copyFindData env (undoAndRelease env cdfsi) usLevel pData cbData
      let pSearchData ← getRequest (·.pSearchData)
      store (.fsfsd pSearchData)
      finishFind)

/-- The request of a search that is open. -/
def searchRequest (rq : RequestCode) (hVPB : UInt16) (pfsfsd : Ptr)
    (cbData pcMatch usLevel fsFlags : UInt16) (r : Request) : Request :=
  { r with
    rq := rq, pVolData := env.queryVPFSD hVPB, pSearchData := pfsfsd, cbData := cbData,
    cMatch := pcMatch, usLevel := usLevel, fsFlags := fsFlags }

/-- `FS_FINDNEXT`. -/
def fsFindNext (hVPB : UInt16) (pfsfsd pData : Ptr) (cbData pcMatch usLevel fsFlags : UInt16) :
    Stub δ Empty :=
  exchange env
    (do
      setRequest (searchRequest env .FSRQ_FINDNEXT hVPB pfsfsd cbData pcMatch usLevel fsFlags)
      findEAsPre env usLevel pData)
    (do
      copyFindData env (releaseAndExit env) usLevel pData cbData
      finishFind)

/-- `FS_FINDFROMNAME`. -/
def fsFindFromName (hVPB : UInt16) (pfsfsd pData : Ptr) (cbData pcMatch usLevel : UInt16)
    (ulPosition : UInt32) (pszName : List UInt8) (fsFlags : UInt16) : Stub δ Empty :=
  exchange env
    (do
      setRequest fun r =>
        { searchRequest env .FSRQ_FINDFROMNAME hVPB pfsfsd cbData pcMatch usLevel fsFlags r with
          ulPosition := ulPosition }
      checkString env pszName CCHMAXPATH
      setRequest fun r => { r with szName := pszName }
      findEAsPre env usLevel pData)
    (do
      copyFindData env (releaseAndExit env) usLevel pData cbData
      finishFind)

/-- `FS_FINDCLOSE`. -/
def fsFindClose (hVPB : UInt16) (pfsfsd : Ptr) : Stub δ Empty :=
  exchange env
    (setRequest fun r =>
      { r with rq := .FSRQ_FINDCLOSE, pVolData := env.queryVPFSD hVPB, pSearchData := pfsfsd })
    requestRc

/-- `FS_PROCESSNAME`. -/
def fsProcessName (pszName : List UInt8) : Stub δ Empty :=
  exchange env
    (do
      setRequest fun r => { r with rq := .FSRQ_PROCESSNAME }
      checkString env pszName CCHMAXPATH
      setRequest fun r => { r with szName := pszName })
    (do
      let szName ← getRequest (·.szName)
      store (.szName szName)
      requestRc)

end Stub

end Isofs
