import Isofs.Stub.Exchange

/-!
# Extended attributes and file information buffers

`copyEAOP`, `copyFileInfoBufPre` and `copyFileInfoBufPost` of `stubfsd.c`. An `EAOP`
holds the pointers to the GEA list and the FEA list and the error offset, four bytes each.
`memcpy` takes a 16-bit length, so a list of 65536 bytes is copied as one of none.
-/

namespace Isofs

namespace Stub

open Proc

variable {δ : Type} (env : StubEnv δ)

def CEA_FEAS_TO_BUF : UInt16 := 1
def CEA_BUF_TO_FEAS : UInt16 := 2
def CEA_GEAS_TO_BUF : UInt16 := 8
def CEA_SET_OERROR : UInt16 := 16

/-- A probe that must succeed. -/
def mustProbe (site : ProbeSite) (p : Ptr) (len : UInt16) : Stub δ Unit := do
  let rc ← probe env site p len
  onlyIf (rc ≠ .NO_ERROR) (ret .ERROR_INVALID_PARAMETER)

theorem mustProbe_of_ok {env : StubEnv δ} {site : ProbeSite} (h : env.probe site = .NO_ERROR)
    (p : Ptr) (len : UInt16) (s : StubState δ) :
    mustProbe env site p len s = (.ok (), { s with trace := .probe site p len :: s.trace }) := by
  rw [mustProbe, bind_apply, probe_apply]
  simp only [onlyIf_of_false (not_not.mpr h)]
  rfl

theorem mustProbe_of_error {env : StubEnv δ} {site : ProbeSite} (h : env.probe site ≠ .NO_ERROR)
    (p : Ptr) (len : UInt16) (s : StubState δ) :
    mustProbe env site p len s =
      (.error .ERROR_INVALID_PARAMETER, { s with trace := .probe site p len :: s.trace }) := by
  rw [mustProbe, bind_apply, probe_apply]
  simp only [onlyIf_of_true h]
  rfl

/-- The bounds on the length of a list that is copied in. -/
def checkListLength (cbList : ℕ) : Stub δ Unit := do
  onlyIf (cbList < 4) (ret .ERROR_EA_LIST_INCONSISTENT)
  onlyIf (65536 < cbList) (ret .ERROR_EA_LIST_TOO_LONG)

/-- Store `pEABuf->oError`. -/
def setOError (pEABuf : Ptr) (oError : UInt16) : Stub δ Unit :=
  update fun s =>
    { s with
      caller := s.caller.blit (pEABuf + 8) (Memory.le32Bytes oError.toNat)
      trace := .copyOut (pEABuf + 8) 4 :: s.trace }

/-- `((PFEALIST) pFSData)->cbList`. -/
def exchangeListLength : Stub δ ℕ := fun s =>
  (.ok (s.pFSData.le32 0), { s with trace := .exchange :: s.trace })

/-- Copy a list whose length is readable from the caller to the data buffer. -/
def listToBuf (turn : Turn) (site : EaopProbe) (p : Ptr) : Stub δ Unit := do
  let cbList ← read fun s => s.caller.le32 p
  checkListLength cbList
  mustProbe env (.eaop turn site) p (UInt16.ofNat cbList)
  copyIn p (UInt16.ofNat cbList)

/-- Copy the FEA list of the data buffer to the caller. -/
def bufToFeas (turn : Turn) (pfeas : Ptr) : Stub δ Unit := do
  let cbList ← exchangeListLength
  let cbMax ← read fun s => s.caller.le32 pfeas
  -- an overflow is noted in `rcfinal`, which is never returned
  let cbList := if 65536 < cbList ∨ cbMax < cbList then cbMax else cbList
  mustProbe env (.eaop turn .feaWrite) pfeas (UInt16.ofNat cbList)
  copyOut pfeas (UInt16.ofNat cbList)

/-- `copyEAOP`. -/
def copyEAOP (turn : Turn) (pEABuf : Ptr) (usWhat oError : UInt16) : Stub δ Empty := do
  mustProbe env (.eaop turn .eaopRead) pEABuf sizeofEAOP
  let pgeas ← read fun s => s.caller.le32 pEABuf
  let pfeas ← read fun s => s.caller.le32 (pEABuf + 4)
  onlyIf (usWhat &&& CEA_SET_OERROR ≠ 0) do
    mustProbe env (.eaop turn .eaopWrite) pEABuf sizeofEAOP
    setOError pEABuf oError
  onlyIf (usWhat &&& CEA_FEAS_TO_BUF ≠ 0 ∨ usWhat &&& CEA_BUF_TO_FEAS ≠ 0) do
    mustProbe env (.eaop turn .feaLength) pfeas 4
    onlyIf (usWhat &&& CEA_FEAS_TO_BUF ≠ 0) (listToBuf env turn .feaRead pfeas)
    onlyIf (usWhat &&& CEA_BUF_TO_FEAS ≠ 0) (bufToFeas env turn pfeas)
  onlyIf (usWhat &&& CEA_GEAS_TO_BUF ≠ 0) do
    mustProbe env (.eaop turn .geaLength) pgeas 4
    listToBuf env turn .geaRead pgeas
  ret .NO_ERROR

/-- `copyFileInfoBufPre`. Its `RELEASE_AND_EXIT` returns from this function only. -/
def copyFileInfoBufPre (fsFlag usLevel cbData : UInt16) (pData : Ptr) : Stub δ Empty :=
  if fsFlag &&& FI_SET ≠ 0 then
    if usLevel = 2 then do
      let rc ← call (copyEAOP env .pre pData CEA_FEAS_TO_BUF 0)
      returnOnError rc
      ret .NO_ERROR
    else do
      let rc ← probe env .dataRead pData cbData
      releaseOnError env rc .ERROR_INVALID_PARAMETER
      copyIn pData cbData
      ret .NO_ERROR
  else if usLevel = 3 then do
    let rc ← call (copyEAOP env .pre pData CEA_GEAS_TO_BUF 0)
    returnOnError rc
    ret .NO_ERROR
  else
    ret .NO_ERROR

/-- `copyFileInfoBufPost`. Its `RELEASE_AND_EXIT` returns from this function only. -/
def copyFileInfoBufPost (fsFlag usLevel cbData : UInt16) (pData : Ptr) (oError : UInt16) :
    Stub δ Empty :=
  if fsFlag &&& FI_SET ≠ 0 then
    if usLevel = 2 then do
      let rc ← call (copyEAOP env .post pData CEA_SET_OERROR oError)
      returnOnError rc
      ret .NO_ERROR
    else
      ret .NO_ERROR
  else if usLevel = 3 then do
    let rc ← call (copyEAOP env .post pData (CEA_BUF_TO_FEAS ||| CEA_SET_OERROR) oError)
    returnOnError rc
    ret .NO_ERROR
  else if usLevel = 4 then do
    let rc ← call (copyEAOP env .post pData CEA_BUF_TO_FEAS 0)
    returnOnError rc
    ret .NO_ERROR
  else do
    let rc ← probe env .dataWrite pData cbData
    releaseOnError env rc .ERROR_INVALID_PARAMETER
    copyOut pData cbData
    ret .NO_ERROR

end Stub

end Isofs
