import Isofs.Interface.ApiRet
import Isofs.Library.Memory

/-!
# Requests

The structures of `fsd.h` and `stubfsd.h` that pass between the kernel, the driver and
the daemon, as far as the driver or the daemon reads or writes them. Pointers are
addresses.
-/

namespace Isofs

/-- A pointer that the driver or the daemon only passes on or dereferences as a whole. -/
abbrev Ptr := ℕ

/-- `struct sffsi`. -/
structure Sffsi where
  sfiHVPB : UInt16
  sfiCtime : UInt16
  sfiCdate : UInt16
  sfiAtime : UInt16
  sfiAdate : UInt16
  sfiMtime : UInt16
  sfiMdate : UInt16
  sfiSize : UInt32
  sfiPosition : UInt32
  sfiTstamp : UInt8
  sfiType : UInt16
  sfiDOSattr : UInt8
  deriving DecidableEq, Inhabited

/-- `struct cdfsi`. -/
structure Cdfsi where
  cdiHVPB : UInt16
  cdiEnd : UInt16
  cdiFlags : UInt8
  cdiCurdir : List UInt8
  deriving DecidableEq, Inhabited

/-- `struct cdfsd`: a work area. -/
abbrev Cdfsd := List UInt8

def ST_SREAD : UInt8 := 16
def ST_PREAD : UInt8 := 32
def STYPE_FILE : UInt16 := 0
def STYPE_FCB : UInt16 := 4
def FSA_ATTACH : UInt16 := 0
def FSA_DETACH : UInt16 := 1
def FSA_ATTACH_INFO : UInt16 := 2
def CD_EXPLICIT : UInt16 := 0
def CD_VERIFY : UInt16 := 1
def FA_SET : UInt16 := 1
def FI_SET : UInt16 := 1
def FF_GETPOS : UInt16 := 1
def INFO_RETRIEVE : UInt16 := 0
def INFO_SET : UInt16 := 1
def FSCTL_ARG_FILEINSTANCE : UInt16 := 1
def FSCTL_ARG_CURDIR : UInt16 := 2
def FSCTL_ARG_NULL : UInt16 := 3
def FIL_STANDARD : UInt16 := 1
def FIL_QUERYEASIZE : UInt16 := 2
def FIL_QUERYEASFROMLIST : UInt16 := 3
def CCHMAXPATH : ℕ := 260
def FSXCHG_ATTACH_DEVMAX : ℕ := 8

/-- `sizeof(EAOP)`: two far pointers and the error offset. -/
def sizeofEAOP : UInt16 := 12

/-- The request codes. -/
inductive RequestCode where
  | FSRQ_FSCTL
  | FSRQ_ATTACH
  | FSRQ_IOCTL
  | FSRQ_FSINFO
  | FSRQ_FLUSHBUF
  | FSRQ_OPENCREATE
  | FSRQ_CLOSE
  | FSRQ_READ
  | FSRQ_WRITE
  | FSRQ_CHGFILEPTR
  | FSRQ_NEWSIZE
  | FSRQ_FILEATTRIBUTE
  | FSRQ_FILEINFO
  | FSRQ_COMMIT
  | FSRQ_PATHINFO
  | FSRQ_DELETE
  | FSRQ_COPY
  | FSRQ_MOVE
  | FSRQ_CHDIR
  | FSRQ_MKDIR
  | FSRQ_RMDIR
  | FSRQ_FINDFIRST
  | FSRQ_FINDNEXT
  | FSRQ_FINDFROMNAME
  | FSRQ_FINDCLOSE
  | FSRQ_FINDNOTIFYFIRST
  | FSRQ_FINDNOTIFYNEXT
  | FSRQ_FINDNOTIFYCLOSE
  | FSRQ_PROCESSNAME
  deriving DecidableEq, Repr, Inhabited

/-- `FSREQUEST`. Fields of one name in the members of the union are one field here: the code
reads no field of a member that it did not write to that member, except for results. -/
structure Request where
  rq : RequestCode
  rc : ApiRet
  pVolData : Ptr
  pOpenFileData : Ptr
  pSearchData : Ptr
  cdfsi : Cdfsi
  cdfsd : Cdfsd
  sffsi : Sffsi
  iArgType : UInt16
  usFunc : UInt16
  usCat : UInt16
  fsFlag : UInt16
  usType : UInt16
  fsIOFlag : UInt16
  usLevel : UInt16
  cbParm : UInt16
  cbMaxData : UInt16
  cbData : UInt16
  cbLen : UInt32
  cMatch : UInt16
  fsFlags : UInt16
  fsAttr : UInt16
  ulPosition : UInt32
  ibOffset : ℤ
  flOpenMode : UInt32
  fsOpenFlag : UInt16
  usAction : UInt16
  fHasEAs : Bool
  oError : UInt16
  fsGenFlag : UInt16
  iCurDirEnd : UInt16
  iDstCurDirEnd : UInt16
  szDev : List UInt8
  szName : List UInt8
  szDst : List UInt8
  deriving DecidableEq, Inhabited

end Isofs
