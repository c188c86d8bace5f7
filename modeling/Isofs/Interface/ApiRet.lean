import Mathlib.Data.Nat.Notation

/-!
# Return codes

The codes that the driver and the daemon return. A code of a kernel helper that neither
of them interprets is a `kernel` code.
-/

namespace Isofs

inductive ApiRet where
  | NO_ERROR
  | ERROR_FILE_NOT_FOUND
  | ERROR_PATH_NOT_FOUND
  | ERROR_ACCESS_DENIED
  | ERROR_NOT_ENOUGH_MEMORY
  | ERROR_NO_MORE_FILES
  | ERROR_WRITE_PROTECT
  | ERROR_DRIVE_LOCKED
  | ERROR_NOT_SUPPORTED
  | ERROR_INVALID_PARAMETER
  | ERROR_BUFFER_OVERFLOW
  | ERROR_NEGATIVE_SEEK
  | ERROR_EA_LIST_INCONSISTENT
  | ERROR_EAS_DIDNT_FIT
  | ERROR_EA_LIST_TOO_LONG
  | ERROR_OPEN_FAILED
  | ERROR_CANNOT_COPY
  | ERROR_FILENAME_EXCED_RANGE
  | ERROR_STUBFSD_DAEMON_NOT_RUNNING
  | ERROR_STUBFSD_DAEMON_RUNNING
  | ERROR_STUBFSD_NOT_DAEMON
  | ERROR_STUBFSD_INIT_FAILED
  | ERROR_STUBFSD_DEADLOCK
  | ERROR_AEFS_SETAEFSPARAMS
  | ERROR_ISOFS_FILEOPEN
  | ERROR_ISOFS_INVALIDOFFSET
  | ERROR_ISOFS_NOJOLIETSVD
  | ERROR_ISOFS_WRONGJOLIETUCS
  | kernel (code : ℕ)
  deriving DecidableEq, Repr, Inhabited

end Isofs
