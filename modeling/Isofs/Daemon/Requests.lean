import Isofs.Control.Params
import Isofs.Stub.Connection

/-!
# All requests of the daemon

The handlers that use no file and no search, and the whole `switch` of `handleRequest`: no request
that would change the disc is granted.
-/

namespace Isofs

open TwosComplement

def FSIL_ALLOC : UInt16 := 1
def FSIL_VOLSER : UInt16 := 2

/-- The sizes of `FSALLOCATE`, `FSINFO` and `VOLUMELABEL`. -/
structure FsInfoSizes where
  sizeofFSALLOCATE : UInt16
  sizeofFSINFO : UInt16
  sizeofVOLUMELABEL : UInt16

/-- `isonum_723`: a both-endian 16-bit number. -/
def isonum723 (m : Memory) (p : ℕ) : ℕ := (m p).toNat + (m (p + 1)).toNat * 2 ^ 8

/-- `FSALLOCATE` of a volume: the file system, the sectors in a unit, the units, the free units and
the bytes in a sector. -/
def fsAllocate (vol : VolData) : List UInt8 :=
  Memory.le32Bytes 0 ++ Memory.le32Bytes 1 ++
    Memory.le32Bytes (isonum733 vol.ipd 80 % 2 ^ 32).toNat ++ Memory.le32Bytes 0 ++
    le16Bytes (isonum723 vol.ipd 128)

/-- `"ISO-FS"`. -/
def defaultLabel : List UInt8 := [0x49, 0x53, 0x4f, 0x2d, 0x46, 0x53]

/-- The volume label that is given. -/
def volLabel (vol : MountedVolume) : List UInt8 :=
  if cString vol.chrCDName ≠ [] then (cString vol.chrCDName).take 11 else defaultLabel

/-- `FSINFO` of a volume: a serial number from the letter of the drive, and the label with its
length. -/
def fsInfo (vol : MountedVolume) : List UInt8 :=
  le16Bytes (vol.chDrive.toNat % 32) ++ le16Bytes (vol.chDrive.toNat % 32) ++
    UInt8.ofNat (volLabel vol).length :: volLabel vol ++
    List.replicate (12 - (volLabel vol).length) 0

namespace Daemon

open Proc

/-! ### Volumes -/

/-- `getSetAllocInfo`. -/
def getSetAllocInfo (sizes : FsInfoSizes) : Handler Empty := do
  let p ← read (·.request)
  if p.fsFlag = INFO_RETRIEVE then do
    onlyIf (p.cbData < sizes.sizeofFSALLOCATE) (done .ERROR_BUFFER_OVERFLOW)
    setRequest fun r => { r with cbData := sizes.sizeofFSALLOCATE }
    let node ← access volumes p.pVolData
    update fun s => { s with pData := s.pData.blit 0 (fsAllocate node.vol.toVolData) }
    done .NO_ERROR
  else done .ERROR_NOT_SUPPORTED

/-- `getSetVolSer`. -/
def getSetVolSer (sizes : FsInfoSizes) : Handler Empty := do
  let p ← read (·.request)
  if p.fsFlag = INFO_RETRIEVE then do
    onlyIf (p.cbData < sizes.sizeofFSINFO) (done .ERROR_BUFFER_OVERFLOW)
    setRequest fun r => { r with cbData := sizes.sizeofFSINFO }
    let node ← access volumes p.pVolData
    update fun s => { s with pData := s.pData.blit 0 (fsInfo node.vol) }
    done .NO_ERROR
  else do
    let pData ← read (·.pData)
    if p.cbData < sizes.sizeofVOLUMELABEL ∨ 11 < pData 0 then done .ERROR_INVALID_PARAMETER
    else done .ERROR_WRITE_PROTECT

/-- `fsFsInfo`. -/
def fsFsInfo (sizes : FsInfoSizes) : Handler Empty := do
  let p ← read (·.request)
  if p.usLevel = FSIL_ALLOC then getSetAllocInfo sizes
  else if p.usLevel = FSIL_VOLSER then getSetVolSer sizes
  else done .ERROR_NOT_SUPPORTED

/-- `fsFlushBuf`. -/
def fsFlushBuf : Handler Empty := done .NO_ERROR

/-! ### Requests that would change the disc -/

/-- `VERIFYFIXED` and `verifyPathName`, then write protection. -/
def refuseName (szName : Request → List UInt8) : Handler Unit := do
  let p ← read (·.request)
  onlyIf (badPath (szName p)) (done .ERROR_INVALID_PARAMETER)

/-- `fsMkDir`. -/
def fsMkDir : Handler Empty := do
  setRequest fun r => { r with oError := 0 }
  refuseName (·.szName)
  done .ERROR_WRITE_PROTECT

/-- `fsRmDir`. -/
def fsRmDir : Handler Empty := do
  refuseName (·.szName)
  done .ERROR_WRITE_PROTECT

/-- `deleteFile`. -/
def deleteFile : Handler Empty := done .ERROR_WRITE_PROTECT

/-- `fsDelete`. -/
def fsDelete : Handler Empty := do
  refuseName (·.szName)
  deleteFile

/-- `fsMove`. -/
def fsMove : Handler Empty := do
  refuseName (·.szName)
  refuseName (·.szDst)
  done .ERROR_WRITE_PROTECT

/-- `fsWrite`. -/
def fsWrite : Handler Empty := do
  setRequest fun r => { r with cbLen := 0 }
  done .ERROR_WRITE_PROTECT

/-- `fsNewSize`. -/
def fsNewSize : Handler Empty := done .ERROR_WRITE_PROTECT

/-! ### Other requests -/

/-- `fsCommit`. -/
def fsCommit : Handler Empty := done .NO_ERROR

/-- `fsIOCtl`. -/
def fsIOCtl : Handler Empty := done .ERROR_NOT_SUPPORTED

/-- `fsProcessName`. -/
def fsProcessName : Handler Empty := done .NO_ERROR

/-- What the control requests meet: the C library, the layout of an `EASIZEBUF`, the fuel of the
loop over the parameters and the settings that were made before. -/
structure ControlEnv where
  args : ArgsEnv
  easizebuf : ℕ → ℕ → List UInt8
  fuel : ℕ
  settings : Settings

/-- `fsFsCtl`. -/
def fsFsCtl (env : ControlEnv) : Handler Empty := do
  let p ← read (·.request)
  let pData ← read (·.pData)
  match Isofs.fsFsCtl env.args env.easizebuf env.fuel env.settings pData p with
  | none => ret .waiting
  | some r => do
    setRequest fun q => { q with cbData := r.cbData }
    setData r.pData
    done r.rc

/-- The handlers of the `switch` that use no file and no search. -/
def handleOther (control : ControlEnv) (sizes : FsInfoSizes) : RequestCode → Handler Empty
  | .FSRQ_FSCTL => fsFsCtl control
  | .FSRQ_IOCTL => fsIOCtl
  | .FSRQ_FSINFO => fsFsInfo sizes
  | .FSRQ_FLUSHBUF => fsFlushBuf
  | .FSRQ_WRITE => fsWrite
  | .FSRQ_NEWSIZE => fsNewSize
  | .FSRQ_COMMIT => fsCommit
  | .FSRQ_DELETE => fsDelete
  | .FSRQ_MOVE => fsMove
  | .FSRQ_COPY => done .ERROR_CANNOT_COPY
  | .FSRQ_MKDIR => fsMkDir
  | .FSRQ_RMDIR => fsRmDir
  | .FSRQ_PROCESSNAME => fsProcessName
  -- `default`
  | _ => done .ERROR_NOT_SUPPORTED

/-- The `switch` of `handleRequest`. -/
def handleAny (env : Env) (control : ControlEnv) (sizes : FsInfoSizes) (rq : RequestCode) :
    Handler Empty :=
  dispatch env (handleOther control sizes) rq

/-- A request of any code as the daemon gets it, with what it meets. -/
structure Posted where
  request : Request
  pData : Memory
  env : Env
  control : ControlEnv
  sizes : FsInfoSizes

/-- The request as one that uses objects, if it does. -/
def Posted.incoming (r : Posted) : Option Incoming :=
  (callOf r.request.rq).map fun call => ⟨call, r.request, r.pData, r.env⟩

/-- Handle a request of any code. -/
def serveAny (s : State) (r : Posted) : Outcome × State :=
  (handleAny r.env r.control r.sizes r.request.rq).run
    { s with request := r.request, pData := r.pData }

/-- A request that uses objects is handled as such. -/
theorem serveAny_of_some {r : Posted} {i : Incoming} (h : r.incoming = some i) (s : State) :
    serveAny s r = serve s i := by
  obtain ⟨call, hcall, rfl⟩ := Option.map_eq_some_iff.mp h
  rw [serveAny, handleAny, dispatch, hcall]
  rfl

/-! ### Requests that use no objects -/

/-- The states differ in the exchange buffers only. -/
def SameObjects (s t : State) : Prop := ∃ q m, t = { s with request := q, pData := m }

theorem SameObjects.refl (s : State) : SameObjects s s := ⟨s.request, s.pData, rfl⟩

theorem SameObjects.symm {s t : State} (h : SameObjects s t) : SameObjects t s := by
  obtain ⟨q, m, rfl⟩ := h
  exact ⟨s.request, s.pData, rfl⟩

theorem SameObjects.trans {s t u : State} (h : SameObjects s t) (h' : SameObjects t u) :
    SameObjects s u := by
  obtain ⟨q, m, rfl⟩ := h
  obtain ⟨q', m', rfl⟩ := h'
  exact ⟨q', m', rfl⟩

theorem SameObjects.core {s t : State} (h : SameObjects s t) : t.core = s.core := by
  obtain ⟨q, m, rfl⟩ := h
  rfl

/-- The answer to a request does not depend on what is left in the exchange buffers. -/
theorem SameObjects.serve {s t : State} (h : SameObjects s t) (r : Incoming) :
    Daemon.serve t r = Daemon.serve s r := by
  obtain ⟨q, m, rfl⟩ := h
  rfl

section Others

variable {s : State}

theorem SameObjects.done {α : Type} (rc : ApiRet) :
    Preserves (SameObjects s) (done rc : Handler α) :=
  Preserves.ret

theorem SameObjects.setRequest (f : Request → Request) :
    Preserves (SameObjects s) (setRequest f) :=
  Preserves.update fun t h => h.trans ⟨f t.request, t.pData, rfl⟩

theorem SameObjects.setData (f : State → Memory) :
    Preserves (SameObjects s) (update fun t => { t with pData := f t } : Handler Unit) :=
  Preserves.update fun t h => h.trans ⟨t.request, f t, rfl⟩

theorem SameObjects.access {β : Type} (heap : State → Heap β) (p : Ptr) :
    Preserves (SameObjects s) (access heap p) :=
  fun _ h => access_ends heap (fun _ => h) fun _ _ => h

theorem SameObjects.refuseName (szName : Request → List UInt8) :
    Preserves (SameObjects s) (refuseName szName) :=
  Preserves.read.bind fun _ => Preserves.onlyIf (SameObjects.done _)

theorem fsChgFilePtr_sameObjects : Preserves (SameObjects s) fsChgFilePtr :=
  Preserves.read.bind fun _ => (SameObjects.setRequest _).bind fun _ => SameObjects.done _

theorem fsFsInfo_sameObjects (sizes : FsInfoSizes) :
    Preserves (SameObjects s) (fsFsInfo sizes) := by
  refine Preserves.read.bind fun _ => Preserves.ite ?_ (Preserves.ite ?_ (SameObjects.done _))
  · refine Preserves.read.bind fun _ => Preserves.ite ?_ (SameObjects.done _)
    refine (Preserves.onlyIf (SameObjects.done _)).bind fun _ =>
      (SameObjects.setRequest _).bind fun _ => (SameObjects.access volumes _).bind fun node => ?_
    exact (SameObjects.setData _).bind fun _ => SameObjects.done _
  · refine Preserves.read.bind fun _ => Preserves.ite ?_ ?_
    · refine (Preserves.onlyIf (SameObjects.done _)).bind fun _ =>
        (SameObjects.setRequest _).bind fun _ => (SameObjects.access volumes _).bind fun node => ?_
      exact (SameObjects.setData _).bind fun _ => SameObjects.done _
    · exact Preserves.read.bind fun _ => Preserves.ite (SameObjects.done _) (SameObjects.done _)

theorem fsFsCtl_sameObjects (control : ControlEnv) :
    Preserves (SameObjects s) (fsFsCtl control) := by
  refine Preserves.read.bind fun p => Preserves.read.bind fun pData => ?_
  cases Isofs.fsFsCtl control.args control.easizebuf control.fuel control.settings pData p with
  | none => exact Preserves.ret
  | some r =>
    exact (SameObjects.setRequest _).bind fun _ => (SameObjects.setData fun _ => r.pData).bind
      fun _ => SameObjects.done _

theorem handleOther_sameObjects (control : ControlEnv) (sizes : FsInfoSizes) (rq : RequestCode) :
    Preserves (SameObjects s) (handleOther control sizes rq) := by
  cases rq with
  | FSRQ_FSCTL => exact fsFsCtl_sameObjects control
  | FSRQ_FSINFO => exact fsFsInfo_sameObjects sizes
  | FSRQ_WRITE => exact (SameObjects.setRequest _).bind fun _ => SameObjects.done _
  | FSRQ_DELETE => exact (SameObjects.refuseName _).bind fun _ => SameObjects.done _
  | FSRQ_MOVE =>
    exact (SameObjects.refuseName _).bind fun _ => (SameObjects.refuseName _).bind fun _ =>
      SameObjects.done _
  | FSRQ_MKDIR =>
    exact (SameObjects.setRequest _).bind fun _ => (SameObjects.refuseName _).bind fun _ =>
      SameObjects.done _
  | FSRQ_RMDIR => exact (SameObjects.refuseName _).bind fun _ => SameObjects.done _
  | _ => exact SameObjects.done _

/-- A request that uses no objects leaves them all as they are. -/
theorem serveAny_sameObjects {r : Posted} (h : r.incoming = none) (s : State) :
    SameObjects s (serveAny s r).2 := by
  have hbuffers : SameObjects s { s with request := r.request, pData := r.pData } := ⟨_, _, rfl⟩
  rw [serveAny, handleAny, dispatch, Option.map_eq_none_iff.mp h]
  dsimp only
  split
  · exact fsChgFilePtr_sameObjects.run hbuffers
  · exact (handleOther_sameObjects _ _ _).run hbuffers

end Others

end Daemon

end Isofs
