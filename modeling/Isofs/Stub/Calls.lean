import Isofs.Stub.LockDiscipline

/-!
# Calls of the driver

Every call of an entry point that uses the exchange buffers, the condition under which it
releases `semSerialize` exactly once, and the threads that make such calls.
-/

namespace Isofs

namespace Stub

open Proc LockTrace

/-- A call of an entry point with its arguments. -/
inductive StubCall where
  | fsFsCtl (iArgType usFunc : UInt16) (pParm : Ptr) (cbMaxParm : UInt16) (ppcbParm : Ptr)
      (pcbParm : UInt16) (pData : Ptr) (cbMaxData : UInt16) (pcbData : Ptr)
  | fsAttach (fsFlag : UInt16) (pszDev : List UInt8) (pvpfsd : Option Ptr) (pcdfsd : Option Cdfsd)
      (pParm : Ptr) (pcbParm : UInt16)
  | fsIoctl (sffsi : Sffsi) (psffsd : Ptr) (usCat usFunc : UInt16) (pParm : Ptr)
      (cbMaxParm : UInt16) (ppcbParm : Ptr) (pcbParm : UInt16) (pData : Ptr) (cbMaxData : UInt16)
      (pcbData : Ptr)
  | fsFsInfo (fsFlag hVPB : UInt16) (pData : Ptr) (cbData usLevel : UInt16)
  | fsFlushBuf (hVPB fsFlag : UInt16)
  | fsOpenCreate (cdfsi : Cdfsi) (cdfsd : Cdfsd) (pszName : List UInt8) (iCurDirEnd : UInt16)
      (sffsi : Sffsi) (flOpenMode : UInt32) (fsOpenFlag fsAttr : UInt16) (pEABuf : Option Ptr)
  | fsClose (usType fsIOFlag : UInt16) (sffsi : Sffsi) (psffsd : Ptr)
  | fsRead (sffsi : Sffsi) (psffsd pData : Ptr) (pcbLen fsIOFlag : UInt16)
  | fsWrite (sffsi : Sffsi) (psffsd pData : Ptr) (pcbLen fsIOFlag : UInt16)
  | fsChgFilePtr (sffsi : Sffsi) (psffsd : Ptr) (ibOffset : ℤ) (usType fsIOFlag : UInt16)
  | fsNewSize (sffsi : Sffsi) (psffsd : Ptr) (cbLen : UInt32) (fsIOFlag : UInt16)
  | fsFileAttribute (fsFlag : UInt16) (cdfsi : Cdfsi) (cdfsd : Cdfsd) (pszName : List UInt8)
      (iCurDirEnd pfsAttr : UInt16)
  | fsFileInfo (fsFlag : UInt16) (sffsi : Sffsi) (psffsd : Ptr) (usLevel : UInt16) (pData : Ptr)
      (cbData fsIOFlag : UInt16)
  | fsCommit (usType fsIOFlag : UInt16) (sffsi : Sffsi) (psffsd : Ptr)
  | fsPathInfo (fsFlag : UInt16) (cdfsi : Cdfsi) (cdfsd : Cdfsd) (pszName : List UInt8)
      (iCurDirEnd usLevel : UInt16) (pData : Ptr) (cbData : UInt16)
  | fsDelete (cdfsi : Cdfsi) (cdfsd : Cdfsd) (pszName : List UInt8) (iCurDirEnd : UInt16)
  | fsCopy
  | fsMove (cdfsi : Cdfsi) (cdfsd : Cdfsd) (pszSrc : List UInt8) (iSrcCurDirEnd : UInt16)
      (pszDst : List UInt8) (iDstCurDirEnd : UInt16)
  | fsChDir (fsFlag : UInt16) (cdfsi : Cdfsi) (cdfsd : Cdfsd) (pszDir : List UInt8)
      (iCurDirEnd : UInt16)
  | fsMkDir (cdfsi : Cdfsi) (cdfsd : Cdfsd) (pszName : List UInt8) (iCurDirEnd : UInt16)
      (pEABuf : Option Ptr)
  | fsRmDir (cdfsi : Cdfsi) (cdfsd : Cdfsd) (pszName : List UInt8) (iCurDirEnd : UInt16)
  | fsFindFirst (cdfsi : Cdfsi) (cdfsd : Cdfsd) (pszName : List UInt8)
      (iCurDirEnd fsAttr : UInt16) (pData : Ptr) (cbData pcMatch usLevel fsFlags : UInt16)
  | fsFindNext (hVPB : UInt16) (pfsfsd pData : Ptr) (cbData pcMatch usLevel fsFlags : UInt16)
  | fsFindFromName (hVPB : UInt16) (pfsfsd pData : Ptr) (cbData pcMatch usLevel : UInt16)
      (ulPosition : UInt32) (pszName : List UInt8) (fsFlags : UInt16)
  | fsFindClose (hVPB : UInt16) (pfsfsd : Ptr)
  | fsFindNotifyFirst
  | fsFindNotifyNext
  | fsFindNotifyClose
  | fsProcessName (pszName : List UInt8)

namespace StubCall

variable {δ : Type} (env : StubEnv δ)

/-- The body of the entry point called. -/
def body : StubCall → Stub δ Empty
  | fsFsCtl iArgType usFunc pParm cbMaxParm ppcbParm pcbParm pData cbMaxData pcbData =>
    Stub.fsFsCtl env iArgType usFunc pParm cbMaxParm ppcbParm pcbParm pData cbMaxData pcbData
  | fsAttach fsFlag pszDev pvpfsd pcdfsd pParm pcbParm =>
    Stub.fsAttach env fsFlag pszDev pvpfsd pcdfsd pParm pcbParm
  | fsIoctl sffsi psffsd usCat usFunc pParm cbMaxParm ppcbParm pcbParm pData cbMaxData pcbData =>
    Stub.fsIoctl env sffsi psffsd usCat usFunc pParm cbMaxParm ppcbParm pcbParm pData cbMaxData
      pcbData
  | fsFsInfo fsFlag hVPB pData cbData usLevel => Stub.fsFsInfo env fsFlag hVPB pData cbData usLevel
  | fsFlushBuf hVPB fsFlag => Stub.fsFlushBuf env hVPB fsFlag
  | fsOpenCreate cdfsi cdfsd pszName iCurDirEnd sffsi flOpenMode fsOpenFlag fsAttr pEABuf =>
    Stub.fsOpenCreate env cdfsi cdfsd pszName iCurDirEnd sffsi flOpenMode fsOpenFlag fsAttr pEABuf
  | fsClose usType fsIOFlag sffsi psffsd => Stub.fsClose env usType fsIOFlag sffsi psffsd
  | fsRead sffsi psffsd pData pcbLen fsIOFlag => Stub.fsRead env sffsi psffsd pData pcbLen fsIOFlag
  | fsWrite sffsi psffsd pData pcbLen fsIOFlag =>
    Stub.fsWrite env sffsi psffsd pData pcbLen fsIOFlag
  | fsChgFilePtr sffsi psffsd ibOffset usType fsIOFlag =>
    Stub.fsChgFilePtr env sffsi psffsd ibOffset usType fsIOFlag
  | fsNewSize sffsi psffsd cbLen fsIOFlag => Stub.fsNewSize env sffsi psffsd cbLen fsIOFlag
  | fsFileAttribute fsFlag cdfsi cdfsd pszName iCurDirEnd pfsAttr =>
    Stub.fsFileAttribute env fsFlag cdfsi cdfsd pszName iCurDirEnd pfsAttr
  | fsFileInfo fsFlag sffsi psffsd usLevel pData cbData fsIOFlag =>
    Stub.fsFileInfo env fsFlag sffsi psffsd usLevel pData cbData fsIOFlag
  | fsCommit usType fsIOFlag sffsi psffsd => Stub.fsCommit env usType fsIOFlag sffsi psffsd
  | fsPathInfo fsFlag cdfsi cdfsd pszName iCurDirEnd usLevel pData cbData =>
    Stub.fsPathInfo env fsFlag cdfsi cdfsd pszName iCurDirEnd usLevel pData cbData
  | fsDelete cdfsi cdfsd pszName iCurDirEnd => Stub.fsDelete env cdfsi cdfsd pszName iCurDirEnd
  | fsCopy => Stub.fsCopy env
  | fsMove cdfsi cdfsd pszSrc iSrcCurDirEnd pszDst iDstCurDirEnd =>
    Stub.fsMove env cdfsi cdfsd pszSrc iSrcCurDirEnd pszDst iDstCurDirEnd
  | fsChDir fsFlag cdfsi cdfsd pszDir iCurDirEnd =>
    Stub.fsChDir env fsFlag cdfsi cdfsd pszDir iCurDirEnd
  | fsMkDir cdfsi cdfsd pszName iCurDirEnd pEABuf =>
    Stub.fsMkDir env cdfsi cdfsd pszName iCurDirEnd pEABuf
  | fsRmDir cdfsi cdfsd pszName iCurDirEnd => Stub.fsRmDir env cdfsi cdfsd pszName iCurDirEnd
  | fsFindFirst cdfsi cdfsd pszName iCurDirEnd fsAttr pData cbData pcMatch usLevel fsFlags =>
    Stub.fsFindFirst env cdfsi cdfsd pszName iCurDirEnd fsAttr pData cbData pcMatch usLevel fsFlags
  | fsFindNext hVPB pfsfsd pData cbData pcMatch usLevel fsFlags =>
    Stub.fsFindNext env hVPB pfsfsd pData cbData pcMatch usLevel fsFlags
  | fsFindFromName hVPB pfsfsd pData cbData pcMatch usLevel ulPosition pszName fsFlags =>
    Stub.fsFindFromName env hVPB pfsfsd pData cbData pcMatch usLevel ulPosition pszName fsFlags
  | fsFindClose hVPB pfsfsd => Stub.fsFindClose env hVPB pfsfsd
  | fsFindNotifyFirst => Stub.fsFindNotifyFirst env
  | fsFindNotifyNext => Stub.fsFindNotifyNext env
  | fsFindNotifyClose => Stub.fsFindNotifyClose env
  | fsProcessName pszName => Stub.fsProcessName env pszName

/-- The condition under which a call keeps the lock discipline: once it holds the lock, the
parameter buffer of an `FS_IOCTL` and the GEA list of a search are well formed, and the
data buffer of an `FS_FILEINFO` or `FS_PATHINFO` that is copied is accessible. -/
def Sound (caller : Memory) : StubCall → Prop
  | fsIoctl _ _ _ _ _ cbMaxParm _ pcbParm _ _ _ =>
    Acquires env → cbMaxParm ≠ 0 → ParmReadable env cbMaxParm pcbParm
  | fsFileInfo fsFlag _ _ usLevel _ _ _ =>
    Acquires env → ¬ PreReleases env fsFlag usLevel ∧
      (Signalled env → ¬ PostReleases env fsFlag usLevel)
  | fsPathInfo fsFlag _ _ pszName _ usLevel _ _ =>
    Acquires env → pszName.length < CCHMAXPATH → ¬ PreReleases env fsFlag usLevel ∧
      (Signalled env → ¬ PostReleases env fsFlag usLevel)
  | fsFindFirst _ _ pszName _ _ pData _ _ usLevel _ =>
    Acquires env → pszName.length < CCHMAXPATH → usLevel = FIL_QUERYEASFROMLIST →
      geaListError env caller pData = .NO_ERROR
  | fsFindNext _ _ pData _ _ usLevel _ =>
    Acquires env → usLevel = FIL_QUERYEASFROMLIST → geaListError env caller pData = .NO_ERROR
  | fsFindFromName _ _ pData _ _ usLevel _ pszName _ =>
    Acquires env → pszName.length < CCHMAXPATH → usLevel = FIL_QUERYEASFROMLIST →
      geaListError env caller pData = .NO_ERROR
  | _ => True

/-- What a call from state `s` does to the lock, newest event first. -/
def lockTrace (s : StubState δ) (call : StubCall) : List LockEvent :=
  ((call.body env).run { s with trace := [] }).2.trace.map lockEvent

end StubCall

variable {δ : Type} {env : StubEnv δ}

/-! ### Whole calls -/

/-- The start of a call whose caller's memory is `c`. -/
def Starts (c : Memory) (s : StubState δ) : Prop := InPhase (some .free) s ∧ s.caller = c

/-- The call does not hold the lock at its end. -/
def Released (s : StubState δ) : Prop := InPhase (some .free) s ∨ InPhase (some .done) s

section Whole

variable {c : Memory} {fill : Stub δ Unit} {finish : Stub δ ApiRet}

theorem exchange_released
    (hfill : Acquires env → Triple (HoldsWith c) fill (fun _ => InPhase (some .held))
      (fun _ => InPhase (some .done)))
    (hfinish : Acquires env → Signalled env → Keeps finish) :
    Triple (Starts c) (exchange env fill finish) (fun _ _ => False) (fun _ => Released) :=
  exchange_triple (fun hacq => (exchangeBody_keeps (hfill hacq) (hfinish hacq)).consequence
    (fun _ h => h) (fun _ _ h => h) fun _ _ h => Or.inr h) fun _ _ _ h => h

/-- An entry point with disciplined `fill` and `finish`. -/
theorem exchange_keeps (hfill : Keeps fill) (hfinish : Keeps finish) :
    Triple (Starts c) (exchange env fill finish) (fun _ _ => False) (fun _ => Released) :=
  exchange_released (fun _ => hfill.consequence (fun _ h => h.1) (fun _ _ h => h) fun _ _ h => h)
    fun _ _ => hfinish

/-- An entry point that ends in phase `p` once it has the lock. -/
theorem exchange_ends (hacq : Acquires env) {p : Option Phase}
    (hbody : Triple (HoldsWith c) (exchangeBody env fill finish) (fun _ _ => False)
      (fun _ => InPhase p)) :
    Triple (Starts c) (exchange env fill finish) (fun _ _ => False) (fun _ => InPhase p) :=
  exchange_triple (fun _ => hbody) fun h => absurd hacq h

theorem fileExchange_released (f : Request → Request) :
    Triple (Starts c) (fileExchange env f) (fun _ _ => False) (fun _ => Released) :=
  exchange_keeps (Silent.setRequest _).keeps
    (Silent.returnSffsi.bind fun _ => Silent.requestRc).keeps

theorem plainExchange_released (rq : RequestCode) :
    Triple (Starts c) (plainExchange env rq) (fun _ _ => False) (fun _ => Released) :=
  exchange_keeps (Silent.setRequest _).keeps Silent.requestRc.keeps

end Whole

theorem start_starts (s : StubState δ) : Starts s.caller { s with trace := [] } := ⟨rfl, rfl⟩

/-- A call that ends without the lock is disciplined. -/
theorem disciplined_of_released {s : StubState δ} {call : StubCall}
    (h : Triple (Starts s.caller) (call.body env) (fun _ _ => False) (fun _ => Released)) :
    Disciplined (call.lockTrace env s) :=
  h.run (start_starts s)

/-- A call that ends with the lock held, or broken, is not. -/
theorem not_disciplined_of_ends {s : StubState δ} {call : StubCall} {p : Option Phase}
    (hp : p = some .held ∨ p = none)
    (h : Triple (Starts s.caller) (call.body env) (fun _ _ => False) (fun _ => InPhase p)) :
    ¬ Disciplined (call.lockTrace env s) := by
  have hend : phase (call.lockTrace env s) = p := h.run (start_starts s)
  rw [Disciplined]
  rw [hend]
  rcases hp with rfl | rfl <;> decide

/-! ### Disciplined entry points -/

section Entries

variable {c : Memory}

theorem finishControl_keeps (pcbData pData : Ptr) (cbMaxData : UInt16) :
    Keeps (finishControl env pcbData pData cbMaxData) := by
  refine (Silent.getRequest _).keeps.bind fun cbData => Keeps.bind (Keeps.onlyIf ?_) fun _ =>
    Silent.requestRc.keeps
  refine (Keeps.probeOrRelease _ _ _).bind fun _ => (Silent.store _).keeps.bind fun _ =>
    Silent.requestRc.keeps.bind fun _ => Keeps.onlyIf ?_
  exact (Keeps.onlyIf (Keeps.releaseAndExit _)).bind fun _ =>
    (Keeps.probeOrRelease _ _ _).bind fun _ => (Silent.copyOut _ _).keeps

/-- A probe before the lock is requested. -/
theorem mustProbe_starts (site : ProbeSite) (p : Ptr) (len : UInt16) :
    Triple (Starts c) (mustProbe env site p len) (fun _ => Starts c) (fun _ => Released) := by
  rintro s ⟨hfree, hc⟩
  have hnext : phase (.other :: s.trace.map lockEvent) = some .free := by
    rw [phase_cons, hfree]
    rfl
  by_cases h : env.probe site = .NO_ERROR
  · exact Ends.of_ok (mustProbe_of_ok h p len s) ⟨hnext, hc⟩
  · exact Ends.of_error (mustProbe_of_error h p len s) (Or.inl hnext)

theorem starts_returns {b : Prop} [Decidable b] (rc : ApiRet) :
    Triple (Starts c) (onlyIf b (ret rc) : Stub δ Unit) (fun _ => Starts c) (fun _ => Released) :=
  Triple.onlyIf (fun _ => Triple.ret fun _ hs => Or.inl hs.1) fun _ _ hs => hs

theorem fsFsCtl_released (iArgType usFunc : UInt16) (pParm : Ptr) (cbMaxParm : UInt16)
    (ppcbParm : Ptr) (pcbParm : UInt16) (pData : Ptr) (cbMaxData : UInt16) (pcbData : Ptr) :
    Triple (Starts c)
      (Stub.fsFsCtl env iArgType usFunc pParm cbMaxParm ppcbParm pcbParm pData cbMaxData pcbData)
      (fun _ _ => False) (fun _ => Released) := by
  refine (starts_returns _).bind fun _ => Triple.bind (Q := fun _ => Starts c)
    (Triple.onlyIf (fun _ => ?_) fun _ _ hs => hs) fun _ => exchange_keeps ?_ ?_
  · exact (mustProbe_starts _ _ _).bind fun _ => (starts_returns _).bind fun _ =>
      Triple.onlyIf (fun _ => mustProbe_starts _ _ _) fun _ _ hs => hs
  · exact (Silent.setRequest _).keeps.bind fun _ => Keeps.onlyIf (Silent.copyIn _ _).keeps
  · exact finishControl_keeps _ _ _

theorem fsAttach_released (fsFlag : UInt16) (pszDev : List UInt8) (pvpfsd : Option Ptr)
    (pcdfsd : Option Cdfsd) (pParm : Ptr) (pcbParm : UInt16) :
    Triple (Starts c) (Stub.fsAttach env fsFlag pszDev pvpfsd pcdfsd pParm pcbParm)
      (fun _ _ => False) (fun _ => Released) := by
  refine (starts_returns _).bind fun _ => exchange_keeps ?_ ?_
  · exact (Silent.setRequest _).keeps.bind fun _ => (Keeps.checkString _ _).bind fun _ =>
      (Silent.setRequest _).keeps.bind fun _ => Keeps.onlyIf
        ((Keeps.probeOrRelease _ _ _).bind fun _ => (Silent.copyIn _ _).keeps)
  · refine Keeps.bind (Keeps.onlyIf ?_) fun _ => (Silent.getRequest _).keeps.bind fun _ =>
      (Keeps.onlyIf (Silent.store _).keeps).bind fun _ => (Silent.getRequest _).keeps.bind fun _ =>
        (Keeps.onlyIf (Silent.store _).keeps).bind fun _ => Silent.requestRc.keeps
    exact (Silent.getRequest _).keeps.bind fun _ => (Silent.store _).keeps.bind fun _ =>
      Silent.requestRc.keeps.bind fun _ => Keeps.onlyIf
        ((Keeps.probeOrRelease _ _ _).bind fun _ => (Silent.copyOut _ _).keeps)

theorem fsFsInfo_released (fsFlag hVPB : UInt16) (pData : Ptr) (cbData usLevel : UInt16) :
    Triple (Starts c) (Stub.fsFsInfo env fsFlag hVPB pData cbData usLevel)
      (fun _ _ => False) (fun _ => Released) := by
  refine exchange_keeps ?_ ?_
  · refine (Silent.setRequest _).keeps.bind fun _ => Keeps.bind (Keeps.onlyIf ?_) fun _ =>
      (Silent.setRequest _).keeps
    exact (Keeps.probeOrRelease _ _ _).bind fun _ => (Silent.copyIn _ _).keeps
  · refine Silent.requestRc.keeps.bind fun _ => Keeps.bind (Keeps.onlyIf ?_) fun _ =>
      Silent.requestRc.keeps
    exact (Silent.getRequest _).keeps.bind fun _ => Keeps.onlyIf
      ((Keeps.probeOrRelease _ _ _).bind fun _ => (Silent.copyOut _ _).keeps)

/-- The FEA list of a new file or directory. -/
theorem feasPre_keeps (pEABuf : Option Ptr) :
    Keeps (match pEABuf with
      | some pEABuf => do
        let rc ← call (copyEAOP env .pre pEABuf CEA_FEAS_TO_BUF 0)
        releaseOnError env rc rc
        setRequest fun r => { r with fHasEAs := true }
      | none => setRequest fun r => { r with fHasEAs := false } : Stub δ Unit) := by
  cases pEABuf with
  | none => exact (Silent.setRequest _).keeps
  | some pEABuf =>
    exact (Silent.call (Quiet.copyEAOP _ _ _ _)).keeps.bind fun _ =>
      (Keeps.releaseOnError _ _).bind fun _ => (Silent.setRequest _).keeps

/-- The error offset of a new file or directory. -/
theorem feasPost_keeps (pEABuf : Option Ptr) :
    Keeps (match pEABuf with
      | some pEABuf => do
        let oError ← getRequest (·.oError)
        let rc ← call (copyEAOP env .post pEABuf CEA_SET_OERROR oError)
        releaseOnError env rc rc
        requestRc
      | none => requestRc : Stub δ ApiRet) := by
  cases pEABuf with
  | none => exact Silent.requestRc.keeps
  | some pEABuf =>
    exact (Silent.getRequest _).keeps.bind fun _ =>
      (Silent.call (Quiet.copyEAOP _ _ _ _)).keeps.bind fun _ =>
        (Keeps.releaseOnError _ _).bind fun _ => Silent.requestRc.keeps

theorem fsOpenCreate_released (cdfsi : Cdfsi) (cdfsd : Cdfsd) (pszName : List UInt8)
    (iCurDirEnd : UInt16) (sffsi : Sffsi) (flOpenMode : UInt32) (fsOpenFlag fsAttr : UInt16)
    (pEABuf : Option Ptr) :
    Triple (Starts c) (Stub.fsOpenCreate env cdfsi cdfsd pszName iCurDirEnd sffsi flOpenMode
      fsOpenFlag fsAttr pEABuf) (fun _ _ => False) (fun _ => Released) := by
  refine exchange_keeps ?_ ?_
  · exact (Silent.setRequest _).keeps.bind fun _ => (Keeps.checkString _ _).bind fun _ =>
      (Silent.setRequest _).keeps.bind fun _ => feasPre_keeps pEABuf
  · exact (Silent.getRequest _).keeps.bind fun _ => (Silent.store _).keeps.bind fun _ =>
      (Silent.getRequest _).keeps.bind fun _ => (Keeps.onlyIf (Silent.store _).keeps).bind fun _ =>
        (Silent.getRequest _).keeps.bind fun _ => (Silent.store _).keeps.bind fun _ =>
          (Silent.getRequest _).keeps.bind fun _ => (Silent.store _).keeps.bind fun _ =>
            feasPost_keeps pEABuf

theorem fsRead_released (sffsi : Sffsi) (psffsd pData : Ptr) (pcbLen fsIOFlag : UInt16) :
    Triple (Starts c) (Stub.fsRead env sffsi psffsd pData pcbLen fsIOFlag)
      (fun _ _ => False) (fun _ => Released) := by
  refine exchange_keeps (Silent.setRequest _).keeps ?_
  refine Silent.returnSffsi.keeps.bind fun _ => (Silent.getRequest _).keeps.bind fun _ =>
    (Silent.store _).keeps.bind fun _ => Keeps.bind (Keeps.onlyIf ?_)
      fun _ => Silent.requestRc.keeps
  exact (Keeps.probeOrRelease _ _ _).bind fun _ => (Silent.copyOut _ _).keeps

theorem fsWrite_released (sffsi : Sffsi) (psffsd pData : Ptr) (pcbLen fsIOFlag : UInt16) :
    Triple (Starts c) (Stub.fsWrite env sffsi psffsd pData pcbLen fsIOFlag)
      (fun _ _ => False) (fun _ => Released) := by
  refine exchange_keeps ?_ ?_
  · exact (Silent.setRequest _).keeps.bind fun _ => Keeps.onlyIf
      ((Keeps.probeOrRelease _ _ _).bind fun _ => (Silent.copyIn _ _).keeps)
  · exact Silent.returnSffsi.keeps.bind fun _ => (Silent.getRequest _).keeps.bind fun _ =>
      (Silent.store _).keeps.bind fun _ => Silent.requestRc.keeps

/-- An entry point that passes a name to the daemon and returns its code. -/
theorem nameExchange_released (rq : RequestCode) (cdfsi : Cdfsi) (cdfsd : Cdfsd)
    (pszName : List UInt8) (iCurDirEnd : UInt16) :
    Triple (Starts c) (exchange env (pathRequest env rq cdfsi cdfsd pszName iCurDirEnd) requestRc)
      (fun _ _ => False) (fun _ => Released) :=
  exchange_keeps (Keeps.pathRequest _ _ _ _ _) Silent.requestRc.keeps

theorem fsFileAttribute_released (fsFlag : UInt16) (cdfsi : Cdfsi) (cdfsd : Cdfsd)
    (pszName : List UInt8) (iCurDirEnd pfsAttr : UInt16) :
    Triple (Starts c) (Stub.fsFileAttribute env fsFlag cdfsi cdfsd pszName iCurDirEnd pfsAttr)
      (fun _ _ => False) (fun _ => Released) :=
  exchange_keeps ((Keeps.pathRequest _ _ _ _ _).bind fun _ => (Silent.setRequest _).keeps)
    (Silent.requestRc.keeps.bind fun _ => (Silent.getRequest _).keeps.bind fun _ =>
      (Keeps.onlyIf (Silent.store _).keeps).bind fun _ => Silent.requestRc.keeps)

theorem fsMove_released (cdfsi : Cdfsi) (cdfsd : Cdfsd) (pszSrc : List UInt8)
    (iSrcCurDirEnd : UInt16) (pszDst : List UInt8) (iDstCurDirEnd : UInt16) :
    Triple (Starts c) (Stub.fsMove env cdfsi cdfsd pszSrc iSrcCurDirEnd pszDst iDstCurDirEnd)
      (fun _ _ => False) (fun _ => Released) :=
  exchange_keeps ((Keeps.pathRequest _ _ _ _ _).bind fun _ => (Keeps.checkString _ _).bind fun _ =>
    (Silent.setRequest _).keeps) Silent.requestRc.keeps

theorem fsChDir_released (fsFlag : UInt16) (cdfsi : Cdfsi) (cdfsd : Cdfsd) (pszDir : List UInt8)
    (iCurDirEnd : UInt16) :
    Triple (Starts c) (Stub.fsChDir env fsFlag cdfsi cdfsd pszDir iCurDirEnd)
      (fun _ _ => False) (fun _ => Released) := by
  refine exchange_keeps ?_ ?_
  · refine (Silent.setRequest _).keeps.bind fun _ => Keeps.bind (Keeps.onlyIf ?_) fun _ =>
      (Silent.setRequest _).keeps
    exact (Silent.setRequest _).keeps.bind fun _ => Keeps.onlyIf
      ((Keeps.checkString _ _).bind fun _ => (Silent.setRequest _).keeps)
  · exact (Silent.getRequest _).keeps.bind fun _ => (Keeps.onlyIf (Silent.store _).keeps).bind
      fun _ => Silent.requestRc.keeps

theorem fsMkDir_released (cdfsi : Cdfsi) (cdfsd : Cdfsd) (pszName : List UInt8)
    (iCurDirEnd : UInt16) (pEABuf : Option Ptr) :
    Triple (Starts c) (Stub.fsMkDir env cdfsi cdfsd pszName iCurDirEnd pEABuf)
      (fun _ _ => False) (fun _ => Released) :=
  exchange_keeps ((Keeps.pathRequest _ _ _ _ _).bind fun _ => feasPre_keeps pEABuf)
    (feasPost_keeps pEABuf)

theorem fsProcessName_released (pszName : List UInt8) :
    Triple (Starts c) (Stub.fsProcessName env pszName) (fun _ _ => False) (fun _ => Released) :=
  exchange_keeps ((Silent.setRequest _).keeps.bind fun _ => (Keeps.checkString _ _).bind fun _ =>
      (Silent.setRequest _).keeps)
    ((Silent.getRequest _).keeps.bind fun _ => (Silent.store _).keeps.bind fun _ =>
      Silent.requestRc.keeps)

/-! ### `FS_IOCTL` -/

section Ioctl

variable {sffsi : Sffsi} {psffsd : Ptr} {usCat usFunc : UInt16} {pParm : Ptr} {cbMaxParm : UInt16}
  {ppcbParm : Ptr} {pcbParm : UInt16} {pData : Ptr} {cbMaxData : UInt16} {pcbData : Ptr}

theorem fsIoctl_released (h : Acquires env → cbMaxParm ≠ 0 → ParmReadable env cbMaxParm pcbParm) :
    Triple (Starts c) (Stub.fsIoctl env sffsi psffsd usCat usFunc pParm cbMaxParm ppcbParm pcbParm
      pData cbMaxData pcbData) (fun _ _ => False) (fun _ => Released) := by
  refine exchange_released (fun hacq => ?_) fun _ _ => finishControl_keeps _ _ _
  refine (setRequest_holdsWith _).bind fun _ => Triple.onlyIf (fun hparm => ?_) fun _ _ hs => hs.1
  refine Triple.bind (Q := fun _ => InPhase (some .held)) ((checkParms_triple _ _ _ _).consequence
    (fun _ hs => hs.1) (fun _ _ hs => hs.2) fun _ _ hs => absurd (h hacq hparm) hs.1) fun _ => ?_
  exact (Silent.copyIn _ _).keeps

/-- A parameter buffer that is not readable makes it return with the lock held. -/
theorem fsIoctl_returns (hacq : Acquires env) (hparm : cbMaxParm ≠ 0)
    (h : ¬ ParmReadable env cbMaxParm pcbParm) :
    Triple (Starts c) (Stub.fsIoctl env sffsi psffsd usCat usFunc pParm cbMaxParm ppcbParm pcbParm
      pData cbMaxData pcbData) (fun _ _ => False) (fun _ => InPhase (some .held)) := by
  refine exchange_ends hacq (exchangeBody_of_fill_returns ?_)
  refine (setRequest_holdsWith _).bind fun _ => Triple.onlyIf (fun _ => ?_)
    fun h0 => absurd hparm h0
  exact Triple.bind (Q := fun _ _ => False) ((checkParms_triple _ _ _ _).consequence
    (fun _ hs => hs.1) (fun _ _ hs => h hs.1) fun _ _ hs => hs.2) fun _ _ hs => hs.elim

end Ioctl

/-! ### Searches -/

section Searches

variable {usLevel cbData : UInt16} {pData : Ptr}

theorem undoAndRelease_keeps (cdfsi : Cdfsi) (rc : ApiRet) : Keeps (undoAndRelease env cdfsi rc) :=
  (Silent.call ((Silent.setRequest _).1.bind fun _ =>
    Quiet.signalDaemonAndWait .undo)).keeps.bind fun _ =>
      (Keeps.releaseOnError _ _).bind fun _ => Keeps.releaseAndExit _

theorem copyFindData_keeps {giveUp : ApiRet → Stub δ Unit} (h : ∀ rc, Keeps (giveUp rc)) :
    Keeps (copyFindData env giveUp usLevel pData cbData) := by
  refine Silent.requestRc.keeps.bind fun _ => Keeps.onlyIf ?_
  refine (Silent.probe _ _ _).keeps.bind fun _ => (Keeps.onlyIf (h _)).bind fun _ => Triple.ite
    (fun _ => ?_) fun _ => (Silent.copyOut _ _).keeps
  exact (Silent.getRequest _).keeps.bind fun _ =>
    (Silent.call (Quiet.copyEAOP _ _ _ _)).keeps.bind fun _ => (Keeps.onlyIf (h _)).bind fun _ =>
      (Silent.copyOut _ _).keeps

theorem finishFind_keeps : Keeps (finishFind : Stub δ ApiRet) :=
  (Silent.getRequest _).keeps.bind fun _ => (Silent.store _).keeps.bind fun _ =>
    Silent.requestRc.keeps

/-- The request of a search that is open, and its GEA list. -/
theorem searchFill_keeps (f : Request → Request)
    (h : usLevel = FIL_QUERYEASFROMLIST → geaListError env c pData = .NO_ERROR) :
    Triple (HoldsWith c) (do
      setRequest f
      findEAsPre env usLevel pData) (fun _ => InPhase (some .held))
      (fun _ => InPhase (some .done)) :=
  (setRequest_holdsWith f).bind fun _ => findEAsPre_keeps h

theorem searchFill_returns (f : Request → Request) (hlevel : usLevel = FIL_QUERYEASFROMLIST)
    (h : geaListError env c pData ≠ .NO_ERROR) :
    Triple (HoldsWith c) (do
      setRequest f
      findEAsPre env usLevel pData) (fun _ _ => False) (fun _ => InPhase (some .held)) :=
  (setRequest_holdsWith f).bind fun _ => findEAsPre_returns hlevel h

section First

variable {cdfsi : Cdfsi} {cdfsd : Cdfsd} {pszName : List UInt8}
  {iCurDirEnd fsAttr pcMatch fsFlags : UInt16}

theorem fsFindFirst_released (h : Acquires env → pszName.length < CCHMAXPATH →
      usLevel = FIL_QUERYEASFROMLIST → geaListError env c pData = .NO_ERROR) :
    Triple (Starts c) (Stub.fsFindFirst env cdfsi cdfsd pszName iCurDirEnd fsAttr pData cbData
      pcMatch usLevel fsFlags) (fun _ _ => False) (fun _ => Released) := by
  refine exchange_released (fun hacq => ?_) fun _ _ => (copyFindData_keeps
    (undoAndRelease_keeps cdfsi)).bind fun _ => (Silent.getRequest _).keeps.bind fun _ =>
      (Silent.store _).keeps.bind fun _ => finishFind_keeps
  refine (pathRequest_triple _ _ _ _ _ fun _ _ _ hs => hs).bind fun _ => ?_
  exact Triple.of_forall fun _ hs => (searchFill_keeps _ (h hacq hs.1)).consequence
    (fun _ h => h ▸ hs.2) (fun _ _ h => h) fun _ _ h => h

theorem fsFindFirst_returns (hacq : Acquires env) (hname : pszName.length < CCHMAXPATH)
    (hlevel : usLevel = FIL_QUERYEASFROMLIST) (h : geaListError env c pData ≠ .NO_ERROR) :
    Triple (Starts c) (Stub.fsFindFirst env cdfsi cdfsd pszName iCurDirEnd fsAttr pData cbData
      pcMatch usLevel fsFlags) (fun _ _ => False) (fun _ => InPhase (some .held)) :=
  exchange_ends hacq (exchangeBody_of_fill_returns ((pathRequest_triple _ _ _ _ _
    fun hlong => absurd hname (Nat.not_lt.mpr hlong)).bind fun _ =>
      (searchFill_returns _ hlevel h).consequence (fun _ hs => hs.2) (fun _ _ hs => hs)
        fun _ _ hs => hs))

end First

section Next

variable {hVPB : UInt16} {pfsfsd : Ptr} {pcMatch fsFlags : UInt16}

theorem fsFindNext_released (h : Acquires env → usLevel = FIL_QUERYEASFROMLIST →
      geaListError env c pData = .NO_ERROR) :
    Triple (Starts c) (Stub.fsFindNext env hVPB pfsfsd pData cbData pcMatch usLevel fsFlags)
      (fun _ _ => False) (fun _ => Released) :=
  exchange_released (fun hacq => searchFill_keeps _ (h hacq)) fun _ _ =>
    (copyFindData_keeps fun _ => Keeps.releaseAndExit _).bind fun _ => finishFind_keeps

theorem fsFindNext_returns (hacq : Acquires env) (hlevel : usLevel = FIL_QUERYEASFROMLIST)
    (h : geaListError env c pData ≠ .NO_ERROR) :
    Triple (Starts c) (Stub.fsFindNext env hVPB pfsfsd pData cbData pcMatch usLevel fsFlags)
      (fun _ _ => False) (fun _ => InPhase (some .held)) :=
  exchange_ends hacq (exchangeBody_of_fill_returns (searchFill_returns _ hlevel h))

variable {ulPosition : UInt32} {pszName : List UInt8}

theorem fsFindFromName_released (h : Acquires env → pszName.length < CCHMAXPATH →
      usLevel = FIL_QUERYEASFROMLIST → geaListError env c pData = .NO_ERROR) :
    Triple (Starts c) (Stub.fsFindFromName env hVPB pfsfsd pData cbData pcMatch usLevel ulPosition
      pszName fsFlags) (fun _ _ => False) (fun _ => Released) := by
  refine exchange_released (fun hacq => ?_) fun _ _ =>
    (copyFindData_keeps fun _ => Keeps.releaseAndExit _).bind fun _ => finishFind_keeps
  refine (setRequest_holdsWith _).bind fun _ => (checkString_triple _ _ fun _ _ _ hs => hs).bind
    fun _ => ?_
  exact Triple.of_forall fun _ hs => (searchFill_keeps _ (h hacq hs.1)).consequence
    (fun _ h => h ▸ hs.2) (fun _ _ h => h) fun _ _ h => h

theorem fsFindFromName_returns (hacq : Acquires env) (hname : pszName.length < CCHMAXPATH)
    (hlevel : usLevel = FIL_QUERYEASFROMLIST) (h : geaListError env c pData ≠ .NO_ERROR) :
    Triple (Starts c) (Stub.fsFindFromName env hVPB pfsfsd pData cbData pcMatch usLevel ulPosition
      pszName fsFlags) (fun _ _ => False) (fun _ => InPhase (some .held)) :=
  exchange_ends hacq (exchangeBody_of_fill_returns ((setRequest_holdsWith _).bind fun _ =>
    (checkString_triple _ _ fun hlong => absurd hname (Nat.not_lt.mpr hlong)).bind fun _ =>
      (searchFill_returns _ hlevel h).consequence (fun _ hs => hs.2) (fun _ _ hs => hs)
        fun _ _ hs => hs))

end Next

end Searches

end Entries

end Stub

end Isofs
