import Isofs.Stub.Calls

/-!
# Exclusive use of the exchange buffers

Exactly the sound calls keep the discipline of the exchange lock, and threads that make
sound calls exclude each other. `FS_FILEINFO` and `FS_PATHINFO` share the two functions
whose `RELEASE_AND_EXIT` does not end the entry point.
-/

namespace Isofs

namespace Stub

open Proc LockTrace

variable {δ : Type} {env : StubEnv δ}

/-! ### File and path information -/

section Info

variable {fsFlag usLevel cbData : UInt16} {pData : Ptr} {c : Memory}

/-- The result of `copyFileInfoBufPre` is dropped. -/
theorem infoPre_silent (h : ¬ PreReleases env fsFlag usLevel) : Silent (do
    let _ ← call (copyFileInfoBufPre env fsFlag usLevel cbData pData) : Stub δ Unit) :=
  (Silent.call (copyFileInfoBufPre_quiet h cbData pData)).bind fun _ => Silent.pure ()

theorem infoPre_releases (h : PreReleases env fsFlag usLevel) :
    Triple (InPhase (some .held)) (do
      let _ ← call (copyFileInfoBufPre env fsFlag usLevel cbData pData) : Stub δ Unit)
      (fun _ => InPhase (some .done)) (fun _ _ => False) :=
  (Triple.call (S := fun _ _ => False) (copyFileInfoBufPre_releases h cbData pData)).bind
    fun _ => Triple.pure fun _ hs => hs

/-- The statements after the daemon has worked. -/
def infoPost (env : StubEnv δ) (fsFlag usLevel cbData : UInt16) (pData : Ptr) : Stub δ ApiRet := do
  let oError ← getRequest (·.oError)
  let rc2 ← call (copyFileInfoBufPost env fsFlag usLevel cbData pData oError)
  let rc ← requestRc
  return if rc ≠ .NO_ERROR then rc else rc2

theorem infoPost_silent (h : ¬ PostReleases env fsFlag usLevel) :
    Silent (infoPost env fsFlag usLevel cbData pData) :=
  (Silent.getRequest _).bind fun oError =>
    (Silent.call (copyFileInfoBufPost_quiet h cbData pData oError)).bind fun _ =>
      Silent.requestRc.bind fun _ => Silent.pure _

/-- Reading the code of the request after the lock is released breaks the discipline. -/
theorem infoPost_breaks (h : PostReleases env fsFlag usLevel) :
    Triple (InPhase (some .held)) (infoPost env fsFlag usLevel cbData pData)
      (fun _ => InPhase none) (fun _ => InPhase none) := by
  refine (Silent.getRequest _).triple (Or.inl rfl) |>.bind fun oError => ?_
  refine (Triple.call (S := fun _ _ => False)
    (copyFileInfoBufPost_releases h cbData pData oError)).bind fun rc2 => ?_
  refine Triple.bind (Q := fun _ => InPhase none) (fun s hs => ?_)
    fun _ => Triple.pure fun _ hs => hs
  show phase (.use :: s.trace.map lockEvent) = none
  rw [phase_cons, show phase (s.trace.map lockEvent) = some .done from hs]
  rfl

theorem infoPost_stuck : Stuck (infoPost env fsFlag usLevel cbData pData) :=
  (Silent.getRequest _).1.stuck.bind fun oError =>
    (Triple.call (copyFileInfoBufPost_stuck fsFlag usLevel cbData pData oError)).bind fun _ =>
      Silent.requestRc.1.stuck.bind fun _ => Triple.pure fun _ hs => hs

section File

variable {sffsi : Sffsi} {psffsd : Ptr} {fsIOFlag : UInt16}

theorem fsFileInfo_released (h : Acquires env → ¬ PreReleases env fsFlag usLevel ∧
      (Signalled env → ¬ PostReleases env fsFlag usLevel)) :
    Triple (Starts c) (Stub.fsFileInfo env fsFlag sffsi psffsd usLevel pData cbData fsIOFlag)
      (fun _ _ => False) (fun _ => Released) := by
  refine exchange_released (fun hacq => ?_) fun hacq hsig =>
    (Silent.returnSffsi.bind fun _ => infoPost_silent ((h hacq).2 hsig)).keeps
  exact (setRequest_holdsWith _).bind fun _ =>
    (infoPre_silent (h hacq).1).keeps.consequence (fun _ hs => hs.1) (fun _ _ hs => hs)
      fun _ _ hs => hs

theorem fsFileInfo_breaks (hacq : Acquires env) (h : PreReleases env fsFlag usLevel ∨
      Signalled env ∧ PostReleases env fsFlag usLevel) :
    Triple (Starts c) (Stub.fsFileInfo env fsFlag sffsi psffsd usLevel pData cbData fsIOFlag)
      (fun _ _ => False) (fun _ => InPhase none) := by
  refine exchange_ends hacq ?_
  by_cases hpre : PreReleases env fsFlag usLevel
  · refine exchangeBody_of_fill_releases ((setRequest_holdsWith _).bind fun _ =>
      (infoPre_releases hpre).consequence (fun _ hs => hs.1) (fun _ _ hs => hs) fun _ _ hs => hs) ?_
    exact Triple.bind Silent.returnSffsi.1.stuck fun _ => infoPost_stuck
  · obtain ⟨hsig, hpost⟩ := h.resolve_left hpre
    refine exchangeBody_of_finish_releases hsig ((setRequest_holdsWith _).bind fun _ =>
      ((infoPre_silent hpre).triple (Or.inl rfl)).consequence (fun _ hs => hs.1) (fun _ _ hs => hs)
        fun _ _ hs => hs) ?_
    exact (Silent.returnSffsi.triple (Or.inl rfl)).bind fun _ => infoPost_breaks hpost

end File

section Path

variable {cdfsi : Cdfsi} {cdfsd : Cdfsd} {pszName : List UInt8} {iCurDirEnd : UInt16}

theorem fsPathInfo_released (h : Acquires env → pszName.length < CCHMAXPATH →
      ¬ PreReleases env fsFlag usLevel ∧ (Signalled env → ¬ PostReleases env fsFlag usLevel)) :
    Triple (Starts c) (Stub.fsPathInfo env fsFlag cdfsi cdfsd pszName iCurDirEnd usLevel pData
      cbData) (fun _ _ => False) (fun _ => Released) := by
  by_cases hname : pszName.length < CCHMAXPATH
  · refine exchange_released (fun hacq => ?_) fun hacq hsig =>
      (infoPost_silent ((h hacq hname).2 hsig)).keeps
    refine (pathRequest_triple _ _ _ _ _ fun _ _ _ hs => hs).bind fun _ => ?_
    exact ((Silent.setRequest _).bind fun _ => infoPre_silent (h hacq hname).1).keeps.consequence
      (fun _ hs => hs.2.1) (fun _ _ hs => hs) fun _ _ hs => hs
  · -- the name is refused, and nothing behind it runs
    refine exchange_triple (fun _ => ?_) fun _ _ _ hs => hs
    refine Triple.bind (Q := fun _ _ => False) ?_ fun _ _ hs => hs.elim
    exact Triple.bind (Q := fun _ _ => False)
      ((pathRequest_triple _ _ _ _ _ fun _ _ _ hs => Or.inr hs).consequence
        (fun _ hs => hs) (fun _ _ hs => hname hs.1) fun _ _ hs => hs) fun _ _ hs => hs.elim

theorem fsPathInfo_breaks (hacq : Acquires env) (hname : pszName.length < CCHMAXPATH)
    (h : PreReleases env fsFlag usLevel ∨ Signalled env ∧ PostReleases env fsFlag usLevel) :
    Triple (Starts c) (Stub.fsPathInfo env fsFlag cdfsi cdfsd pszName iCurDirEnd usLevel pData
      cbData) (fun _ _ => False) (fun _ => InPhase none) := by
  refine exchange_ends hacq ?_
  have hpath {R : ApiRet → StubState δ → Prop} :=
    @pathRequest_triple _ env c .FSRQ_PATHINFO cdfsi cdfsd pszName iCurDirEnd R
      fun hlong => absurd hname (Nat.not_lt.mpr hlong)
  by_cases hpre : PreReleases env fsFlag usLevel
  · refine exchangeBody_of_fill_releases (hpath.bind fun _ => ?_) infoPost_stuck
    exact ((Silent.setRequest _).triple (Or.inl rfl) |>.bind
      fun _ => infoPre_releases hpre).consequence
      (fun _ hs => hs.2.1) (fun _ _ hs => hs) fun _ _ hs => hs
  · obtain ⟨hsig, hpost⟩ := h.resolve_left hpre
    refine exchangeBody_of_finish_releases hsig (hpath.bind fun _ => ?_) (infoPost_breaks hpost)
    exact (((Silent.setRequest _).bind fun _ => infoPre_silent hpre).triple
      (Or.inl rfl)).consequence
      (fun _ hs => hs.2.1) (fun _ _ hs => hs) fun _ _ hs => hs

end Path

end Info

/-! ### Calls and threads -/

/-- A sound call keeps the discipline. -/
theorem disciplined_of_sound {s : StubState δ} {call : StubCall} (h : call.Sound env s.caller) :
    Disciplined (call.lockTrace env s) := by
  refine disciplined_of_released ?_
  -- only the calls that take an `EAOP` need `h`
  cases call with
  | fsFsCtl => exact fsFsCtl_released _ _ _ _ _ _ _ _ _
  | fsAttach => exact fsAttach_released _ _ _ _ _ _
  | fsIoctl => exact fsIoctl_released h
  | fsFsInfo => exact fsFsInfo_released _ _ _ _ _
  | fsFlushBuf => exact exchange_keeps (Silent.setRequest _).keeps Silent.requestRc.keeps
  | fsOpenCreate => exact fsOpenCreate_released _ _ _ _ _ _ _ _ _
  | fsClose => exact fileExchange_released _
  | fsRead => exact fsRead_released _ _ _ _ _
  | fsWrite => exact fsWrite_released _ _ _ _ _
  | fsChgFilePtr => exact fileExchange_released _
  | fsNewSize => exact fileExchange_released _
  | fsFileAttribute => exact fsFileAttribute_released _ _ _ _ _ _
  | fsFileInfo => exact fsFileInfo_released h
  | fsCommit => exact fileExchange_released _
  | fsPathInfo => exact fsPathInfo_released h
  | fsDelete => exact nameExchange_released _ _ _ _ _
  | fsCopy => exact plainExchange_released _
  | fsMove => exact fsMove_released _ _ _ _ _ _
  | fsChDir => exact fsChDir_released _ _ _ _ _
  | fsMkDir => exact fsMkDir_released _ _ _ _ _
  | fsRmDir => exact nameExchange_released _ _ _ _ _
  | fsFindFirst => exact fsFindFirst_released h
  | fsFindNext => exact fsFindNext_released h
  | fsFindFromName => exact fsFindFromName_released h
  | fsFindClose => exact exchange_keeps (Silent.setRequest _).keeps Silent.requestRc.keeps
  | fsFindNotifyFirst => exact plainExchange_released _
  | fsFindNotifyNext => exact plainExchange_released _
  | fsFindNotifyClose => exact plainExchange_released _
  | fsProcessName => exact fsProcessName_released _

/-- A call that is not sound returns with the lock held, or breaks the discipline. -/
theorem not_disciplined_of_not_sound {s : StubState δ} {call : StubCall}
    (h : ¬ call.Sound env s.caller) : ¬ Disciplined (call.lockTrace env s) := by
  cases call with
  | fsIoctl =>
    simp only [StubCall.Sound, Classical.not_imp] at h
    obtain ⟨hacq, hparm, hread⟩ := h
    exact not_disciplined_of_ends (Or.inl rfl) (fsIoctl_returns hacq hparm hread)
  | fsFileInfo =>
    simp only [StubCall.Sound, Classical.not_imp, not_and_or, not_not] at h
    exact not_disciplined_of_ends (Or.inr rfl) (fsFileInfo_breaks h.1 h.2)
  | fsPathInfo =>
    simp only [StubCall.Sound, Classical.not_imp, not_and_or, not_not] at h
    exact not_disciplined_of_ends (Or.inr rfl) (fsPathInfo_breaks h.1 h.2.1 h.2.2)
  | fsFindFirst =>
    simp only [StubCall.Sound, Classical.not_imp] at h
    obtain ⟨hacq, hname, hlevel, hlist⟩ := h
    exact not_disciplined_of_ends (Or.inl rfl) (fsFindFirst_returns hacq hname hlevel hlist)
  | fsFindNext =>
    simp only [StubCall.Sound, Classical.not_imp] at h
    obtain ⟨hacq, hlevel, hlist⟩ := h
    exact not_disciplined_of_ends (Or.inl rfl) (fsFindNext_returns hacq hlevel hlist)
  | fsFindFromName =>
    simp only [StubCall.Sound, Classical.not_imp] at h
    obtain ⟨hacq, hname, hlevel, hlist⟩ := h
    exact not_disciplined_of_ends (Or.inl rfl) (fsFindFromName_returns hacq hname hlevel hlist)
  | _ => exact absurd trivial h

/-- A sound call with what it meets. -/
structure SoundCall (δ : Type) where
  env : StubEnv δ
  state : StubState δ
  call : StubCall
  sound : call.Sound env state.caller

/-- What a thread that makes the calls, newest first, does to the lock. -/
def threadTrace (calls : List (SoundCall δ)) : List LockEvent :=
  (calls.map fun c => c.call.lockTrace c.env c.state).flatten

/-- Sound calls leave the thread outside. -/
theorem side_threadTrace (calls : List (SoundCall δ)) :
    side (threadTrace calls) = some .outside := by
  refine side_flatten fun trace htrace => ?_
  obtain ⟨c, -, rfl⟩ := List.mem_map.mp htrace
  exact disciplined_of_sound c.sound

/-- A call keeps the discipline exactly when it is sound, and of threads that make sound calls
at most one is ever between acquire and release. -/
theorem exchange_lock_exclusive (δ ι : Type) [DecidableEq ι] :
    (∀ (env : StubEnv δ) (s : StubState δ) (call : StubCall),
      Disciplined (call.lockTrace env s) ↔ call.Sound env s.caller) ∧
    ∀ (threads : ι → List (SoundCall δ)) (s : System ι),
      Transition.Reaches (Step fun i => threadTrace (threads i)) System.start s →
      ∀ i j, side (s.history i) = some .inside → side (s.history j) = some .inside → i = j := by
  refine ⟨fun env s call => ⟨fun h => ?_, disciplined_of_sound⟩, fun threads s hrun i j hi hj => ?_⟩
  · by_contra hsound
    exact not_disciplined_of_not_sound hsound h
  · exact mutual_exclusion (fun i => side_threadTrace (threads i)) hrun hi hj

/-- A running daemon that changes nothing, and a kernel whose probes come to `probe`. -/
def quietEnv (probe : ProbeSite → ApiRet) : StubEnv Unit where
  daemonAtDetach := true
  daemonAtEntry := true
  callerIsDaemon := false
  requestSem := .NO_ERROR
  daemonAfterRequest := true
  releaseSem := .NO_ERROR
  setRqDone _ := .NO_ERROR
  clearRqAvail _ := .NO_ERROR
  waitRqDone _ := .NO_ERROR
  daemonAfterWait _ := true
  probe := probe
  queryVPFSD _ := 0
  daemon d r m := (d, r, m)

def idleState : StubState Unit := ⟨default, Memory.zeros, Memory.zeros, (), []⟩

/-- `FS_IOCTL` with a parameter length above its maximum returns with the lock held, and
`FS_FILEINFO` with a buffer that is not writable releases it twice. -/
theorem exchange_lock_broken :
    phase ((StubCall.fsIoctl default 0 0 0 0 1 0 2 0 0 0).lockTrace
      (quietEnv fun _ => .NO_ERROR) idleState) = some .held ∧
    ((StubCall.fsFileInfo 0 default 0 1 0 1 0).lockTrace
      (quietEnv fun _ => .ERROR_ACCESS_DENIED) idleState).count .release = 2 := by
  constructor <;> decide

end Stub

end Isofs
