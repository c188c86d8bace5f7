import Isofs.Library.LockTrace
import Isofs.Stub.Exchange

/-!
# The page locks of the exchange buffers

`daemonStarted` locks the pages of the two exchange buffers and `daemonStopped` unlocks them.
`FS_FSCTL` and `FS_EXIT` are the callers of both; calls run one after the other, by any processes.
-/

namespace Isofs

namespace Stub

open Proc LockTrace

/-- The identifier of a process. No process has the identifier 0, which `pidDaemon` uses for
no daemon. -/
structure ProcessId where
  pid : UInt16
  pid_ne_zero : pid ≠ 0

/-- The exchange buffers, in the order of their lock handles in `ahvmlock`. -/
inductive XchgBuffer where
  | request
  | data
  deriving DecidableEq, Repr

/-- `SETXCHGBUFFERS`: the linear addresses of the exchange buffers. -/
structure SetXchgBuffers where
  linRequest : Ptr
  linData : Ptr

def sizeofSETXCHGBUFFERS : UInt16 := 8

/-- What the kernel helpers return in a call. -/
structure PageEnv where
  probe : ProbeSite → ApiRet
  vmLock : XchgBuffer → ApiRet
  linToGDTSelector : XchgBuffer → ApiRet
  setRqAvail : ApiRet
  requestSerialize : ApiRet
  clearSerialize : ApiRet

/-- All lock, mapping and semaphore calls succeed. -/
structure PageEnv.Succeeds (env : PageEnv) : Prop where
  vmLock : ∀ b, env.vmLock b = .NO_ERROR
  linToGDTSelector : ∀ b, env.linToGDTSelector b = .NO_ERROR
  setRqAvail : env.setRqAvail = .NO_ERROR
  requestSerialize : env.requestSerialize = .NO_ERROR
  clearSerialize : env.clearSerialize = .NO_ERROR

/-- The calls of kernel helpers that have an effect. -/
inductive PageEvent where
  | vmLock (buffer : XchgBuffer) (lin : Ptr)
  | vmUnLock (buffer : XchgBuffer)
  | linToGDTSelector (buffer : XchgBuffer) (lin : Ptr)
  | setRqAvail
  | clearRqDone
  | requestSerialize
  | clearSerialize

/-- The variable `pidDaemon`, and the events so far, newest first. -/
structure PageState where
  pidDaemon : UInt16
  trace : List PageEvent

/-- The state that `FS_INIT` leaves. -/
def PageState.start : PageState := ⟨0, []⟩

section Code

variable (env : PageEnv)

/-- A kernel helper that returns `rc`: unless it succeeds, its caller returns `code`. -/
def helper (rc : ApiRet) (e : PageEvent) (code : ApiRet) : Proc PageState ApiRet Unit := do
  onlyIf (rc ≠ .NO_ERROR) (ret code)
  update fun s => { s with trace := e :: s.trace }

/-- `daemonStarted`. It ends without a `return`, so it returns what its last call did. -/
def daemonStarted (pid : ProcessId) (pxchg : SetXchgBuffers) : Proc PageState ApiRet Empty := do
  helper (env.vmLock .request) (.vmLock .request pxchg.linRequest) .ERROR_STUBFSD_INIT_FAILED
  helper (env.linToGDTSelector .request) (.linToGDTSelector .request pxchg.linRequest)
    .ERROR_STUBFSD_INIT_FAILED
  helper (env.vmLock .data) (.vmLock .data pxchg.linData) .ERROR_STUBFSD_INIT_FAILED
  helper (env.linToGDTSelector .data) (.linToGDTSelector .data pxchg.linData)
    .ERROR_STUBFSD_INIT_FAILED
  update fun s => { s with pidDaemon := pid.pid }
  helper env.setRqAvail .setRqAvail env.setRqAvail
  helper env.clearSerialize .clearSerialize env.clearSerialize
  ret env.clearSerialize

/-- `daemonStopped`. -/
def daemonStopped : Proc PageState ApiRet Empty := do
  update fun s => { pidDaemon := 0, trace := .clearRqDone :: s.trace }
  helper env.requestSerialize .requestSerialize env.requestSerialize
  update fun s => { s with trace := .vmUnLock .data :: .vmUnLock .request :: s.trace }
  helper env.clearSerialize .clearSerialize env.clearSerialize
  ret .NO_ERROR

/-- The functions of `FS_FSCTL` that start and stop a daemon. -/
inductive DaemonFunction where
  | DAEMON_STARTED
  | DAEMON_STOPPED
  | RESET
  deriving DecidableEq, Repr

/-- The arguments of `FS_FSCTL`. `pcbParm` is the length that the pointer points to. -/
structure DaemonControl where
  iArgType : UInt16
  usFunc : DaemonFunction
  pParm : SetXchgBuffers
  cbMaxParm : UInt16
  pcbParm : UInt16

/-- `if (rc) return ERROR_INVALID_PARAMETER;` after a probe. -/
def mustRead (site : ProbeSite) : Proc PageState ApiRet Unit :=
  onlyIf (env.probe site ≠ .NO_ERROR) (ret .ERROR_INVALID_PARAMETER)

/-- `FS_FSCTL` with one of these functions, called by process `pid`. -/
def fsFsCtlDaemon (pid : ProcessId) (ctl : DaemonControl) : Proc PageState ApiRet Empty := do
  onlyIf (ctl.iArgType ≠ FSCTL_ARG_FILEINSTANCE ∧ ctl.iArgType ≠ FSCTL_ARG_CURDIR ∧
    ctl.iArgType ≠ FSCTL_ARG_NULL) (ret .ERROR_NOT_SUPPORTED)
  onlyIf (ctl.cbMaxParm ≠ 0) do
    mustRead env .pcbParm
    onlyIf (ctl.cbMaxParm < ctl.pcbParm) (ret .ERROR_INVALID_PARAMETER)
    onlyIf (ctl.pcbParm ≠ 0) (mustRead env .parmRead)
  let pidDaemon ← read (·.pidDaemon)
  match ctl.usFunc with
  | .DAEMON_STARTED => do
    onlyIf (pidDaemon ≠ 0) (ret .ERROR_STUBFSD_DAEMON_RUNNING)
    onlyIf (ctl.pcbParm ≠ sizeofSETXCHGBUFFERS) (ret .ERROR_INVALID_PARAMETER)
    daemonStarted env pid ctl.pParm
  | .DAEMON_STOPPED => do
    onlyIf (pidDaemon = 0) (ret .ERROR_STUBFSD_DAEMON_NOT_RUNNING)
    onlyIf (pid.pid ≠ pidDaemon) (ret .ERROR_STUBFSD_NOT_DAEMON)
    daemonStopped env
  | .RESET => daemonStopped env

/-- `FS_EXIT`. -/
def fsExit (pid : UInt16) : Proc PageState Unit Empty := do
  let pidDaemon ← read (·.pidDaemon)
  onlyIf (pidDaemon ≠ 0 ∧ pid = pidDaemon) do
    let _ ← call (daemonStopped env)
  ret ()

end Code

/-- A call that may start or stop a daemon, with what it meets. -/
inductive PageCall where
  | fsctl (env : PageEnv) (pid : ProcessId) (ctl : DaemonControl)
  | exit (env : PageEnv) (pid : UInt16)

namespace PageCall

def env : PageCall → PageEnv
  | .fsctl env _ _ => env
  | .exit env _ => env

/-- The state after the call. -/
def after (c : PageCall) (s : PageState) : PageState :=
  match c with
  | .fsctl env pid ctl => ((fsFsCtlDaemon env pid ctl).run s).2
  | .exit env pid => ((fsExit env pid).run s).2

end PageCall

/-- The state after a sequence of calls. -/
def runCalls (s : PageState) : List PageCall → PageState
  | [] => s
  | c :: cs => runCalls (c.after s) cs

/-! ### Balance -/

/-- What an event does to the lock handle of a buffer. -/
def handleEvent (b : XchgBuffer) : PageEvent → LockEvent
  | .vmLock buffer _ => if buffer = b then .acquire else .other
  | .vmUnLock buffer => if buffer = b then .release else .other
  | _ => .other

/-- The history of the lock handle of a buffer. -/
def PageState.handle (s : PageState) (b : XchgBuffer) : List LockEvent :=
  s.trace.map (handleEvent b)

/-- Each lock handle has been unlocked only while it was held, and is held exactly when there is
a daemon. -/
structure LocksBalanced (s : PageState) : Prop where
  unlocked : ∀ b, ReleasesHeld (s.handle b)
  held : ∀ b, holds (s.handle b) ↔ s.pidDaemon ≠ 0

/-- `FS_FSCTL` gets past the checks of its argument type and its parameter buffer. -/
structure DaemonControl.Accepted (ctl : DaemonControl) (env : PageEnv) : Prop where
  argType : ctl.iArgType = FSCTL_ARG_FILEINSTANCE ∨ ctl.iArgType = FSCTL_ARG_CURDIR ∨
    ctl.iArgType = FSCTL_ARG_NULL
  parms : ctl.cbMaxParm ≠ 0 → env.probe .pcbParm = .NO_ERROR ∧ ctl.pcbParm ≤ ctl.cbMaxParm ∧
    (ctl.pcbParm ≠ 0 → env.probe .parmRead = .NO_ERROR)

/-- The call is not a reset that is accepted while there is no daemon. -/
def PageCall.Attended (s : PageState) : PageCall → Prop
  | .fsctl env _ ctl => ctl.usFunc = .RESET → ctl.Accepted env → s.pidDaemon ≠ 0
  | .exit _ _ => True

/-- No call of the sequence is a reset that is accepted while there is no daemon. -/
def ResetsAttended (s : PageState) : List PageCall → Prop
  | [] => True
  | c :: cs => c.Attended s ∧ ResetsAttended (c.after s) cs

/-! ### What a call does -/

/-- The state behind a start of process `pid`. -/
def PageState.started (s : PageState) (pid : ProcessId) (pxchg : SetXchgBuffers) : PageState where
  pidDaemon := pid.pid
  trace := .clearSerialize :: .setRqAvail :: .linToGDTSelector .data pxchg.linData ::
    .vmLock .data pxchg.linData :: .linToGDTSelector .request pxchg.linRequest ::
    .vmLock .request pxchg.linRequest :: s.trace

/-- The state behind a stop. -/
def PageState.stopped (s : PageState) : PageState where
  pidDaemon := 0
  trace := .clearSerialize :: .vmUnLock .data :: .vmUnLock .request :: .requestSerialize ::
    .clearRqDone :: s.trace

/-- A start locks both buffers. -/
theorem locksBalanced_started {s : PageState} (h : LocksBalanced s) (pid : ProcessId)
    (pxchg : SetXchgBuffers) : LocksBalanced (s.started pid pxchg) := by
  constructor
  · intro b
    cases b with
    | request => exact h.unlocked .request
    | data => exact h.unlocked .data
  · intro b
    cases b with
    | request => exact iff_of_true trivial pid.pid_ne_zero
    | data => exact iff_of_true trivial pid.pid_ne_zero

/-- A stop while there is a daemon unlocks both buffers. -/
theorem locksBalanced_stopped {s : PageState} (h : LocksBalanced s) (hdaemon : s.pidDaemon ≠ 0) :
    LocksBalanced s.stopped := by
  constructor
  · intro b
    cases b with
    | request => exact ⟨(h.held .request).mpr hdaemon, h.unlocked .request⟩
    | data => exact ⟨(h.held .data).mpr hdaemon, h.unlocked .data⟩
  · intro b
    cases b with
    | request => exact iff_of_false id (not_not.mpr rfl)
    | data => exact iff_of_false id (not_not.mpr rfl)

section Rules

variable {env : PageEnv} {α : Type} {Q : Unit → PageState → Prop} {R : ApiRet → PageState → Prop}
  {s : PageState}

/-- A helper that succeeds is logged. -/
theorem helper_ends {rc code : ApiRet} {e : PageEvent} (hrc : rc = .NO_ERROR)
    (hQ : Q () { s with trace := e :: s.trace }) : Ends (helper rc e code) Q R s :=
  Ends.bind (Ends.onlyIf (fun h => absurd hrc h) fun _ => Ends.update hQ)

theorem daemonStarted_ends (henv : env.Succeeds) (pid : ProcessId) (pxchg : SetXchgBuffers) :
    Ends (daemonStarted env pid pxchg) (fun _ _ => False) (fun _ t => t = s.started pid pxchg)
      s := by
  refine Ends.bind (helper_ends (henv.vmLock .request) ?_)
  refine Ends.bind (helper_ends (henv.linToGDTSelector .request) ?_)
  refine Ends.bind (helper_ends (henv.vmLock .data) ?_)
  refine Ends.bind (helper_ends (henv.linToGDTSelector .data) ?_)
  refine Ends.bind (Ends.update ?_)
  refine Ends.bind (helper_ends henv.setRqAvail ?_)
  exact Ends.bind (helper_ends henv.clearSerialize (Ends.ret rfl))

theorem daemonStopped_ends (henv : env.Succeeds) :
    Ends (daemonStopped env) (fun _ _ => False) (fun _ t => t = s.stopped) s := by
  refine Ends.bind (Ends.update ?_)
  refine Ends.bind (helper_ends henv.requestSerialize ?_)
  refine Ends.bind (Ends.update ?_)
  exact Ends.bind (helper_ends henv.clearSerialize (Ends.ret rfl))

/-- The checks of `FS_FSCTL` return without an effect, or the call is accepted. -/
theorem accepted_ends {ctl : DaemonControl} {m : Proc PageState ApiRet Empty}
    {S : Empty → PageState → Prop} (hrefused : ¬ ctl.Accepted env → ∀ rc, R rc s)
    (haccepted : ctl.Accepted env → Ends m S R s) :
    Ends (do
      onlyIf (ctl.iArgType ≠ FSCTL_ARG_FILEINSTANCE ∧ ctl.iArgType ≠ FSCTL_ARG_CURDIR ∧
        ctl.iArgType ≠ FSCTL_ARG_NULL) (ret .ERROR_NOT_SUPPORTED)
      onlyIf (ctl.cbMaxParm ≠ 0) do
        mustRead env .pcbParm
        onlyIf (ctl.cbMaxParm < ctl.pcbParm) (ret .ERROR_INVALID_PARAMETER)
        onlyIf (ctl.pcbParm ≠ 0) (mustRead env .parmRead)
      m) S R s := by
  refine Ends.bind (Ends.onlyIf (fun harg => Ends.ret (hrefused ?_ _)) fun harg => ?_)
  · rintro ⟨htype | htype | htype, -⟩
    · exact harg.1 htype
    · exact harg.2.1 htype
    · exact harg.2.2 htype
  have htype : ctl.iArgType = FSCTL_ARG_FILEINSTANCE ∨ ctl.iArgType = FSCTL_ARG_CURDIR ∨
      ctl.iArgType = FSCTL_ARG_NULL := by
    by_cases h1 : ctl.iArgType = FSCTL_ARG_FILEINSTANCE
    · exact Or.inl h1
    · by_cases h2 : ctl.iArgType = FSCTL_ARG_CURDIR
      · exact Or.inr (Or.inl h2)
      · exact Or.inr (Or.inr (not_not.mp fun h3 => harg ⟨h1, h2, h3⟩))
  refine Ends.bind (Ends.onlyIf (fun hmax => ?_) fun hmax => haccepted
    ⟨htype, fun h => absurd h hmax⟩)
  refine Ends.bind (Ends.onlyIf (fun hbad => Ends.ret (hrefused ?_ _)) fun hprobe => ?_)
  · exact fun hacc => hbad (hacc.parms hmax).1
  refine Ends.bind (Ends.onlyIf (fun hbad => Ends.ret (hrefused ?_ _)) fun hle => ?_)
  · exact fun hacc => absurd hbad (UInt16.not_lt.mpr (hacc.parms hmax).2.1)
  have hin : ctl.pcbParm ≤ ctl.cbMaxParm := UInt16.not_lt.mp hle
  refine Ends.onlyIf (fun hparm => Ends.onlyIf (fun hbad => Ends.ret (hrefused ?_ _)) ?_) ?_
  · exact fun hacc => hbad ((hacc.parms hmax).2.2 hparm)
  · exact fun hread => haccepted ⟨htype,
      fun _ => ⟨not_not.mp hprobe, hin, fun _ => not_not.mp hread⟩⟩
  · exact fun hparm => haccepted ⟨htype, fun _ => ⟨not_not.mp hprobe, hin, fun h => absurd h hparm⟩⟩

end Rules

/-- A call starts a daemon where there is none, stops the daemon, or is a reset that is accepted;
otherwise it has no effect. -/
inductive PageCall.Effect (c : PageCall) (s : PageState) : PageState → Prop where
  | none (h : c.Attended s) : c.Effect s s
  | started (h : c.Attended s) (pid : ProcessId) (pxchg : SetXchgBuffers) :
    c.Effect s (s.started pid pxchg)
  | stopped (h : c.Attended s ↔ s.pidDaemon ≠ 0) : c.Effect s s.stopped

theorem fsFsCtlDaemon_effect {env : PageEnv} (henv : env.Succeeds) (pid : ProcessId)
    (ctl : DaemonControl) (s : PageState) :
    Ends (fsFsCtlDaemon env pid ctl) (fun _ _ => False)
      (fun _ t => (PageCall.fsctl env pid ctl).Effect s t) s := by
  refine accepted_ends (fun hbad _ => .none fun _ hacc => absurd hacc hbad) fun hacc => ?_
  refine Ends.bind (Ends.read ?_)
  cases hfunc : ctl.usFunc with
  | DAEMON_STARTED =>
    have hattended : (PageCall.fsctl env pid ctl).Attended s := fun h => by
      rw [hfunc] at h
      cases h
    refine Ends.bind (Ends.onlyIf (fun _ => Ends.ret (.none hattended)) fun _ => ?_)
    refine Ends.bind (Ends.onlyIf (fun _ => Ends.ret (.none hattended)) fun _ => ?_)
    refine (daemonStarted_ends henv pid ctl.pParm).mono (fun _ _ h => h) ?_
    rintro _ t rfl
    exact .started hattended pid ctl.pParm
  -- a stop by another process is refused
  | DAEMON_STOPPED =>
    have hattended : (PageCall.fsctl env pid ctl).Attended s := fun h => by
      rw [hfunc] at h
      cases h
    refine Ends.bind (Ends.onlyIf (fun _ => Ends.ret (.none hattended)) fun hdaemon => ?_)
    refine Ends.bind (Ends.onlyIf (fun _ => Ends.ret (.none hattended)) fun _ => ?_)
    refine (daemonStopped_ends henv).mono (fun _ _ h => h) ?_
    rintro _ t rfl
    exact .stopped (iff_of_true hattended hdaemon)
  | RESET =>
    refine (daemonStopped_ends henv).mono (fun _ _ h => h) ?_
    rintro _ t rfl
    exact .stopped ⟨fun h => h hfunc hacc, fun h _ _ => h⟩

theorem fsExit_effect {env : PageEnv} (henv : env.Succeeds) (pid : UInt16) (s : PageState) :
    Ends (fsExit env pid) (fun _ _ => False) (fun _ t => (PageCall.exit env pid).Effect s t) s := by
  refine Ends.bind (Ends.read ?_)
  refine Ends.bind (Ends.onlyIf (fun hpid => ?_) fun _ => Ends.ret (.none trivial))
  refine Ends.bind (Ends.call ((daemonStopped_ends henv).mono (fun _ _ (h : False) => h) ?_))
  rintro _ t rfl
  exact Ends.pure (Ends.ret (.stopped (iff_of_true trivial hpid.1)))

theorem PageCall.after_effect {c : PageCall} (henv : c.env.Succeeds) (s : PageState) :
    c.Effect s (c.after s) := by
  cases c with
  | fsctl env pid ctl => exact (fsFsCtlDaemon_effect henv pid ctl s).run
  | exit env pid => exact (fsExit_effect henv pid s).run

/-! ### Sequences of calls -/

/-- A call that is not a reset without a daemon keeps the balance. -/
theorem locksBalanced_after {c : PageCall} (henv : c.env.Succeeds) {s : PageState}
    (h : LocksBalanced s) (hattended : c.Attended s) : LocksBalanced (c.after s) := by
  generalize hafter : c.after s = t
  have heffect := hafter ▸ c.after_effect henv s
  cases heffect with
  | none => exact h
  | started _ pid pxchg => exact locksBalanced_started h pid pxchg
  | stopped hiff => exact locksBalanced_stopped h (hiff.mp hattended)

/-- A reset without a daemon unlocks handles that are not held. -/
theorem attended_of_unlocked {c : PageCall} (henv : c.env.Succeeds) {s : PageState}
    (h : LocksBalanced s) (hunlocked : ReleasesHeld ((c.after s).handle .request)) :
    c.Attended s := by
  generalize hafter : c.after s = t at hunlocked
  have heffect := hafter ▸ c.after_effect henv s
  cases heffect with
  | none hattended => exact hattended
  | started hattended => exact hattended
  | stopped hiff => exact hiff.mpr ((h.held .request).mp hunlocked.1)

/-- A call only adds to the history of a handle. -/
theorem handle_suffix_after {c : PageCall} (henv : c.env.Succeeds) (s : PageState)
    (b : XchgBuffer) :
    s.handle b <:+ (c.after s).handle b := by
  generalize hafter : c.after s = t
  have heffect := hafter ▸ c.after_effect henv s
  cases heffect with
  | none => exact List.suffix_rfl
  | started _ pid pxchg => exact ⟨[_, _, _, _, _, _], rfl⟩
  | stopped => exact ⟨[_, _, _, _, _], rfl⟩

theorem handle_suffix_runCalls {calls : List PageCall} (henv : ∀ c ∈ calls, c.env.Succeeds)
    (s : PageState) (b : XchgBuffer) : s.handle b <:+ (runCalls s calls).handle b := by
  induction calls generalizing s with
  | nil => exact List.suffix_rfl
  | cons c cs ih =>
    rw [List.forall_mem_cons] at henv
    exact (handle_suffix_after henv.1 s b).trans (ih henv.2 _)

theorem locksBalanced_runCalls_iff {calls : List PageCall} (henv : ∀ c ∈ calls, c.env.Succeeds)
    {s : PageState} (h : LocksBalanced s) :
    LocksBalanced (runCalls s calls) ↔ ResetsAttended s calls := by
  induction calls generalizing s with
  | nil => exact iff_of_true h trivial
  | cons c cs ih =>
    rw [List.forall_mem_cons] at henv
    constructor
    · intro hrun
      obtain ⟨new, hnew⟩ := handle_suffix_runCalls henv.2 (c.after s) .request
      have hunlocked := hrun.unlocked .request
      rw [runCalls, ← hnew] at hunlocked
      have hattended := attended_of_unlocked henv.1 h hunlocked.of_append
      exact ⟨hattended, (ih henv.2 (locksBalanced_after henv.1 h hattended)).mp hrun⟩
    · rintro ⟨hattended, hrest⟩
      exact (ih henv.2 (locksBalanced_after henv.1 h hattended)).mpr hrest

theorem locksBalanced_start : LocksBalanced .start :=
  ⟨fun _ => trivial, fun _ => iff_of_false id (not_not.mpr rfl)⟩

/-- After a sequence of calls in which every lock, mapping and semaphore call succeeds, the page
locks are balanced exactly when no reset was accepted while there was no daemon. -/
theorem page_locks_balanced_iff (calls : List PageCall) (henv : ∀ c ∈ calls, c.env.Succeeds) :
    LocksBalanced (runCalls .start calls) ↔ ResetsAttended .start calls :=
  locksBalanced_runCalls_iff henv locksBalanced_start

/-! ### A reset without a daemon -/

/-- Every kernel helper succeeds. -/
def smoothPages : PageEnv where
  probe _ := .NO_ERROR
  vmLock _ := .NO_ERROR
  linToGDTSelector _ := .NO_ERROR
  setRqAvail := .NO_ERROR
  requestSerialize := .NO_ERROR
  clearSerialize := .NO_ERROR

theorem smoothPages_succeeds : smoothPages.Succeeds :=
  ⟨fun _ => rfl, fun _ => rfl, rfl, rfl, rfl⟩

/-- Linear addresses of two buffers. -/
def pageBuffers : SetXchgBuffers := ⟨0x10000, 0x20000⟩

def process7 : ProcessId := ⟨7, by decide⟩

/-- A call of process 7 with parameters of eight bytes. -/
def controlCall (usFunc : DaemonFunction) : PageCall :=
  .fsctl smoothPages process7 ⟨FSCTL_ARG_NULL, usFunc, pageBuffers, 8, 8⟩

theorem controlCall_succeeds (usFunc : DaemonFunction) : (controlCall usFunc).env.Succeeds :=
  smoothPages_succeeds

theorem after_controlCall_started {s : PageState} (h : s.pidDaemon = 0) :
    (controlCall .DAEMON_STARTED).after s = s.started process7 pageBuffers := by
  simp [controlCall, PageCall.after, fsFsCtlDaemon, Proc.run, bind_apply, onlyIf, h, daemonStarted,
    helper, smoothPages, mustRead, FSCTL_ARG_NULL, sizeofSETXCHGBUFFERS, PageState.started]

/-- The daemon starts, is reset, and its process exits. -/
theorem page_locks_balanced_sample :
    LocksBalanced (runCalls .start
      [controlCall .DAEMON_STARTED, controlCall .RESET, .exit smoothPages 7]) := by
  refine (page_locks_balanced_iff _ ?_).mpr ⟨nofun, fun _ _ => ?_, trivial, trivial⟩
  · simp only [List.forall_mem_cons]
    exact ⟨controlCall_succeeds _, controlCall_succeeds _, smoothPages_succeeds,
      List.forall_mem_nil _⟩
  · rw [after_controlCall_started rfl]
    exact process7.pid_ne_zero

/-- A reset before any start unlocks both handles. -/
theorem reset_unlocks_unheld :
    (∀ c ∈ [controlCall .RESET], c.env.Succeeds) ∧
      ¬ LocksBalanced (runCalls .start [controlCall .RESET]) := by
  have hparms : DaemonControl.Accepted ⟨FSCTL_ARG_NULL, .RESET, pageBuffers, 8, 8⟩ smoothPages :=
    ⟨Or.inr (Or.inr rfl), fun _ => ⟨rfl, by decide, fun _ => rfl⟩⟩
  constructor
  · exact List.forall_mem_singleton.mpr (controlCall_succeeds _)
  · intro h
    have hattended := attended_of_unlocked (controlCall_succeeds .RESET) locksBalanced_start
      (h.unlocked .request)
    exact hattended rfl hparms rfl

end Stub

end Isofs
