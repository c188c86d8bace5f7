import Isofs.Stub.Sessions

/-!
# Attaching through the driver

An `FS_ATTACH` that succeeds is one that the daemon has granted, and the kernel keeps the volume
data that the daemon has passed on.
-/

namespace Isofs

namespace Stub

open Proc

/-- What the kernel keeps for a volume after events, newest first. -/
def vpfsdAfter (pvpfsd : Ptr) : List StubEvent → Ptr
  | [] => pvpfsd
  | .store (.vpfsd p) :: _ => p
  | _ :: trace => vpfsdAfter pvpfsd trace

/-- An `FS_ATTACH` that attaches a drive. -/
structure AttachCall where
  pszDev : List UInt8
  pvpfsd : Ptr
  pcdfsd : Option Cdfsd
  pParm : Ptr
  pcbParm : UInt16

namespace AttachCall

variable {δ : Type} {env : StubEnv δ} (a : AttachCall)

/-- The body of the entry point called. -/
def body (env : StubEnv δ) : Stub δ Empty :=
  Stub.fsAttach env FSA_ATTACH a.pszDev (some a.pvpfsd) a.pcdfsd a.pParm a.pcbParm

/-- What the call makes of the request buffer. -/
def request (r : Request) : Request :=
  { r with
    rq := .FSRQ_ATTACH, fsFlag := FSA_ATTACH, szDev := a.pszDev, pVolData := a.pvpfsd
    cdfsd := a.pcdfsd.getD r.cdfsd, cbParm := a.pcbParm }

/-- What it makes of the data buffer. -/
def data (caller m : Memory) : Memory := m.blit 0 (caller.slice a.pParm a.pcbParm.toNat)

/-- The statements that fill the exchange buffers. -/
def fill (env : StubEnv δ) : Stub δ Unit := do
  setRequest fun r => { r with rq := .FSRQ_ATTACH, fsFlag := FSA_ATTACH }
  checkString env a.pszDev FSXCHG_ATTACH_DEVMAX
  setRequest fun r =>
    { r with
      szDev := a.pszDev, pVolData := a.pvpfsd, cdfsd := a.pcdfsd.getD r.cdfsd, cbParm := a.pcbParm }
  onlyIf ((FSA_ATTACH = FSA_ATTACH ∨ FSA_ATTACH = FSA_DETACH) ∧ a.pcbParm ≠ 0) do
    probeOrRelease env .parmRead a.pParm a.pcbParm
    copyIn a.pParm a.pcbParm

/-- The statements behind the work of the daemon. -/
def finish : Stub δ ApiRet := do
  let pVolData ← getRequest (·.pVolData)
  store (.vpfsd pVolData)
  let cdfsd ← getRequest (·.cdfsd)
  onlyIf (a.pcdfsd ≠ none) (store (.cdfsd cdfsd))
  requestRc

theorem body_eq : a.body env = exchange env (a.fill env) a.finish := by
  rw [body, fsAttach, onlyIf_of_false fun h => absurd h.1 (by decide)]
  rfl

theorem fill_silent : Emits StoresNothing (a.fill env) := by
  refine (Emits.setRequest trivial _).bind fun _ => (Emits.checkString trivial _ _).bind fun _ =>
    (Emits.setRequest trivial _).bind fun _ => Emits.onlyIf ?_
  exact ((Emits.probe trivial).bind fun _ => Emits.onlyIf (Emits.releaseAndExit trivial _)).bind
    fun _ => Emits.copyIn trivial _ _ trivial

/-- Behind the work of the daemon nothing is handed over. -/
theorem finish_emits : Emits IsLocal (a.finish : Stub δ ApiRet) :=
  (Emits.getRequest trivial _).bind fun _ => (Emits.log trivial).bind fun _ =>
    (Emits.getRequest trivial _).bind fun _ => (Emits.onlyIf (Emits.log trivial)).bind fun _ =>
      Emits.getRequest trivial _

/-- The name of the drive and the parameters get into the exchange buffers. -/
def Filled (env : StubEnv δ) : Prop :=
  a.pszDev.length < FSXCHG_ATTACH_DEVMAX ∧ (a.pcbParm ≠ 0 → env.probe .parmRead = .NO_ERROR)

/-- The buffers as the daemon gets them, unless the call returns an error. -/
theorem fill_prepared {s : StubState δ} {q : Request} {m : Memory} :
    Triple (Prepared s q m) (a.fill env)
      (fun _ t => a.Filled env ∧ Prepared s (a.request q) (a.data s.caller m) t)
      (fun rc _ => rc ≠ .NO_ERROR ∧ ¬ a.Filled env) := by
  refine (setRequest_prepared _).bind fun _ => Triple.bind ((checkString_prepared _ _).consequence
    (fun _ h => h) (fun _ _ h => h) fun rc _ h => ?_) fun _ => Triple.given fun hname =>
      (setRequest_prepared _).bind fun _ => Triple.onlyIf (fun hparm => ?_) fun hempty _ h => ?_
  · rw [h.2.1]
    exact ⟨exitCode_ne_noError (by decide), fun hfilled => absurd hfilled.1 (Nat.not_lt.mpr h.1)⟩
  · refine Triple.bind (Q := fun _ t => env.probe .parmRead = .NO_ERROR ∧
      Prepared s (a.request q) m t) ((probe_prepared _ _ _).bind fun rc => Triple.given ?_)
      fun _ => Triple.given fun hprobe => (copyIn_prepared _ _).consequence (fun _ h => h)
        (fun _ _ h => ⟨⟨hname, fun _ => hprobe⟩, h⟩) fun _ _ h => h
    rintro rfl
    refine Triple.onlyIf (fun hprobe => (releaseAndExit_prepared _).consequence (fun _ h => h)
      (fun _ _ h => h) fun _ _ h => ?_) fun hprobe _ h => ⟨not_not.mp hprobe, h⟩
    rw [h.1]
    exact ⟨exitCode_ne_noError (by decide), fun hfilled => hprobe (hfilled.2 hparm.2)⟩
  · have hzero : a.pcbParm = 0 := by
      by_contra hne
      exact hempty ⟨Or.inl rfl, hne⟩
    have hdata : a.data s.caller m = m := by
      rw [data, hzero]
      exact Memory.blit_nil _ _
    rw [hdata]
    exact ⟨⟨hname, fun hne => absurd hzero hne⟩, h⟩

section Run

variable {w : Wiring} {s : StubState Daemon.State}

/-- The request as the daemon gets it. -/
def posted (w : Wiring) (s : StubState Daemon.State) : Daemon.Posted :=
  w.posted (a.request s.pRequest) (a.data s.caller s.pFSData)

theorem posted_pData : (a.posted w s).pData = a.data s.caller s.pFSData := rfl

/-- How the attach ends. -/
def run (w : Wiring) (s : StubState Daemon.State) : ApiRet × StubState Daemon.State :=
  (a.body w.stub).run { s with trace := [] }

/-- Behind the work of the daemon the volume is passed on. -/
theorem finish_ends {q : Request} {m : Memory} {d : Daemon.State} {rc : ApiRet}
    (hserve : Daemon.serveAny s.daemon (w.posted q m) = (.ret rc, d))
    {t : StubState Daemon.State} (ht : Served w s q m t) :
    Ends a.finish (fun rc' u => rc' = rc ∧ u.daemon = d ∧
      vpfsdAfter a.pvpfsd u.trace = d.request.pVolData) (fun _ _ => False) t := by
  have hrequest : t.pRequest = { d.request with rc := rc } := by
    rw [ht.request, hserve]
    rfl
  have hdaemon : t.daemon = d := by rw [ht.daemon, hserve]
  have hrc : t.pRequest.rc = rc := by rw [hrequest]
  have hvolume : t.pRequest.pVolData = d.request.pVolData := by rw [hrequest]
  refine Ends.bind (Ends.of_ok rfl (Ends.bind (Ends.update (Ends.bind (Ends.of_ok rfl
    (Ends.bind (Ends.onlyIf (fun _ => Ends.update ?_) fun _ => ?_)))))))
  · exact Ends.of_ok rfl ⟨hrc, hdaemon, hvolume⟩
  · exact Ends.of_ok rfl ⟨hrc, hdaemon, hvolume⟩

/-- An attach whose request is answered and that succeeds was granted by the daemon, and its volume
was passed on. -/
theorem granted_of_run (h : (a.run w s).1 = .NO_ERROR)
    (hanswered : ∃ rc, (Daemon.serveAny s.daemon (a.posted w s)).1 = .ret rc) :
    (Daemon.serveAny s.daemon (a.posted w s)).1 = .ret .NO_ERROR ∧
      (a.run w s).2.daemon = (Daemon.serveAny s.daemon (a.posted w s)).2 ∧
      vpfsdAfter a.pvpfsd (a.run w s).2.trace =
        (Daemon.serveAny s.daemon (a.posted w s)).2.request.pVolData := by
  obtain ⟨rc, hrc⟩ := hanswered
  have hserve : Daemon.serveAny s.daemon (a.posted w s) =
      (.ret rc, (Daemon.serveAny s.daemon (a.posted w s)).2) := Prod.ext hrc rfl
  rw [hrc]
  generalize (Daemon.serveAny s.daemon (a.posted w s)).2 = d at hserve
  have hend : (a.run w s).1 = .NO_ERROR → rc = .NO_ERROR ∧ (a.run w s).2.daemon = d ∧
      vpfsdAfter a.pvpfsd (a.run w s).2.trace = d.request.pVolData := by
    refine Ends.run (Q := fun _ _ => False) (R := fun (rc' : ApiRet) (u : StubState Daemon.State) =>
      rc' = .NO_ERROR → rc = .NO_ERROR ∧ u.daemon = d ∧
        vpfsdAfter a.pvpfsd u.trace = d.request.pVolData) ?_
    rw [body_eq]
    refine exchange_served rfl (fun hnot _ hok => ?_) a.fill_silent
      (a.fill_prepared.consequence (fun _ h => h) (fun _ _ h => h)
        fun _ _ h hok => absurd hok h.1) (fun hnot _ hok => ?_) fun t ht => ?_
    · exact absurd (acquireCode_eq_noError_iff.mp hok) hnot
    · exact absurd hok (exitCode_ne_noError (mt signalCode_eq_noError_iff.mp hnot))
    · have hserved : Served w s (a.request s.pRequest) (a.data s.caller s.pFSData) t :=
        ⟨ht.caller, ht.daemon, ht.request, ht.data, ht.silent⟩
      refine (a.finish_ends hserve hserved).mono (fun rc' u h hok => ?_) fun _ _ h => h.elim
      obtain ⟨rfl, hdaemon, hvolume⟩ := h
      refine ⟨?_, hdaemon, hvolume⟩
      by_contra hne
      exact absurd hok (exitCode_ne_noError hne)
  obtain ⟨rfl, hdaemon, hvolume⟩ := hend h
  exact ⟨rfl, hdaemon, hvolume⟩

/-- An attach that the daemon grants succeeds. -/
theorem run_of_granted (hacquires : Acquires w.stub) (hsignalled : Signalled w.stub)
    (hreleases : w.stub.releaseSem = .NO_ERROR) (hfilled : a.Filled w.stub)
    (hgranted : (Daemon.serveAny s.daemon (a.posted w s)).1 = .ret .NO_ERROR) :
    (a.run w s).1 = .NO_ERROR := by
  have hserve : Daemon.serveAny s.daemon (a.posted w s) =
      (.ret .NO_ERROR, (Daemon.serveAny s.daemon (a.posted w s)).2) := Prod.ext hgranted rfl
  refine Ends.run (Q := fun _ _ => False)
    (R := fun (rc : ApiRet) (_ : StubState Daemon.State) => rc = .NO_ERROR) ?_
  rw [body_eq]
  refine exchange_served rfl (fun h => absurd hacquires h) a.fill_silent
    (a.fill_prepared.consequence (fun _ h => h) (fun _ _ h => h)
      fun _ _ h => absurd hfilled h.2) (fun h => absurd hsignalled h) fun t ht => ?_
  have hserved : Served w s (a.request s.pRequest) (a.data s.caller s.pFSData) t :=
    ⟨ht.caller, ht.daemon, ht.request, ht.data, ht.silent⟩
  refine (a.finish_ends hserve hserved).mono (fun rc _ h => ?_) fun _ _ h => h.elim
  rw [exitCode, if_neg (not_not.mpr hreleases)]
  exact h.1

end Run

end AttachCall

end Stub

end Isofs
