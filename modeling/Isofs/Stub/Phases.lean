import Isofs.Stub.Exclusion

/-!
# The phases of a call

Where a call stands in the exchange, by the semaphore calls of its trace, and what it takes the
exchange buffers and the daemon to be. Every call of an entry point goes through the phases in
their order; the daemon has worked for it exactly when a wait for `semRqDone` has ended.
-/

namespace Isofs

/-- What the driver and the daemon share: the exchange buffers, and what the daemon knows. -/
structure Shared (δ : Type) where
  pRequest : Request
  pFSData : Memory
  daemon : δ

def StubState.shared {δ : Type} (s : StubState δ) : Shared δ := ⟨s.pRequest, s.pFSData, s.daemon⟩

/-- The daemon works on the request in the buffers. -/
def StubEnv.serve {δ : Type} (env : StubEnv δ) (v : Shared δ) : Shared δ :=
  let (daemon, pRequest, pFSData) := env.daemon v.daemon v.pRequest v.pFSData
  ⟨pRequest, pFSData, daemon⟩

namespace Stub

open Proc

variable {δ α β : Type}

/-- Where a call is. From `filling` to `leaving` it has called `requestExchangeXS`; it is `reading`
behind a wait that has ended while the daemon was there. -/
inductive CallPhase where
  | outside
  | filling
  | armed (signal : Signal)
  | waiting (signal : Signal)
  | reading (signal : Signal)
  | leaving
  deriving DecidableEq, Repr

namespace CallPhase

/-- The phase behind an event. The exchange buffers are used only in `filling` and `reading`; in a
signal they are released only when a wait has failed. -/
def next (env : StubEnv δ) (p : CallPhase) : StubEvent → Option CallPhase
  | .requestSerialize =>
    match p with
    | .outside => some (if env.daemonAfterRequest then .filling else .leaving)
    | _ => none
  | .clearSerialize =>
    match p with
    | .outside => none
    | .armed _ => none
    | .waiting signal =>
      if env.waitRqDone signal = .NO_ERROR then none else some (.waiting signal)
    | p => some p
  | .signal => some p
  | .setRqDone =>
    match p with
    | .filling => some (.armed .request)
    | .reading .request => some (.armed .undo)
    | _ => none
  | .clearRqAvail _ _ =>
    match p with
    | .armed signal => some (.waiting signal)
    | _ => none
  | .waitRqDone =>
    match p with
    | .waiting signal => some (if env.daemonAfterWait signal then .reading signal else .leaving)
    | _ => none
  | .exchange =>
    match p with
    | .filling => some .filling
    | .reading signal => some (.reading signal)
    | _ => none
  | .probe _ _ _ => some p
  | .copyIn _ _ => some p
  | .copyOut _ _ => some p
  | .store _ => some p

/-- The code works on the exchange buffers. -/
def Open : CallPhase → Prop
  | .filling => True
  | .reading _ => True
  | _ => False

/-- The code may release the exchange buffers. -/
def Releasable (env : StubEnv δ) : CallPhase → Prop
  | .outside => False
  | .armed _ => False
  | .waiting signal => env.waitRqDone signal ≠ .NO_ERROR
  | _ => True

theorem Open.releasable {env : StubEnv δ} {p : CallPhase} (h : p.Open) : p.Releasable env := by
  cases p <;> trivial

end CallPhase

/-- The phase that a trace leads to. -/
def callPhase (env : StubEnv δ) : List StubEvent → Option CallPhase
  | [] => some .outside
  | e :: es => (callPhase env es).bind (·.next env e)

/-- What a call takes the buffers and the daemon to be behind an event. -/
def viewAfter (env : StubEnv δ) (v : Shared δ) : StubEvent → Shared δ
  | .clearRqAvail q m => { v with pRequest := q, pFSData := m }
  | .waitRqDone => env.serve v
  | _ => v

/-- What it takes them to be at its last semaphore call, when it has found `v`. -/
def viewAt (env : StubEnv δ) (v : Shared δ) : List StubEvent → Shared δ
  | [] => v
  | e :: es => viewAfter env (viewAt env v es) e

/-- The call is in phase `p`, and the daemon is as its trace says. -/
structure Stands (env : StubEnv δ) (v : Shared δ) (p : CallPhase) (s : StubState δ) : Prop where
  phase : callPhase env s.trace = some p
  daemon : s.daemon = (viewAt env v s.trace).daemon

/-- The call is in one of the phases. -/
def InOrder (env : StubEnv δ) (v : Shared δ) (s : StubState δ) : Prop := ∃ p, Stands env v p s

/-- The event is no call on a semaphore. -/
def IsPlain : StubEvent → Prop
  | .signal => True
  | .exchange => True
  | .probe _ _ _ => True
  | .copyIn _ _ => True
  | .copyOut _ _ => True
  | .store _ => True
  | _ => False

variable {env : StubEnv δ} {v : Shared δ} {p : CallPhase} {s : StubState δ}

theorem Stands.inOrder (h : Stands env v p s) : InOrder env v s := ⟨p, h⟩

/-- An event that leads to the next phase. -/
theorem Stands.step (h : Stands env v p s) {e : StubEvent} {p' : CallPhase} {t : StubState δ}
    (hnext : p.next env e = some p') (htrace : t.trace = e :: s.trace)
    (hdaemon : t.daemon = (viewAfter env (viewAt env v s.trace) e).daemon) :
    Stands env v p' t := by
  constructor
  · rw [htrace, callPhase, h.phase]
    exact hnext
  · rw [htrace]
    exact hdaemon

/-- An event that is not about the daemon. -/
theorem Stands.log (h : Stands env v p s) {e : StubEvent} {p' : CallPhase}
    (hnext : p.next env e = some p')
    (hview : viewAfter env (viewAt env v s.trace) e = viewAt env v s.trace) :
    Stands env v p' { s with trace := e :: s.trace } :=
  h.step hnext rfl (h.daemon.trans (congrArg Shared.daemon hview.symm))

theorem next_of_isPlain {e : StubEvent} (he : IsPlain e) (hp : p.Open) :
    p.next env e = some p := by
  cases e with
  | signal => rfl
  | exchange => cases p <;> first | exact hp.elim | rfl
  | probe => rfl
  | copyIn => rfl
  | copyOut => rfl
  | store => rfl
  | _ => exact he.elim

theorem viewAfter_of_isPlain {e : StubEvent} (he : IsPlain e) : viewAfter env v e = v := by
  cases e <;> first | exact he.elim | rfl

/-- Work on the buffers and the memory of the caller. -/
theorem Stands.plain (h : Stands env v p s) (hp : p.Open) {es : List StubEvent}
    (hes : ∀ e ∈ es, IsPlain e) {t : StubState δ} (htrace : t.trace = es ++ s.trace)
    (hdaemon : t.daemon = s.daemon) : Stands env v p t := by
  have hkeep : callPhase env (es ++ s.trace) = some p ∧
      viewAt env v (es ++ s.trace) = viewAt env v s.trace := by
    clear htrace
    induction es with
    | nil => exact ⟨h.phase, rfl⟩
    | cons e es ih =>
      rw [List.forall_mem_cons] at hes
      obtain ⟨hphase, hview⟩ := ih hes.2
      constructor
      · rw [List.cons_append, callPhase, hphase]
        exact next_of_isPlain hes.1 hp
      · rw [List.cons_append, viewAt, hview, viewAfter_of_isPlain hes.1]
  constructor
  · rw [htrace]
    exact hkeep.1
  · rw [htrace, hkeep.2, hdaemon]
    exact h.daemon

/-! ### Statements -/

/-- A statement that works on the buffers and the memory of the caller, in whatever phase the
buffers are open. -/
def Works (env : StubEnv δ) (m : Stub δ α) : Prop :=
  ∀ (v : Shared δ) (p : CallPhase), p.Open → Preserves (Stands env v p) m

/-- A probe is possible in every phase. -/
theorem stands_mustProbe (site : ProbeSite) (q : Ptr) (len : UInt16) :
    Preserves (Stands env v p) (mustProbe env site q len) :=
  (Preserves.update fun _ h => h.log rfl rfl).bind fun _ => Preserves.onlyIf Preserves.ret

theorem Stands.release (h : Stands env v p s) (hp : p.Releasable env) :
    Stands env v p { s with trace := .clearSerialize :: s.trace } := by
  refine h.log ?_ rfl
  cases p with
  | waiting signal => exact if_neg hp
  | _ => first | exact hp.elim | rfl

/-- `RELEASE_AND_EXIT` returns. -/
theorem stands_releaseAndExit (hp : p.Releasable env) (rc : ApiRet) :
    Triple (Stands env v p) (releaseAndExit env rc : Stub δ α) (fun _ _ => False)
      (fun _ => Stands env v p) :=
  Triple.bind (Triple.update fun _ h => h.release hp) fun _ => Triple.ret fun _ h => h

namespace Works

theorem of_emits {m : Stub δ α} (hm : Emits IsPlain m) (hdaemon : ∀ s, (m s).2.daemon = s.daemon) :
    Works env m := by
  intro v p hp s hs
  obtain ⟨es, htrace, hes⟩ := hm s
  have h := hs.plain hp hes htrace (hdaemon s)
  rw [Ends]
  split <;> next heq => rw [heq] at h; exact h

theorem pure (a : α) : Works env (Pure.pure a : Stub δ α) := fun _ _ _ => Preserves.pure

theorem ret (rc : ApiRet) : Works env (Proc.ret rc : Stub δ α) := fun _ _ _ => Preserves.ret

theorem read (f : StubState δ → α) : Works env (Proc.read f : Stub δ α) :=
  fun _ _ _ => Preserves.read

theorem bind {m : Stub δ α} {f : α → Stub δ β} (hm : Works env m) (hf : ∀ a, Works env (f a)) :
    Works env (m >>= f) :=
  fun v p hp => (hm v p hp).bind fun a => hf a v p hp

theorem ite {c : Prop} [Decidable c] {m m' : Stub δ α} (hm : Works env m) (hm' : Works env m') :
    Works env (if c then m else m') :=
  fun v p hp => (hm v p hp).ite (hm' v p hp)

theorem onlyIf {c : Prop} [Decidable c] {m : Stub δ Unit} (hm : Works env m) :
    Works env (Proc.onlyIf c m) :=
  ite hm (pure ())

theorem call {m : Stub δ Empty} (hm : Works env m) : Works env (Proc.call m : Stub δ ApiRet) :=
  fun v p hp => (hm v p hp).call

theorem setRequest (f : Request → Request) : Works env (setRequest f) :=
  of_emits (Emits.setRequest trivial f) fun _ => rfl

theorem getRequest (f : Request → α) : Works env (getRequest f) :=
  of_emits (Emits.getRequest trivial f) fun _ => rfl

theorem copyIn (q : Ptr) (len : UInt16) : Works env (copyIn q len) :=
  of_emits (Emits.copyIn trivial q len trivial) fun _ => rfl

theorem copyOut (q : Ptr) (len : UInt16) : Works env (copyOut q len) :=
  of_emits (Emits.copyOut trivial q len trivial) fun _ => rfl

theorem store (output : Output) : Works env (store output) :=
  of_emits (Emits.log trivial) fun _ => rfl

theorem probe (site : ProbeSite) (q : Ptr) (len : UInt16) : Works env (probe env site q len) :=
  of_emits (Emits.probe trivial) fun _ => rfl

theorem mustProbe (site : ProbeSite) (q : Ptr) (len : UInt16) :
    Works env (mustProbe env site q len) :=
  (probe site q len).bind fun _ => onlyIf (ret _)

theorem returnOnError (rc : ApiRet) : Works env (returnOnError rc) := onlyIf (ret rc)

theorem releaseAndExit (rc : ApiRet) : Works env (releaseAndExit env rc : Stub δ α) :=
  fun _ _ hp => (stands_releaseAndExit hp.releasable rc).consequence (fun _ h => h)
    (fun _ _ h => h.elim) fun _ _ h => h

theorem releaseOnError (rc code : ApiRet) : Works env (releaseOnError env rc code) :=
  onlyIf (releaseAndExit code)

theorem checkString (psz : List UInt8) (max : ℕ) : Works env (checkString env psz max) :=
  onlyIf (releaseAndExit _)

theorem probeOrRelease (site : ProbeSite) (q : Ptr) (len : UInt16) :
    Works env (probeOrRelease env site q len) :=
  (probe site q len).bind fun _ => releaseOnError _ _

theorem listToBuf (turn : Turn) (site : EaopProbe) (q : Ptr) :
    Works env (listToBuf env turn site q) :=
  (read _).bind fun _ => bind ((onlyIf (ret _)).bind fun _ => onlyIf (ret _)) fun _ =>
    (mustProbe _ _ _).bind fun _ => copyIn _ _

theorem bufToFeas (turn : Turn) (pfeas : Ptr) : Works env (bufToFeas env turn pfeas) :=
  (of_emits (Emits.exchangeListLength trivial) fun _ => rfl).bind fun _ => (read _).bind fun _ =>
    (mustProbe _ _ _).bind fun _ => copyOut _ _

theorem copyEAOP (turn : Turn) (q : Ptr) (usWhat oError : UInt16) :
    Works env (copyEAOP env turn q usWhat oError) := by
  refine (mustProbe _ _ _).bind fun _ => (read _).bind fun pgeas => (read _).bind fun pfeas =>
    bind (onlyIf ?_) fun _ => bind (onlyIf ?_) fun _ => bind (onlyIf ?_) fun _ => ret _
  · exact (mustProbe _ _ _).bind fun _ => of_emits (Emits.setOError _ _ trivial) fun _ => rfl
  · exact (mustProbe _ _ _).bind fun _ => (onlyIf (listToBuf _ _ _)).bind fun _ =>
      onlyIf (bufToFeas _ _)
  · exact (mustProbe _ _ _).bind fun _ => listToBuf _ _ _

/-- A call of `copyEAOP` whose code is passed on. -/
theorem passEAOP (turn : Turn) (q : Ptr) (usWhat oError : UInt16) : Works env (do
    let rc ← Proc.call (Stub.copyEAOP env turn q usWhat oError)
    Stub.returnOnError rc
    Proc.ret .NO_ERROR : Stub δ Empty) :=
  (call (copyEAOP _ _ _ _)).bind fun _ => (returnOnError _).bind fun _ => ret _

theorem copyFileInfoBufPre (fsFlag usLevel cbData : UInt16) (pData : Ptr) :
    Works env (copyFileInfoBufPre env fsFlag usLevel cbData pData) := by
  refine ite (ite (passEAOP _ _ _ _) ?_) (ite (passEAOP _ _ _ _) (ret _))
  exact (probe _ _ _).bind fun _ => (releaseOnError _ _).bind fun _ => (copyIn _ _).bind fun _ =>
    ret _

theorem copyFileInfoBufPost (fsFlag usLevel cbData : UInt16) (pData : Ptr) (oError : UInt16) :
    Works env (copyFileInfoBufPost env fsFlag usLevel cbData pData oError) := by
  refine ite (ite (passEAOP _ _ _ _) (ret _)) (ite (passEAOP _ _ _ _)
    (ite (passEAOP _ _ _ _) ?_))
  exact (probe _ _ _).bind fun _ => (releaseOnError _ _).bind fun _ => (copyOut _ _).bind fun _ =>
    ret _

theorem requestRc : Works env requestRc := getRequest _

theorem returnSffsi : Works env returnSffsi := (getRequest _).bind fun _ => store _

theorem pathRequest (rq : RequestCode) (cdfsi : Cdfsi) (cdfsd : Cdfsd) (pszName : List UInt8)
    (iCurDirEnd : UInt16) : Works env (pathRequest env rq cdfsi cdfsd pszName iCurDirEnd) :=
  (setRequest _).bind fun _ => (checkString _ _).bind fun _ => setRequest _

theorem finishControl (pcbData pData : Ptr) (cbMaxData : UInt16) :
    Works env (finishControl env pcbData pData cbMaxData) := by
  refine (getRequest _).bind fun _ => bind (onlyIf ?_) fun _ => requestRc
  refine (probeOrRelease _ _ _).bind fun _ => (store _).bind fun _ => requestRc.bind fun _ =>
    onlyIf ?_
  exact (onlyIf (releaseAndExit _)).bind fun _ => (probeOrRelease _ _ _).bind fun _ => copyOut _ _

/-- The FEA list of a new file or directory. -/
theorem feasPre (pEABuf : Option Ptr) : Works env (match pEABuf with
    | some pEABuf => do
      let rc ← Proc.call (Stub.copyEAOP env .pre pEABuf CEA_FEAS_TO_BUF 0)
      Stub.releaseOnError env rc rc
      Stub.setRequest fun r => { r with fHasEAs := true }
    | none => Stub.setRequest fun r => { r with fHasEAs := false }) := by
  cases pEABuf with
  | none => exact setRequest _
  | some pEABuf =>
    exact (call (copyEAOP _ _ _ _)).bind fun _ => (releaseOnError _ _).bind fun _ => setRequest _

/-- The error offset of a new file or directory. -/
theorem feasPost (pEABuf : Option Ptr) : Works env (match pEABuf with
    | some pEABuf => do
      let oError ← Stub.getRequest (·.oError)
      let rc ← Proc.call (Stub.copyEAOP env .post pEABuf CEA_SET_OERROR oError)
      Stub.releaseOnError env rc rc
      Stub.requestRc
    | none => Stub.requestRc) := by
  cases pEABuf with
  | none => exact requestRc
  | some pEABuf =>
    exact (getRequest _).bind fun _ => (call (copyEAOP _ _ _ _)).bind fun _ =>
      (releaseOnError _ _).bind fun _ => requestRc

theorem infoPre (fsFlag usLevel cbData : UInt16) (pData : Ptr) : Works env (do
    let _ ← Proc.call (Stub.copyFileInfoBufPre env fsFlag usLevel cbData pData) : Stub δ Unit) :=
  (call (copyFileInfoBufPre _ _ _ _)).bind fun _ => pure ()

theorem infoPost (fsFlag usLevel cbData : UInt16) (pData : Ptr) :
    Works env (infoPost env fsFlag usLevel cbData pData) :=
  (getRequest _).bind fun _ => (call (copyFileInfoBufPost _ _ _ _ _)).bind fun _ =>
    requestRc.bind fun _ => pure _

theorem findEAsPre (usLevel : UInt16) (pData : Ptr) : Works env (findEAsPre env usLevel pData) :=
  onlyIf ((call (copyEAOP _ _ _ _)).bind fun _ => (returnOnError _).bind fun _ => setRequest _)

theorem finishFind : Works env finishFind :=
  (getRequest _).bind fun _ => (store _).bind fun _ => requestRc

/-- The result data of a search that was open before. -/
theorem copyFindData (usLevel : UInt16) (pData : Ptr) (cbData : UInt16) :
    Works env (copyFindData env (Stub.releaseAndExit env) usLevel pData cbData) := by
  refine requestRc.bind fun _ => onlyIf ((probe _ _ _).bind fun _ =>
    (onlyIf (releaseAndExit _)).bind fun _ => ite ?_ (copyOut _ _))
  exact (getRequest _).bind fun _ => (call (copyEAOP _ _ _ _)).bind fun _ =>
    (onlyIf (releaseAndExit _)).bind fun _ => copyOut _ _

end Works

/-! ### The frame -/

/-- The signals that a phase is followed by. -/
def CallPhase.Signals : CallPhase → Signal → Prop
  | .filling, .request => True
  | .reading .request, .undo => True
  | _, _ => False

theorem CallPhase.Signals.next_setRqDone {signal : Signal} (h : p.Signals signal) :
    p.next env .setRqDone = some (.armed signal) := by
  cases p with
  | filling => cases signal <;> first | exact h.elim | rfl
  | reading s => cases s <;> cases signal <;> first | exact h.elim | rfl
  | _ => exact h.elim

theorem CallPhase.Signals.releasable {signal : Signal} (h : p.Signals signal) :
    p.Releasable env := by
  cases p <;> first | exact h.elim | trivial

theorem requestExchangeXS_stands :
    Triple (Stands env v .outside) (requestExchangeXS env) (fun _ _ => False)
      (fun rc s => if rc = .NO_ERROR then Stands env v .filling s else InOrder env v s) := by
  intro s hs
  refine Ends.bind (Ends.onlyIf (fun _ => Ends.ret hs.inOrder) fun _ => ?_)
  refine Ends.bind (Ends.onlyIf (fun _ => Ends.ret hs.inOrder) fun _ => ?_)
  refine Ends.bind (Ends.onlyIf (fun hrc => Ends.ret ?_) fun _ => Ends.bind (Ends.update ?_))
  · rw [if_neg hrc]
    exact hs.inOrder
  have hnext : Stands env v (if env.daemonAfterRequest then .filling else .leaving)
      { s with trace := .requestSerialize :: s.trace } := hs.log rfl rfl
  refine Ends.bind (Ends.onlyIf (fun hdead => ?_) fun halive => Ends.ret ?_)
  · rw [hdead] at hnext
    exact Ends.bind (Ends.update (Ends.ret (hnext.release trivial).inOrder))
  · rw [Bool.not_eq_false] at halive
    rw [halive] at hnext
    exact hnext

/-- Behind a signal the answer is read, or the buffers are released. -/
theorem signal_stands {signal : Signal} (hclear : env.clearRqAvail signal = .NO_ERROR)
    (hp : p.Signals signal) :
    Triple (Stands env v p) (signalDaemonAndWait env signal) (fun _ _ => False)
      (fun rc s => if rc = .NO_ERROR then Stands env v (.reading signal) s
        else ∃ p', p'.Releasable env ∧ Stands env v p' s) := by
  refine Triple.bind (Q := fun _ => Stands env v p) (fun s hs => hs.log rfl rfl) fun _ s hs => ?_
  refine Ends.bind (Ends.onlyIf (fun hrc => Ends.ret ?_) fun _ => Ends.bind (Ends.update ?_))
  · rw [if_neg hrc]
    exact ⟨p, hp.releasable, hs⟩
  have harmed : Stands env v (.armed signal) { s with trace := .setRqDone :: s.trace } :=
    hs.log hp.next_setRqDone rfl
  refine Ends.bind (Ends.onlyIf (fun hrc => absurd hclear hrc) fun _ => Ends.bind (Ends.update ?_))
  have hwaiting := harmed.step (e := .clearRqAvail s.pRequest s.pFSData)
    (t := { s with trace := .clearRqAvail s.pRequest s.pFSData :: .setRqDone :: s.trace })
    rfl rfl harmed.daemon
  refine Ends.bind (Ends.onlyIf (fun hrc => Ends.ret ?_) fun _ => ?_)
  · rw [if_neg hrc]
    exact ⟨.waiting signal, hrc, hwaiting⟩
  refine Ends.bind (Ends.update (Ends.bind (Ends.update ?_)))
  have hserved := hwaiting.step (e := .waitRqDone) (t :=
    { s with
      daemon := (env.daemon s.daemon s.pRequest s.pFSData).1
      pRequest := (env.daemon s.daemon s.pRequest s.pFSData).2.1
      pFSData := (env.daemon s.daemon s.pRequest s.pFSData).2.2
      trace := .waitRqDone :: .clearRqAvail s.pRequest s.pFSData :: .setRqDone :: s.trace })
    rfl rfl (congrArg (fun d => (env.daemon d s.pRequest s.pFSData).1) harmed.daemon)
  refine Ends.bind (Ends.onlyIf (fun hdead => Ends.ret ?_) fun halive => Ends.ret ?_)
  · rw [hdead] at hserved
    exact ⟨.leaving, trivial, hserved⟩
  · rw [Bool.not_eq_false] at halive
    rw [halive] at hserved
    exact hserved

/-- An entry point goes through the phases, if its two parts do. -/
theorem exchange_inOrder (hclear : env.clearRqAvail .request = .NO_ERROR) {fill : Stub δ Unit}
    {finish : Stub δ ApiRet} (hfill : Works env fill)
    (hfinish : Triple (Stands env v (.reading .request)) finish
      (fun _ => Stands env v (.reading .request)) (fun _ => InOrder env v)) :
    Triple (Stands env v .outside) (exchange env fill finish) (fun _ _ => False)
      (fun _ => InOrder env v) := by
  refine (Triple.call requestExchangeXS_stands).bind fun rc => ?_
  refine Triple.bind (Q := fun _ => Stands env v .filling) ?_ fun _ => ?_
  · refine Triple.onlyIf (fun hrc => Triple.ret fun s hs => ?_) fun hrc s hs => ?_
    · rwa [if_neg hrc] at hs
    · rwa [if_pos (not_not.mp hrc)] at hs
  refine Triple.bind ((hfill v .filling trivial).consequence (fun _ h => h) (fun _ _ h => h)
    fun _ _ h => h.inOrder) fun _ => ?_
  refine Triple.bind (Triple.call (signal_stands hclear trivial)) fun rc => ?_
  refine Triple.bind (Q := fun _ => Stands env v (.reading .request)) ?_ fun _ => ?_
  · refine Triple.onlyIf (fun hrc s hs => ?_) fun hrc s hs => ?_
    · rw [if_neg hrc] at hs
      obtain ⟨p', hp', hs'⟩ := hs
      exact (stands_releaseAndExit hp' rc s hs').mono (fun _ _ h => h.elim)
        fun _ _ h => h.inOrder
    · rwa [if_pos (not_not.mp hrc)] at hs
  refine hfinish.bind fun rc => ?_
  exact (stands_releaseAndExit (p := .reading .request) trivial rc).consequence (fun _ h => h)
    (fun _ _ h => h) fun _ _ h => h.inOrder

/-- An entry point whose two parts only work on the buffers and the memory of the caller. -/
theorem Works.exchange (hclear : env.clearRqAvail .request = .NO_ERROR) {fill : Stub δ Unit}
    {finish : Stub δ ApiRet} (hfill : Works env fill) (hfinish : Works env finish) :
    Triple (Stands env v .outside) (exchange env fill finish) (fun _ _ => False)
      (fun _ => InOrder env v) :=
  exchange_inOrder hclear hfill ((hfinish v (.reading .request) trivial).consequence
    (fun _ h => h) (fun _ _ h => h) fun _ _ h => h.inOrder)

/-! ### The entry points -/

/-- Giving up a search that the daemon has opened signals once more. -/
theorem undoAndRelease_stands (hclear : env.clearRqAvail .undo = .NO_ERROR) (cdfsi : Cdfsi)
    (rc : ApiRet) : Triple (Stands env v (.reading .request)) (undoAndRelease env cdfsi rc)
      (fun _ => Stands env v (.reading .request)) (fun _ => InOrder env v) := by
  have hset (f : Request → Request) {R : ApiRet → StubState δ → Prop} :
      Triple (Stands env v (.reading .request)) (setRequest f)
        (fun _ => Stands env v (.reading .request)) R :=
    Triple.update fun _ h => h.step (e := .exchange) rfl rfl h.daemon
  refine Triple.bind (Triple.call ((hset _).bind fun _ => signal_stands hclear trivial))
    fun rc2 => ?_
  refine Triple.bind (Q := fun _ => Stands env v (.reading .undo)) ?_ fun _ => ?_
  · refine Triple.onlyIf (fun hrc s hs => ?_) fun hrc s hs => ?_
    · rw [if_neg hrc] at hs
      obtain ⟨p', hp', hs'⟩ := hs
      exact (stands_releaseAndExit hp' rc2 s hs').mono (fun _ _ h => h.elim)
        fun _ _ h => h.inOrder
    · rwa [if_pos (not_not.mp hrc)] at hs
  exact (stands_releaseAndExit (p := .reading .undo) trivial rc).consequence (fun _ h => h)
    (fun _ _ h => h.elim) fun _ _ h => h.inOrder

/-- The result data of a search are copied, or the search is given up. -/
theorem copyFindData_stands {giveUp : ApiRet → Stub δ Unit} {Q : ApiRet → StubState δ → Prop}
    (hgiveUp : ∀ rc, Triple (Stands env v (.reading .request)) (giveUp rc)
      (fun _ => Stands env v (.reading .request)) Q)
    (hreturn : ∀ rc s, Stands env v (.reading .request) s → Q rc s)
    (usLevel : UInt16) (pData : Ptr) (cbData : UInt16) :
    Triple (Stands env v (.reading .request)) (copyFindData env giveUp usLevel pData cbData)
      (fun _ => Stands env v (.reading .request)) Q := by
  have hwork {α : Type} {m : Stub δ α} (hm : Works env m) :
      Triple (Stands env v (.reading .request)) m (fun _ => Stands env v (.reading .request)) Q :=
    (hm v (.reading .request) trivial).consequence (fun _ h => h) (fun _ _ h => h) hreturn
  refine (hwork Works.requestRc).bind fun rc => Triple.onlyIf (fun _ => ?_) fun _ _ h => h
  refine (hwork (Works.probe _ _ _)).bind fun rc => ?_
  refine Triple.bind (Triple.onlyIf (fun _ => hgiveUp _) fun _ _ h => h) fun _ => ?_
  refine Triple.ite (fun _ => ?_) fun _ => hwork (Works.copyOut _ _)
  refine (hwork (Works.getRequest _)).bind fun _ => ?_
  refine (hwork (Works.call (Works.copyEAOP _ _ _ _))).bind fun _ => ?_
  exact Triple.bind (Triple.onlyIf (fun _ => hgiveUp _) fun _ _ h => h) fun _ =>
    hwork (Works.copyOut _ _)

namespace Works

/-- The results of an open, with the error offset of its FEA list. -/
theorem finishOpenCreate (pEABuf : Option Ptr) : Works env (do
    let sffsi ← Stub.getRequest (·.sffsi)
    Stub.store (.sffsi sffsi)
    let pOpenFileData ← Stub.getRequest (·.pOpenFileData)
    Proc.onlyIf (sffsi.sfiType = STYPE_FILE) (Stub.store (.sffsd pOpenFileData))
    let usAction ← Stub.getRequest (·.usAction)
    Stub.store (.usAction usAction)
    let fsGenFlag ← Stub.getRequest (·.fsGenFlag)
    Stub.store (.fsGenFlag fsGenFlag)
    match pEABuf with
    | some pEABuf => do
      let oError ← Stub.getRequest (·.oError)
      let rc ← Proc.call (Stub.copyEAOP env .post pEABuf CEA_SET_OERROR oError)
      Stub.releaseOnError env rc rc
      Stub.requestRc
    | none => Stub.requestRc) :=
  (getRequest _).bind fun _ => (store _).bind fun _ => (getRequest _).bind fun _ =>
    (onlyIf (store _)).bind fun _ => (getRequest _).bind fun _ => (store _).bind fun _ =>
      (getRequest _).bind fun _ => (store _).bind fun _ => feasPost pEABuf

end Works

/-- The checks of a parameter buffer are possible in every phase. -/
theorem checkParms_stands (cbMaxParm : UInt16) (ppcbParm : Ptr) (pcbParm : UInt16) (pParm : Ptr) :
    Preserves (Stands env v p) (checkParms env cbMaxParm ppcbParm pcbParm pParm) :=
  (stands_mustProbe _ _ _).bind fun _ => (Preserves.onlyIf Preserves.ret).bind fun _ =>
    Preserves.onlyIf (stands_mustProbe _ _ _)

/-- Every call goes through the phases in their order. -/
theorem StubCall.inOrder (hclear : ∀ signal, env.clearRqAvail signal = .NO_ERROR)
    (call : StubCall) :
    Triple (Stands env v .outside) (call.body env) (fun _ _ => False) (fun _ => InOrder env v) := by
  have hkeep {m : Stub δ Unit} (hm : Preserves (Stands env v .outside) m) :
      Triple (Stands env v .outside) m (fun _ => Stands env v .outside) (fun _ => InOrder env v) :=
    hm.consequence (fun _ h => h) (fun _ _ h => h) fun _ _ h => h.inOrder
  have hfile (f : Request → Request) : Triple (Stands env v .outside) (fileExchange env f)
      (fun _ _ => False) (fun _ => InOrder env v) :=
    Works.exchange (hclear _) (Works.setRequest _) (Works.returnSffsi.bind fun _ => Works.requestRc)
  have hplain (f : Request → Request) : Triple (Stands env v .outside)
      (exchange env (setRequest f) requestRc) (fun _ _ => False) (fun _ => InOrder env v) :=
    Works.exchange (hclear _) (Works.setRequest _) Works.requestRc
  cases call with
  | fsFsCtl =>
    refine (hkeep (Preserves.onlyIf Preserves.ret)).bind fun _ =>
      (hkeep (Preserves.onlyIf (checkParms_stands _ _ _ _))).bind fun _ =>
        Works.exchange (hclear _) ?_ (Works.finishControl _ _ _)
    exact (Works.setRequest _).bind fun _ => Works.onlyIf (Works.copyIn _ _)
  | fsAttach =>
    refine (hkeep (Preserves.onlyIf Preserves.ret)).bind fun _ =>
      Works.exchange (hclear _) ?_ ?_
    · exact (Works.setRequest _).bind fun _ => (Works.checkString _ _).bind fun _ =>
        (Works.setRequest _).bind fun _ => Works.onlyIf
          ((Works.probeOrRelease _ _ _).bind fun _ => Works.copyIn _ _)
    · refine Works.bind (Works.onlyIf ?_) fun _ => (Works.getRequest _).bind fun _ =>
        (Works.onlyIf (Works.store _)).bind fun _ => (Works.getRequest _).bind fun _ =>
          (Works.onlyIf (Works.store _)).bind fun _ => Works.requestRc
      exact (Works.getRequest _).bind fun _ => (Works.store _).bind fun _ =>
        Works.requestRc.bind fun _ => Works.onlyIf
          ((Works.probeOrRelease _ _ _).bind fun _ => Works.copyOut _ _)
  | fsIoctl =>
    refine Works.exchange (hclear _) ?_ (Works.finishControl _ _ _)
    refine (Works.setRequest _).bind fun _ => Works.onlyIf ?_
    exact Works.bind (fun _ _ _ => checkParms_stands _ _ _ _) fun _ => Works.copyIn _ _
  | fsFsInfo =>
    refine Works.exchange (hclear _) ?_ ?_
    · exact (Works.setRequest _).bind fun _ => (Works.onlyIf ((Works.probeOrRelease _ _ _).bind
        fun _ => Works.copyIn _ _)).bind fun _ => Works.setRequest _
    · exact Works.requestRc.bind fun _ => (Works.onlyIf ((Works.getRequest _).bind fun _ =>
        Works.onlyIf ((Works.probeOrRelease _ _ _).bind fun _ => Works.copyOut _ _))).bind
          fun _ => Works.requestRc
  | fsFlushBuf => exact hplain _
  | fsOpenCreate =>
    refine Works.exchange (hclear _) ?_ (Works.finishOpenCreate _)
    exact (Works.setRequest _).bind fun _ => (Works.checkString _ _).bind fun _ =>
      (Works.setRequest _).bind fun _ => Works.feasPre _
  | fsClose => exact hfile _
  | fsRead =>
    refine Works.exchange (hclear _) (Works.setRequest _) ?_
    exact Works.returnSffsi.bind fun _ => (Works.getRequest _).bind fun _ =>
      (Works.store _).bind fun _ => (Works.onlyIf ((Works.probeOrRelease _ _ _).bind fun _ =>
        Works.copyOut _ _)).bind fun _ => Works.requestRc
  | fsWrite =>
    refine Works.exchange (hclear _) ?_ ?_
    · exact (Works.setRequest _).bind fun _ => Works.onlyIf ((Works.probeOrRelease _ _ _).bind
        fun _ => Works.copyIn _ _)
    · exact Works.returnSffsi.bind fun _ => (Works.getRequest _).bind fun _ =>
        (Works.store _).bind fun _ => Works.requestRc
  | fsChgFilePtr => exact hfile _
  | fsNewSize => exact hfile _
  | fsFileAttribute =>
    refine Works.exchange (hclear _) ?_ ?_
    · exact (Works.pathRequest _ _ _ _ _).bind fun _ => Works.setRequest _
    · exact Works.requestRc.bind fun _ => (Works.getRequest _).bind fun _ =>
        (Works.onlyIf (Works.store _)).bind fun _ => Works.requestRc
  | fsFileInfo =>
    refine Works.exchange (hclear _) ?_ (Works.returnSffsi.bind fun _ => Works.infoPost _ _ _ _)
    exact (Works.setRequest _).bind fun _ => Works.infoPre _ _ _ _
  | fsCommit => exact hfile _
  | fsPathInfo =>
    refine Works.exchange (hclear _) ?_ (Works.infoPost _ _ _ _)
    exact (Works.pathRequest _ _ _ _ _).bind fun _ => (Works.setRequest _).bind fun _ =>
      Works.infoPre _ _ _ _
  | fsDelete => exact Works.exchange (hclear _) (Works.pathRequest _ _ _ _ _) Works.requestRc
  | fsCopy => exact hplain _
  | fsMove =>
    refine Works.exchange (hclear _) ?_ Works.requestRc
    exact (Works.pathRequest _ _ _ _ _).bind fun _ => (Works.checkString _ _).bind fun _ =>
      Works.setRequest _
  | fsChDir =>
    refine Works.exchange (hclear _) ?_ ?_
    · refine (Works.setRequest _).bind fun _ => Works.bind (Works.onlyIf ?_) fun _ =>
        Works.setRequest _
      exact (Works.setRequest _).bind fun _ => Works.onlyIf ((Works.checkString _ _).bind fun _ =>
        Works.setRequest _)
    · exact (Works.getRequest _).bind fun _ => (Works.onlyIf (Works.store _)).bind fun _ =>
        Works.requestRc
  | fsMkDir =>
    refine Works.exchange (hclear _) ?_ (Works.feasPost _)
    exact (Works.pathRequest _ _ _ _ _).bind fun _ => Works.feasPre _
  | fsRmDir => exact Works.exchange (hclear _) (Works.pathRequest _ _ _ _ _) Works.requestRc
  | fsFindFirst =>
    refine exchange_inOrder (hclear _) ?_ ?_
    · exact (Works.pathRequest _ _ _ _ _).bind fun _ => (Works.setRequest _).bind fun _ =>
        Works.findEAsPre _ _
    · refine Triple.bind (copyFindData_stands (fun rc => undoAndRelease_stands (hclear _) _ rc)
        (fun _ _ h => h.inOrder) _ _ _) fun _ => ?_
      exact (((Works.getRequest _).bind fun _ => (Works.store _).bind fun _ => Works.finishFind)
        v (.reading .request) trivial).consequence (fun _ h => h) (fun _ _ h => h)
          fun _ _ h => h.inOrder
  | fsFindNext =>
    refine Works.exchange (hclear _) ?_ ?_
    · exact (Works.setRequest _).bind fun _ => Works.findEAsPre _ _
    · exact (Works.copyFindData _ _ _).bind fun _ => Works.finishFind
  | fsFindFromName =>
    refine Works.exchange (hclear _) ?_ ?_
    · exact (Works.setRequest _).bind fun _ => (Works.checkString _ _).bind fun _ =>
        (Works.setRequest _).bind fun _ => Works.findEAsPre _ _
    · exact (Works.copyFindData _ _ _).bind fun _ => Works.finishFind
  | fsFindClose => exact hplain _
  | fsFindNotifyFirst => exact hplain _
  | fsFindNotifyNext => exact hplain _
  | fsFindNotifyClose => exact hplain _
  | fsProcessName =>
    refine Works.exchange (hclear _) ?_ ?_
    · exact (Works.setRequest _).bind fun _ => (Works.checkString _ _).bind fun _ =>
        Works.setRequest _
    · exact (Works.getRequest _).bind fun _ => (Works.store _).bind fun _ => Works.requestRc

end Stub

end Isofs
