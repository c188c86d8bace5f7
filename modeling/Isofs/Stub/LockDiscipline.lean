import Isofs.Stub.LockRules
import Isofs.Stub.Prepared

/-!
# The exchange lock discipline

Which calls of the entry points acquire and release `semSerialize` in a disciplined way,
and that threads making such calls exclude each other.
-/

namespace Isofs

namespace Stub

open Proc LockTrace

variable {δ : Type}

/-- `requestExchangeXS` succeeds. -/
def Acquires (env : StubEnv δ) : Prop :=
  env.daemonAtEntry = true ∧ env.callerIsDaemon = false ∧ env.requestSem = .NO_ERROR ∧
    env.daemonAfterRequest = true

/-- `signalDaemonAndWait` succeeds for the request. -/
def Signalled (env : StubEnv δ) : Prop :=
  env.setRqDone .request = .NO_ERROR ∧ env.clearRqAvail .request = .NO_ERROR ∧
    env.waitRqDone .request = .NO_ERROR ∧ env.daemonAfterWait .request = true

variable {env : StubEnv δ}

/-! ### The frame -/

/-- After `requestExchangeXS` the call holds the lock and the caller's memory is untouched,
or the call is to return and does not hold it. -/
theorem requestExchangeXS_triple (c : Memory) :
    Triple (fun s => InPhase (some .free) s ∧ s.caller = c) (requestExchangeXS env)
      (fun _ _ => False)
      (fun rc s => (rc = .NO_ERROR ∧ Acquires env ∧ InPhase (some .held) s ∧ s.caller = c) ∨
        (rc ≠ .NO_ERROR ∧ ¬ Acquires env ∧ (InPhase (some .free) s ∨ InPhase (some .done) s))) := by
  rintro s ⟨hfree, hc⟩
  have hheld : phase (.acquire :: s.trace.map lockEvent) = some .held := by
    rw [phase_cons, hfree]
    rfl
  have hdone : phase (.release :: .acquire :: s.trace.map lockEvent) = some .done := by
    rw [phase_cons, hheld]
    rfl
  rw [Ends, requestExchangeXS, returnOnError, Acquires]
  by_cases h1 : env.daemonAtEntry = false
  · simp [Proc.onlyIf, bind_apply, h1, hfree]
  by_cases h2 : env.callerIsDaemon = true
  · simp [Proc.onlyIf, bind_apply, h1, h2, hfree]
  by_cases h3 : env.requestSem = .NO_ERROR
  · by_cases h4 : env.daemonAfterRequest = false
    · simp [Proc.onlyIf, bind_apply, h1, h2, h3, h4, log, InPhase, lockEvent, hdone]
    · simp [Proc.onlyIf, bind_apply, h1, h2, h3, h4, log, InPhase, lockEvent, hheld, hc]
  · simp [Proc.onlyIf, bind_apply, h1, h2, h3, hfree]

/-- The frame behind `requestExchangeXS`. -/
def exchangeBody (env : StubEnv δ) (fill : Stub δ Unit) (finish : Stub δ ApiRet) :
    Stub δ Empty := do
  fill
  let rc ← call (signalDaemonAndWait env .request)
  releaseOnError env rc rc
  let rc ← finish
  releaseAndExit env rc

/-- A call is what it does once it holds the lock, or it never gets it. -/
theorem exchange_triple {c : Memory} {fill : Stub δ Unit} {finish : Stub δ ApiRet}
    {R : ApiRet → StubState δ → Prop}
    (hbody : Acquires env → Triple (fun s => InPhase (some .held) s ∧ s.caller = c)
      (exchangeBody env fill finish) (fun _ _ => False) R)
    (hR : ¬ Acquires env → ∀ rc s, InPhase (some .free) s ∨ InPhase (some .done) s → R rc s) :
    Triple (fun s => InPhase (some .free) s ∧ s.caller = c) (exchange env fill finish)
      (fun _ _ => False) R := by
  refine Triple.bind (Triple.call (requestExchangeXS_triple c)) fun rc => ?_
  refine Triple.bind (Q := fun _ s => Acquires env ∧ InPhase (some .held) s ∧ s.caller = c) ?_ ?_
  · refine Triple.onlyIf (fun hrc => Triple.ret ?_) fun hrc => ?_
    · rintro s (⟨h, -⟩ | ⟨-, hacq, hphase⟩)
      · exact absurd h hrc
      · exact hR hacq rc s hphase
    · rintro s (⟨-, hacq, h⟩ | ⟨h, -⟩)
      · exact ⟨hacq, h⟩
      · exact absurd h hrc
  · rintro - s ⟨hacq, h⟩
    exact hbody hacq s h

/-- `signalDaemonAndWait` returns `NO_ERROR` exactly when all its helpers succeed. -/
theorem signalDaemonAndWait_returns :
    Triple (fun _ => True) (signalDaemonAndWait env .request) (fun _ _ => False)
      (fun rc _ => rc = .NO_ERROR ↔ Signalled env) := by
  rintro s -
  unfold Ends signalDaemonAndWait returnOnError Signalled
  by_cases h1 : env.setRqDone .request = .NO_ERROR
  · by_cases h2 : env.clearRqAvail .request = .NO_ERROR
    · by_cases h3 : env.waitRqDone .request = .NO_ERROR
      · by_cases h4 : env.daemonAfterWait .request = false
        · simp [Proc.onlyIf, bind_apply, h1, h2, h3, h4, log, clearRqAvail, daemonWorks]
        · simp [Proc.onlyIf, bind_apply, h1, h2, h3, h4, log, clearRqAvail, daemonWorks]
      · simp [Proc.onlyIf, bind_apply, h1, h2, h3, log, clearRqAvail]
    · simp [Proc.onlyIf, bind_apply, h1, h2, log]
  · simp [Proc.onlyIf, bind_apply, h1, log]

theorem signal_triple {p : Option Phase} (hp : p = some .held ∨ p = none) :
    Triple (InPhase p) (call (signalDaemonAndWait env .request) : Stub δ ApiRet)
      (fun rc s => (rc = .NO_ERROR ↔ Signalled env) ∧ InPhase p s) (fun _ _ => False) :=
  Triple.call ((signalDaemonAndWait_returns.and
    ((Quiet.signalDaemonAndWait .request).triple hp)).consequence (fun _ h => ⟨trivial, h⟩)
    (fun _ _ h => h) (fun _ _ h => h))

/-- A signal after the lock is released breaks the discipline, or fails at once. -/
theorem signal_breaks {R : ApiRet → StubState δ → Prop} :
    Triple (InPhase (some .done)) (call (signalDaemonAndWait env .request) : Stub δ ApiRet)
      (fun rc s => InPhase none s ∨ rc ≠ .NO_ERROR ∧ InPhase (some .done) s) R := by
  refine Triple.call (S := fun _ _ => False) fun s hs => ?_
  have hphase : phase (s.trace.map lockEvent) = some .done := hs
  unfold Ends signalDaemonAndWait returnOnError
  by_cases h1 : env.setRqDone .request = .NO_ERROR
  · by_cases h2 : env.clearRqAvail .request = .NO_ERROR
    · by_cases h3 : env.waitRqDone .request = .NO_ERROR
      · by_cases h4 : env.daemonAfterWait .request = false
        · simp [Proc.onlyIf, bind_apply, h1, h2, h3, h4, log, clearRqAvail, daemonWorks, InPhase,
            lockEvent, phase_cons, hphase, next]
        · simp [Proc.onlyIf, bind_apply, h1, h2, h3, h4, log, clearRqAvail, daemonWorks, InPhase,
            lockEvent, phase_cons, hphase, next]
      · simp [Proc.onlyIf, bind_apply, h1, h2, h3, log, clearRqAvail, InPhase, lockEvent,
          phase_cons, hphase, next]
    · simp [Proc.onlyIf, bind_apply, h1, h2, log, InPhase, lockEvent, phase_cons, hphase, next]
  · simp [Proc.onlyIf, bind_apply, h1, log, InPhase, lockEvent, phase_cons, hphase, next]

section Frame

variable {c : Memory} {fill : Stub δ Unit} {finish : Stub δ ApiRet}

/-- The call holds the lock, and its caller's memory is still `c`. -/
def HoldsWith (c : Memory) (s : StubState δ) : Prop := InPhase (some .held) s ∧ s.caller = c

/-- Behind `signalDaemonAndWait` the call goes on only when the request was signalled. -/
theorem afterSignal_triple {p : Option Phase} (hp : p = some .held ∨ p = none)
    {rest : Stub δ Empty} {R : ApiRet → StubState δ → Prop}
    (hexit : ¬ Signalled env → ∀ rc, Triple (InPhase p) (releaseAndExit env rc : Stub δ Unit)
      (fun _ _ => False) R)
    (hrest : Signalled env → Triple (InPhase p) rest (fun _ _ => False) R) :
    Triple (InPhase p)
      (call (signalDaemonAndWait env .request) >>= fun rc => releaseOnError env rc rc >>=
        fun _ => rest)
      (fun _ _ => False) R := by
  refine Triple.bind ((signal_triple hp).consequence (fun _ h => h) (fun _ _ h => h)
    (fun _ _ h => h.elim)) fun rc => ?_
  by_cases hsig : Signalled env
  · refine Triple.bind (Q := fun _ => InPhase p) (Triple.onlyIf (fun hrc s hs => ?_)
      fun _ s hs => hs.2) fun _ => hrest hsig
    exact absurd (hs.1.mpr hsig) hrc
  · refine Triple.bind (Q := fun _ _ => False) (Triple.onlyIf (fun _ s hs => ?_)
      fun hrc s hs => ?_) fun _ _ h => h.elim
    · exact hexit hsig rc s hs.2
    · exact hsig (hs.1.mp (not_not.mp hrc))

/-- With a disciplined `fill` and `finish` the lock is released once. -/
theorem exchangeBody_keeps
    (hfill : Triple (HoldsWith c) fill (fun _ => InPhase (some .held))
      (fun _ => InPhase (some .done)))
    (hfinish : Signalled env → Keeps finish) :
    Triple (HoldsWith c) (exchangeBody env fill finish) (fun _ _ => False)
      (fun _ => InPhase (some .done)) :=
  hfill.bind fun _ => afterSignal_triple (Or.inl rfl) (fun _ rc => releaseAndExit_triple rc)
    fun hsig => Triple.bind (hfinish hsig) fun rc => releaseAndExit_triple rc

/-- A `fill` that returns without releasing leaves the lock held. -/
theorem exchangeBody_of_fill_returns
    (hfill : Triple (HoldsWith c) fill (fun _ _ => False) (fun _ => InPhase (some .held))) :
    Triple (HoldsWith c) (exchangeBody env fill finish) (fun _ _ => False)
      (fun _ => InPhase (some .held)) :=
  hfill.bind fun _ _ h => h.elim

/-- A `fill` that releases the lock and goes on breaks the discipline. -/
theorem exchangeBody_of_fill_releases
    (hfill : Triple (HoldsWith c) fill (fun _ => InPhase (some .done)) (fun _ _ => False))
    (hfinish : Stuck finish) :
    Triple (HoldsWith c) (exchangeBody env fill finish) (fun _ _ => False)
      (fun _ => InPhase none) := by
  refine Triple.bind (hfill.consequence (fun _ h => h) (fun _ _ h => h) fun _ _ h => h.elim)
    fun _ => signal_breaks.bind fun rc => ?_
  have hbreaks : ∀ p, p = some .done ∨ p = none → Triple (InPhase p)
      (releaseAndExit env rc : Stub δ Unit) (fun _ => InPhase none) (fun _ => InPhase none) :=
    fun p hp => releaseAndExit_breaks rc hp
  refine Triple.bind (Q := fun _ => InPhase none) (Triple.onlyIf (fun _ s hs => ?_)
    fun hrc s hs => ?_) fun _ => hfinish.bind fun rc => releaseAndExit_breaks rc (Or.inr rfl)
  · rcases hs with hs | ⟨-, hs⟩
    · exact hbreaks none (Or.inr rfl) s hs
    · exact hbreaks (some .done) (Or.inl rfl) s hs
  · rcases hs with hs | ⟨h, -⟩
    · exact hs
    · exact absurd h hrc

/-- A `finish` that releases the lock and goes on breaks the discipline. -/
theorem exchangeBody_of_finish_releases (hsig : Signalled env)
    (hfill : Triple (HoldsWith c) fill (fun _ => InPhase (some .held)) (fun _ _ => False))
    (hfinish : Triple (InPhase (some .held)) finish (fun _ => InPhase none)
      (fun _ => InPhase none)) :
    Triple (HoldsWith c) (exchangeBody env fill finish) (fun _ _ => False)
      (fun _ => InPhase none) :=
  (hfill.consequence (fun _ h => h) (fun _ _ h => h) fun _ _ h => h.elim).bind fun _ =>
    afterSignal_triple (Or.inl rfl) (fun h => absurd hsig h)
      fun _ => hfinish.bind fun rc => releaseAndExit_breaks rc (Or.inr rfl)

end Frame

/-! ### The statements that break the discipline -/

theorem copyEAOP_geas (c : Memory) (pEABuf : Ptr) :
    Triple (fun s => s.caller = c) (copyEAOP env .pre pEABuf CEA_GEAS_TO_BUF 0)
      (fun _ _ => False) (fun rc s => rc = geaListError env c pEABuf ∧ s.caller = c) := by
  rintro s rfl
  refine (copyEAOP_geas_prepared pEABuf s (.refl s)).mono (fun _ _ h => h) fun rc t h => ?_
  exact ⟨h.1, h.2.caller⟩

/-- `copyEAOP` leaves a call that holds the lock holding it. -/
theorem callGeas_triple (c : Memory) (pData : Ptr) {R : ApiRet → StubState δ → Prop} :
    Triple (HoldsWith c) (call (copyEAOP env .pre pData CEA_GEAS_TO_BUF 0) : Stub δ ApiRet)
      (fun rc s => rc = geaListError env c pData ∧ HoldsWith c s) R :=
  Triple.call ((((Quiet.copyEAOP .pre pData CEA_GEAS_TO_BUF 0).triple (Or.inl rfl)).and
    (copyEAOP_geas c pData)).consequence (fun _ h => h) (fun _ _ h => h)
    fun _ _ h => ⟨h.2.1, h.1, h.2.2⟩)

/-- With a well-formed GEA list the search request goes on with the lock held. -/
theorem findEAsPre_keeps {c : Memory} {usLevel : UInt16} {pData : Ptr}
    (h : usLevel = FIL_QUERYEASFROMLIST → geaListError env c pData = .NO_ERROR) :
    Triple (HoldsWith c) (findEAsPre env usLevel pData) (fun _ => InPhase (some .held))
      (fun _ => InPhase (some .done)) := by
  refine Triple.onlyIf (fun hlevel => ?_) fun _ s hs => hs.1
  refine Triple.bind (callGeas_triple c pData) fun rc => ?_
  refine Triple.bind (Q := fun _ => InPhase (some .held))
    (Triple.onlyIf (fun hrc s hs => ?_) fun _ s hs => hs.2.1) fun _ => (Silent.setRequest _).keeps
  exact absurd (hs.1.trans (h hlevel)) hrc

/-- With a malformed one it returns with the lock held. -/
theorem findEAsPre_returns {c : Memory} {usLevel : UInt16} {pData : Ptr}
    (hlevel : usLevel = FIL_QUERYEASFROMLIST) (h : geaListError env c pData ≠ .NO_ERROR) :
    Triple (HoldsWith c) (findEAsPre env usLevel pData) (fun _ _ => False)
      (fun _ => InPhase (some .held)) := by
  refine Triple.onlyIf (fun _ => ?_) fun hne => absurd hlevel hne
  refine Triple.bind (callGeas_triple c pData) fun rc => ?_
  refine Triple.bind (Q := fun _ _ => False) (Triple.onlyIf (fun _ s hs => hs.2.1)
    fun hrc s hs => ?_) fun _ _ h => h.elim
  exact h (hs.1.symm.trans (not_not.mp hrc))

/-- `copyFileInfoBufPre` gets to its `RELEASE_AND_EXIT`. -/
def PreReleases (env : StubEnv δ) (fsFlag usLevel : UInt16) : Prop :=
  fsFlag &&& FI_SET ≠ 0 ∧ usLevel ≠ 2 ∧ env.probe .dataRead ≠ .NO_ERROR

/-- `copyFileInfoBufPost` gets to its `RELEASE_AND_EXIT`. -/
def PostReleases (env : StubEnv δ) (fsFlag usLevel : UInt16) : Prop :=
  fsFlag &&& FI_SET = 0 ∧ usLevel ≠ 3 ∧ usLevel ≠ 4 ∧ env.probe .dataWrite ≠ .NO_ERROR

theorem releaseOnError_of_ok {rc : ApiRet} (h : rc = .NO_ERROR) (code : ApiRet) :
    (releaseOnError env rc code : Stub δ Unit) = Pure.pure () :=
  onlyIf_of_false (not_not.mpr h) _

theorem releaseOnError_of_error {rc : ApiRet} (h : rc ≠ .NO_ERROR) (code : ApiRet) :
    (releaseOnError env rc code : Stub δ Unit) = releaseAndExit env code :=
  onlyIf_of_true h _

/-- Passing on what `copyEAOP` returns leaves the lock alone. -/
theorem quiet_returnEAOP (turn : Turn) (pData : Ptr) (usWhat oError : UInt16) : Quiet (do
    let rc ← call (copyEAOP env turn pData usWhat oError)
    returnOnError rc
    ret .NO_ERROR : Stub δ Empty) :=
  (Silent.call (Quiet.copyEAOP _ _ _ _)).1.bind fun _ =>
    (Quiet.returnOnError _).bind fun _ => Quiet.ret _

/-- Unless it gets to its `RELEASE_AND_EXIT`, `copyFileInfoBufPre` leaves the lock alone. -/
theorem copyFileInfoBufPre_quiet {fsFlag usLevel : UInt16} (h : ¬ PreReleases env fsFlag usLevel)
    (cbData : UInt16) (pData : Ptr) :
    Quiet (copyFileInfoBufPre env fsFlag usLevel cbData pData) := by
  rw [copyFileInfoBufPre]
  split
  · next hset =>
    split
    · exact quiet_returnEAOP _ _ _ _
    · next hlevel =>
      have hprobe : env.probe .dataRead = .NO_ERROR := by
        by_contra hne
        exact h ⟨hset, hlevel, hne⟩
      refine Quiet.probe_bind ?_
      rw [releaseOnError_of_ok hprobe]
      exact (Quiet.pure ()).bind fun _ => (Silent.copyIn _ _).1.bind fun _ => Quiet.ret _
  · split
    · exact quiet_returnEAOP _ _ _ _
    · exact Quiet.ret _

theorem copyFileInfoBufPre_releases {fsFlag usLevel : UInt16} (h : PreReleases env fsFlag usLevel)
    (cbData : UInt16) (pData : Ptr) {Q : Empty → StubState δ → Prop} :
    Triple (InPhase (some .held)) (copyFileInfoBufPre env fsFlag usLevel cbData pData) Q
      (fun _ => InPhase (some .done)) := by
  obtain ⟨hset, hlevel, hprobe⟩ := h
  rw [copyFileInfoBufPre]
  rw [if_pos hset, if_neg hlevel]
  refine probe_bind_triple (Or.inl rfl) ?_
  rw [releaseOnError_of_error hprobe]
  exact Triple.bind (Q := fun _ _ => False) (releaseAndExit_triple _) fun _ _ h => h.elim

/-- Unless it gets to its `RELEASE_AND_EXIT`, `copyFileInfoBufPost` leaves the lock alone. -/
theorem copyFileInfoBufPost_quiet {fsFlag usLevel : UInt16} (h : ¬ PostReleases env fsFlag usLevel)
    (cbData : UInt16) (pData : Ptr) (oError : UInt16) :
    Quiet (copyFileInfoBufPost env fsFlag usLevel cbData pData oError) := by
  rw [copyFileInfoBufPost]
  split
  · split
    · exact quiet_returnEAOP _ _ _ _
    · exact Quiet.ret _
  · next hset =>
    split
    · exact quiet_returnEAOP _ _ _ _
    · next hlevel3 =>
      split
      · exact quiet_returnEAOP _ _ _ _
      · next hlevel4 =>
        have hprobe : env.probe .dataWrite = .NO_ERROR := by
          by_contra hne
          exact h ⟨not_not.mp hset, hlevel3, hlevel4, hne⟩
        refine Quiet.probe_bind ?_
        rw [releaseOnError_of_ok hprobe]
        exact (Quiet.pure ()).bind fun _ => (Silent.copyOut _ _).1.bind fun _ => Quiet.ret _

theorem copyFileInfoBufPost_releases {fsFlag usLevel : UInt16} (h : PostReleases env fsFlag usLevel)
    (cbData : UInt16) (pData : Ptr) (oError : UInt16) {Q : Empty → StubState δ → Prop} :
    Triple (InPhase (some .held)) (copyFileInfoBufPost env fsFlag usLevel cbData pData oError) Q
      (fun _ => InPhase (some .done)) := by
  obtain ⟨hset, hlevel3, hlevel4, hprobe⟩ := h
  rw [copyFileInfoBufPost]
  rw [if_neg (not_not.mpr hset), if_neg hlevel3, if_neg hlevel4]
  refine probe_bind_triple (Or.inl rfl) ?_
  rw [releaseOnError_of_error hprobe]
  exact Triple.bind (Q := fun _ _ => False) (releaseAndExit_triple _) fun _ _ h => h.elim

/-- A broken call stays broken in `copyFileInfoBufPost`. -/
theorem copyFileInfoBufPost_stuck (fsFlag usLevel cbData : UInt16) (pData : Ptr)
    (oError : UInt16) : Stuck (copyFileInfoBufPost env fsFlag usLevel cbData pData oError) := by
  by_cases h : PostReleases env fsFlag usLevel
  · obtain ⟨hset, hlevel3, hlevel4, hprobe⟩ := h
    rw [copyFileInfoBufPost]
    rw [if_neg (not_not.mpr hset), if_neg hlevel3, if_neg hlevel4]
    refine probe_bind_triple (Or.inr rfl) ?_
    rw [releaseOnError_of_error hprobe]
    exact Triple.bind (Q := fun _ _ => False) (releaseAndExit_breaks _ (Or.inr rfl))
      fun _ _ h => h.elim
  · exact (copyFileInfoBufPost_quiet h cbData pData oError).stuck

/-- The checks of a parameter buffer succeed. -/
def ParmReadable (env : StubEnv δ) (cbMaxParm pcbParm : UInt16) : Prop :=
  env.probe .pcbParm = .NO_ERROR ∧ pcbParm ≤ cbMaxParm ∧
    (pcbParm = 0 ∨ env.probe .parmRead = .NO_ERROR)

theorem mustProbe_triple (site : ProbeSite) (p : Ptr) (len : UInt16) :
    Triple (InPhase (some .held)) (mustProbe env site p len)
      (fun _ s => env.probe site = .NO_ERROR ∧ InPhase (some .held) s)
      (fun _ s => env.probe site ≠ .NO_ERROR ∧ InPhase (some .held) s) :=
  probe_bind_triple (Or.inl rfl)
    (Triple.onlyIf (fun h => Triple.ret fun _ hs => ⟨h, hs⟩) fun h _ hs => ⟨not_not.mp h, hs⟩)

/-- The checks end, or return with the lock held. -/
theorem checkParms_triple (cbMaxParm : UInt16) (ppcbParm : Ptr) (pcbParm : UInt16) (pParm : Ptr) :
    Triple (InPhase (some .held)) (checkParms env cbMaxParm ppcbParm pcbParm pParm)
      (fun _ s => ParmReadable env cbMaxParm pcbParm ∧ InPhase (some .held) s)
      (fun _ s => ¬ ParmReadable env cbMaxParm pcbParm ∧ InPhase (some .held) s) := by
  refine Triple.bind ((mustProbe_triple _ _ _).consequence (fun _ h => h) (fun _ _ h => h)
    fun _ _ h => ⟨fun hr => h.1 hr.1, h.2⟩) fun _ => Triple.of_forall fun s₀ ⟨hpcb, hs₀⟩ => ?_
  refine Triple.bind (Q := fun _ s => pcbParm ≤ cbMaxParm ∧ InPhase (some .held) s)
    (Triple.onlyIf (fun hlt => Triple.ret fun s hs => ?_) fun hlt s hs => ?_) fun _ =>
      Triple.of_forall fun s₁ ⟨hle, hs₁⟩ => ?_
  · subst hs
    exact ⟨fun hr => absurd hr.2.1 (UInt16.not_le.mpr hlt), hs₀⟩
  · subst hs
    exact ⟨UInt16.not_lt.mp hlt, hs₀⟩
  refine Triple.onlyIf (fun _ => (mustProbe_triple _ _ _).consequence (fun s hs => hs ▸ hs₁)
    (fun _ _ h => ⟨⟨hpcb, hle, Or.inr h.1⟩, h.2⟩) fun _ _ h => ⟨fun hr => ?_, h.2⟩)
      fun h0 s hs => ?_
  · rcases hr.2.2 with h0 | hok
    · contradiction
    · exact h.1 hok
  · subst hs
    exact ⟨⟨hpcb, hle, Or.inl (not_not.mp h0)⟩, hs₁⟩

theorem setRequest_holdsWith {c : Memory} (f : Request → Request)
    {R : ApiRet → StubState δ → Prop} :
    Triple (HoldsWith c) (setRequest f) (fun _ => HoldsWith c) R := by
  rintro s ⟨hphase, hc⟩
  exact ⟨(Silent.setRequest f).triple (R := R) (Or.inl rfl) s hphase, hc⟩

/-- A string that is too long is refused with the lock released. -/
theorem checkString_triple {c : Memory} (psz : List UInt8) (max : ℕ)
    {R : ApiRet → StubState δ → Prop}
    (hR : max ≤ psz.length → ∀ rc s, InPhase (some .done) s → R rc s) :
    Triple (HoldsWith c) (checkString env psz max)
      (fun _ s => psz.length < max ∧ HoldsWith c s) R :=
  Triple.onlyIf (fun h => (releaseAndExit_triple _).consequence (fun _ hs => hs.1)
    (fun _ _ hs => hs) (hR h)) fun h _ hs => ⟨Nat.lt_of_not_le h, hs⟩

theorem pathRequest_triple {c : Memory} (rq : RequestCode) (cdfsi : Cdfsi) (cdfsd : Cdfsd)
    (pszName : List UInt8) (iCurDirEnd : UInt16) {R : ApiRet → StubState δ → Prop}
    (hR : CCHMAXPATH ≤ pszName.length → ∀ rc s, InPhase (some .done) s → R rc s) :
    Triple (HoldsWith c) (pathRequest env rq cdfsi cdfsd pszName iCurDirEnd)
      (fun _ s => pszName.length < CCHMAXPATH ∧ HoldsWith c s) R :=
  (setRequest_holdsWith _).bind fun _ => (checkString_triple _ _ hR).bind fun _ =>
    Triple.of_forall fun _ hs => (setRequest_holdsWith _).consequence (fun _ h => h ▸ hs.2)
      (fun _ _ h => ⟨hs.1, h⟩) fun _ _ h => h

end Stub

end Isofs
