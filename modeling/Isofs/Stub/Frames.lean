import Isofs.Stub.LockDiscipline

/-!
# What a call leaves

The effect of a call up to the signal to the daemon, and behind it: the exchange buffers, the
caller's memory, and which events of the trace write to the caller or hand a request over.
-/

namespace Isofs

namespace Stub

open Proc

variable {δ α : Type} {env : StubEnv δ}

/-! ### Codes -/

/-- What `requestExchangeXS` returns. -/
def acquireCode (env : StubEnv δ) : ApiRet :=
  if env.daemonAtEntry = false then .ERROR_STUBFSD_DAEMON_NOT_RUNNING
  else if env.callerIsDaemon = true then .ERROR_STUBFSD_DEADLOCK
  else if env.requestSem ≠ .NO_ERROR then env.requestSem
  else if env.daemonAfterRequest = false then .ERROR_STUBFSD_DAEMON_NOT_RUNNING
  else .NO_ERROR

/-- `signalDaemonAndWait` makes the request available to the daemon. -/
def HandsOver (env : StubEnv δ) (signal : Signal) : Prop :=
  env.setRqDone signal = .NO_ERROR ∧ env.clearRqAvail signal = .NO_ERROR

/-- What `signalDaemonAndWait` returns. -/
def signalCode (env : StubEnv δ) (signal : Signal) : ApiRet :=
  if env.setRqDone signal ≠ .NO_ERROR then env.setRqDone signal
  else if env.clearRqAvail signal ≠ .NO_ERROR then env.clearRqAvail signal
  else if env.waitRqDone signal ≠ .NO_ERROR then env.waitRqDone signal
  else if env.daemonAfterWait signal = false then .ERROR_STUBFSD_DAEMON_NOT_RUNNING
  else .NO_ERROR

theorem acquireCode_eq_noError_iff : acquireCode env = .NO_ERROR ↔ Acquires env := by
  rw [acquireCode, Acquires]
  split_ifs <;> simp_all

theorem signalCode_eq_noError_iff : signalCode env .request = .NO_ERROR ↔ Signalled env := by
  rw [signalCode, Signalled]
  split_ifs <;> simp_all

section Rules

variable {s t : StubState δ} {q : Request} {m : Memory} {R : ApiRet → StubState δ → Prop}

/-! ### The information buffer -/

/-- What `copyFileInfoBufPre` returns. -/
def infoError (env : StubEnv δ) (caller : Memory) (fsFlag usLevel : UInt16) (pData : Ptr) :
    ApiRet :=
  if fsFlag &&& FI_SET ≠ 0 then
    if usLevel = 2 then feaListError env caller pData
    else if env.probe .dataRead ≠ .NO_ERROR then exitCode env .ERROR_INVALID_PARAMETER
    else .NO_ERROR
  else if usLevel = 3 then geaListError env caller pData
  else .NO_ERROR

/-- The bytes that `copyFileInfoBufPre` copies to the data buffer. -/
def infoIn (caller : Memory) (fsFlag usLevel cbData : UInt16) (pData : Ptr) : List UInt8 :=
  if fsFlag &&& FI_SET ≠ 0 then
    if usLevel = 2 then listIn caller (caller.le32 (pData + 4))
    else caller.slice pData cbData.toNat
  else if usLevel = 3 then listIn caller (caller.le32 pData)
  else []

theorem copyFileInfoBufPre_prepared (fsFlag usLevel cbData : UInt16) (pData : Ptr) :
    Triple (Prepared s q m) (copyFileInfoBufPre env fsFlag usLevel cbData pData) (fun _ _ => False)
      (fun rc t => rc = infoError env s.caller fsFlag usLevel pData ∧ Prepared s q
        (if rc = .NO_ERROR then m.blit 0 (infoIn s.caller fsFlag usLevel cbData pData) else m)
          t) := by
  -- what `copyEAOP` returns is passed on
  have hreturn (rc' : ApiRet) {m' : Memory} :
      Triple (Prepared s q m') (do
        returnOnError rc'
        ret .NO_ERROR : Stub δ Empty) (fun _ _ => False)
        (fun rc t => rc = rc' ∧ Prepared s q m' t) := by
    refine Triple.bind ((returnOnError_prepared rc').consequence (fun _ h => h) (fun _ _ h => h) ?_)
      fun _ => Triple.given fun hrc => Triple.ret fun t h => ⟨hrc.symm, h⟩
    rintro rc t ⟨-, rfl, h⟩
    exact ⟨rfl, h⟩
  rw [copyFileInfoBufPre, infoError, infoIn]
  split
  · split
    · refine (Triple.call (copyEAOP_feas_prepared pData)).bind fun rc => Triple.given ?_
      rintro rfl
      refine (hreturn _).consequence (fun _ h => h) (fun _ _ h => h) ?_
      rintro rc t ⟨rfl, h⟩
      exact ⟨rfl, h⟩
    · refine (probe_prepared _ _ _).bind fun rc => Triple.given ?_
      rintro rfl
      by_cases hprobe : env.probe .dataRead = .NO_ERROR
      · rw [releaseOnError_of_ok hprobe, if_neg (not_not.mpr hprobe)]
        exact Triple.bind (Q := fun _ => Prepared s q m) (Triple.pure fun _ h => h) fun _ =>
          (copyIn_prepared _ _).bind fun _ => Triple.ret fun t h => ⟨rfl, h⟩
      · rw [releaseOnError_of_error hprobe, if_pos hprobe]
        refine Triple.bind (Q := fun _ _ => False) ((releaseAndExit_prepared _).consequence
          (fun _ h => h) (fun _ _ h => h) ?_) fun _ _ h => h.elim
        rintro rc t ⟨rfl, h⟩
        refine ⟨rfl, ?_⟩
        rw [if_neg (exitCode_ne_noError (by decide))]
        exact h
  · split
    · refine (Triple.call (copyEAOP_geas_prepared pData)).bind fun rc => Triple.given ?_
      rintro rfl
      refine (hreturn _).consequence (fun _ h => h) (fun _ _ h => h) ?_
      rintro rc t ⟨rfl, h⟩
      exact ⟨rfl, h⟩
    · refine Triple.ret fun t h => ⟨rfl, ?_⟩
      rw [if_pos rfl, Memory.blit_nil]
      exact h

/-! ### The frame -/

theorem requestExchangeXS_prepared :
    Triple (Prepared s q m) (requestExchangeXS env) (fun _ _ => False)
      (fun rc t => rc = acquireCode env ∧ Prepared s q m t) := by
  rw [requestExchangeXS, acquireCode]
  refine Triple.bind (Q := fun _ t => env.daemonAtEntry ≠ false ∧ Prepared s q m t)
    (Triple.onlyIf (fun h => Triple.ret fun t ht => ⟨by rw [if_pos h], ht⟩) fun h _ ht => ⟨h, ht⟩)
    fun _ => Triple.given fun h1 => ?_
  rw [if_neg h1]
  refine Triple.bind (Q := fun _ t => env.callerIsDaemon ≠ true ∧ Prepared s q m t)
    (Triple.onlyIf (fun h => Triple.ret fun t ht => ⟨by rw [if_pos h], ht⟩) fun h _ ht => ⟨h, ht⟩)
    fun _ => Triple.given fun h2 => ?_
  rw [if_neg h2]
  refine Triple.bind ((returnOnError_prepared env.requestSem).consequence (fun _ h => h)
    (fun _ _ h => h) fun rc t h => ⟨by rw [if_pos h.1]; exact h.2.1, h.2.2⟩)
    fun _ => Triple.given fun h3 => ?_
  rw [if_neg (not_not.mpr h3)]
  refine (log_prepared (show IsFilling .requestSerialize from trivial)).bind fun _ => ?_
  refine Triple.bind (Q := fun _ t => env.daemonAfterRequest ≠ false ∧ Prepared s q m t)
    (Triple.onlyIf (fun h => ?_) fun h _ ht => ⟨h, ht⟩) fun _ => Triple.given fun h4 => ?_
  · refine (log_prepared (show IsFilling .clearSerialize from trivial)).bind fun _ => ?_
    exact Triple.ret fun t ht => ⟨by rw [if_pos h], ht⟩
  · exact Triple.ret fun t ht => ⟨by rw [if_neg h4], ht⟩

/-- Since `s`, where the exchange buffers were `q` and `m`, the call has signalled the daemon; only
when all went well it is known that the daemon has worked. -/
structure AfterSignal (env : StubEnv δ) (signal : Signal) (s : StubState δ) (q : Request)
    (m : Memory) (t : StubState δ) : Prop where
  caller : t.caller = s.caller
  works : signalCode env signal = .NO_ERROR →
    (t.daemon, t.pRequest, t.pFSData) = env.daemon s.daemon q m
  events : ∃ es, t.trace = es ++ s.trace ∧ (∀ e ∈ es, IsInner e ∨ e = .clearRqAvail q m) ∧
    (.clearRqAvail q m ∈ es ↔ HandsOver env signal)
  calls : .signal ∈ t.trace

/-- Events that are not a signal follow. -/
theorem AfterSignal.log {signal : Signal} (h : AfterSignal env signal s q m t) {e : StubEvent}
    (he : IsInner e) : AfterSignal env signal s q m { t with trace := e :: t.trace } := by
  obtain ⟨hcaller, hworks, ⟨es, htrace, hes, hhands⟩, hcalls⟩ := h
  refine ⟨hcaller, hworks, ⟨e :: es, congrArg (e :: ·) htrace, ?_, ?_⟩,
    List.mem_cons_of_mem e hcalls⟩
  · exact List.forall_mem_cons.mpr ⟨Or.inl he, hes⟩
  · rw [List.mem_cons, hhands]
    refine or_iff_right ?_
    rintro rfl
    exact he

theorem handsOver_of_signalCode {signal : Signal} (h : signalCode env signal = .NO_ERROR) :
    HandsOver env signal := by
  rw [signalCode] at h
  by_cases h1 : env.setRqDone signal = .NO_ERROR
  · rw [if_neg (not_not.mpr h1)] at h
    by_cases h2 : env.clearRqAvail signal = .NO_ERROR
    · exact ⟨h1, h2⟩
    · rw [if_pos h2] at h
      exact absurd h h2
  · rw [if_pos h1] at h
    exact absurd h h1

/-- Since `s` the call has only touched the exchange buffers, which are now `q` and `m`, and it is
in `signalDaemonAndWait`. -/
structure Signalling (s : StubState δ) (q : Request) (m : Memory) (t : StubState δ) : Prop where
  request : t.pRequest = q
  buffer : t.pFSData = m
  caller : t.caller = s.caller
  daemon : t.daemon = s.daemon
  events : ∃ es, t.trace = es ++ s.trace ∧ ∀ e ∈ es, IsInner e
  calls : .signal ∈ t.trace

theorem Prepared.signalling (h : Prepared s q m t) :
    Signalling s q m { t with trace := .signal :: t.trace } := by
  obtain ⟨hrequest, hbuffer, hcaller, hdaemon, es, htrace, hes⟩ := h
  refine ⟨hrequest, hbuffer, hcaller, hdaemon, ⟨.signal :: es, congrArg (_ :: ·) htrace, ?_⟩,
    List.mem_cons_self⟩
  exact List.forall_mem_cons.mpr ⟨trivial, fun e he => (hes e he).isInner⟩

theorem log_signalling {e : StubEvent} (he : IsInner e) :
    Triple (Signalling s q m) (log e) (fun _ => Signalling s q m) R := by
  rintro t ⟨hrequest, hbuffer, hcaller, hdaemon, ⟨es, htrace, hes⟩, hcalls⟩
  exact ⟨hrequest, hbuffer, hcaller, hdaemon, ⟨e :: es, congrArg (e :: ·) htrace,
    List.forall_mem_cons.mpr ⟨he, hes⟩⟩, List.mem_cons_of_mem e hcalls⟩

theorem AfterSignal.of_signalling {signal : Signal} (h : Signalling s q m t)
    (hnot : ¬ HandsOver env signal) : AfterSignal env signal s q m t := by
  obtain ⟨-, -, hcaller, -, ⟨es, htrace, hes⟩, hcalls⟩ := h
  exact ⟨hcaller, fun hcode => absurd (handsOver_of_signalCode hcode) hnot, ⟨es, htrace,
    fun e he => Or.inl (hes e he), iff_of_false (fun hmem => hes _ hmem) hnot⟩, hcalls⟩

theorem signal_prepared (signal : Signal) :
    Triple (Prepared s q m) (signalDaemonAndWait env signal) (fun _ _ => False)
      (fun rc t => rc = signalCode env signal ∧ AfterSignal env signal s q m t) := by
  rw [signalDaemonAndWait]
  refine Triple.bind (Q := fun _ => Signalling s q m) (fun _ h => h.signalling) fun _ => ?_
  by_cases h1 : env.setRqDone signal = .NO_ERROR
  swap
  · refine Triple.bind (Q := fun _ _ => False) (Triple.onlyIf (fun _ => Triple.ret fun t h => ?_)
      fun h => absurd h1 h) fun _ _ h => h.elim
    exact ⟨by rw [signalCode, if_pos h1], .of_signalling h fun hands => h1 hands.1⟩
  refine Triple.bind (Q := fun _ => Signalling s q m) (Triple.onlyIf (fun h => absurd h1 h)
    fun _ _ h => h) fun _ => (log_signalling (show IsInner .setRqDone from trivial)).bind
      fun _ => ?_
  by_cases h2 : env.clearRqAvail signal = .NO_ERROR
  swap
  · refine Triple.bind (Q := fun _ _ => False) (Triple.onlyIf (fun _ => Triple.ret fun t h => ?_)
      fun h => absurd h2 h) fun _ _ h => h.elim
    exact ⟨by rw [signalCode, if_neg (not_not.mpr h1), if_pos h2],
      .of_signalling h fun hands => h2 hands.2⟩
  refine Triple.bind (Q := fun _ => Signalling s q m) (Triple.onlyIf (fun h => absurd h2 h)
    fun _ _ h => h) fun _ => ?_
  rintro t ⟨rfl, rfl, hcaller, hdaemon, ⟨es, htrace, hes⟩, hcalls⟩
  -- from here on the daemon can get the request
  have hevents (es' : List StubEvent) (hes' : ∀ e ∈ es', IsInner e) :
      (∀ e ∈ es' ++ .clearRqAvail t.pRequest t.pFSData :: es,
        IsInner e ∨ e = .clearRqAvail t.pRequest t.pFSData) ∧
      (.clearRqAvail t.pRequest t.pFSData ∈ es' ++ .clearRqAvail t.pRequest t.pFSData :: es ↔
        HandsOver env signal) := by
    refine ⟨fun e he => ?_, iff_of_true (by simp) ⟨h1, h2⟩⟩
    rcases List.mem_append.mp he with he | he
    · exact Or.inl (hes' e he)
    · rcases List.mem_cons.mp he with he | he
      · exact Or.inr he
      · exact Or.inl (hes e he)
  refine Ends.bind (Ends.update ?_)
  by_cases h3 : env.waitRqDone signal = .NO_ERROR
  swap
  · refine Ends.bind (Ends.onlyIf (fun _ => Ends.ret ?_) fun h => absurd h3 h)
    have hcode : signalCode env signal = env.waitRqDone signal := by
      rw [signalCode, if_neg (not_not.mpr h1), if_neg (not_not.mpr h2), if_pos h3]
    exact ⟨hcode.symm, hcaller, fun h => absurd (hcode.symm.trans h) h3, ⟨_,
      congrArg (_ :: ·) htrace, hevents [] (List.forall_mem_nil _)⟩, List.mem_cons_of_mem _ hcalls⟩
  refine Ends.bind (Ends.onlyIf (fun h => absurd h3 h) fun _ => Ends.bind (Ends.update
    (Ends.bind (Ends.update ?_))))
  have hwait : ∀ e ∈ [StubEvent.waitRqDone], IsInner e :=
    fun e he => List.mem_singleton.mp he ▸ trivial
  have hafter : AfterSignal env signal s t.pRequest t.pFSData
      { t with
        daemon := (env.daemon t.daemon t.pRequest t.pFSData).1
        pRequest := (env.daemon t.daemon t.pRequest t.pFSData).2.1
        pFSData := (env.daemon t.daemon t.pRequest t.pFSData).2.2
        trace := .waitRqDone :: .clearRqAvail t.pRequest t.pFSData :: t.trace } := by
    refine ⟨hcaller, fun _ => ?_, ⟨_, ?_, hevents _ hwait⟩,
      List.mem_cons_of_mem _ (List.mem_cons_of_mem _ hcalls)⟩
    · rw [hdaemon]
    · rw [htrace]
      rfl
  refine Ends.bind (Ends.onlyIf (fun h4 => Ends.ret ⟨?_, hafter⟩) fun h4 => Ends.ret ⟨?_, hafter⟩)
  · rw [signalCode, if_neg (not_not.mpr h1), if_neg (not_not.mpr h2), if_neg (not_not.mpr h3),
      if_pos h4]
  · rw [signalCode, if_neg (not_not.mpr h1), if_neg (not_not.mpr h2), if_neg (not_not.mpr h3),
      if_neg h4]

/-- What a call comes to: it does not get the lock, it returns while it fills the exchange buffers,
the signal fails, or it goes on behind the signal, where what has been kept until then holds. -/
theorem exchange_ends_keeping {I : StubState δ → Prop} {fill : Stub δ Unit}
    {finish : Stub δ ApiRet} {filled : Prop} {R : ApiRet → StubState δ → Prop} (hstart : I s)
    (hrequests : Triple I (requestExchangeXS env) (fun _ _ => True) (fun _ => I))
    (hfills : Triple I fill (fun _ => I) (fun _ _ => True))
    (hsignals : Triple I (signalDaemonAndWait env .request) (fun _ _ => True) (fun _ => I))
    (hacquire : acquireCode env ≠ .NO_ERROR → ∀ t, Prepared s s.pRequest s.pFSData t →
      R (acquireCode env) t)
    (hfill : acquireCode env = .NO_ERROR → Triple (Prepared s s.pRequest s.pFSData) fill
      (fun _ t => filled ∧ Prepared s q m t) R)
    (hsignal : acquireCode env = .NO_ERROR → filled → signalCode env .request ≠ .NO_ERROR →
      ∀ t, AfterSignal env .request s q m t → R (exitCode env (signalCode env .request)) t)
    (hfinish : acquireCode env = .NO_ERROR → filled → signalCode env .request = .NO_ERROR →
      Triple (fun t => AfterSignal env .request s q m t ∧ I t) finish
        (fun rc t => R (exitCode env rc) { t with trace := .clearSerialize :: t.trace }) R) :
    Ends (exchange env fill finish) (fun _ _ => False) R s := by
  refine Ends.bind ((Triple.call (requestExchangeXS_prepared.and hrequests) s
    ⟨.refl s, hstart⟩).mono ?_ fun _ _ h => h)
  rintro rc t ⟨⟨rfl, ht⟩, hkept⟩
  by_cases hacq : acquireCode env = .NO_ERROR
  swap
  · exact Ends.bind (Ends.onlyIf (fun _ => Ends.ret (hacquire hacq t ht)) fun h => absurd hacq h)
  refine Ends.bind (Ends.onlyIf (fun h => absurd hacq h) fun _ => ?_)
  refine Ends.bind (((hfill hacq).and hfills t ⟨ht, hkept⟩).mono ?_ fun _ _ h => h.1)
  rintro - u ⟨⟨hfilled, hu⟩, hkept⟩
  refine Ends.bind ((Triple.call ((signal_prepared .request).and hsignals) u
    ⟨hu, hkept⟩).mono ?_ fun _ _ h => h)
  rintro rc v ⟨⟨rfl, hv⟩, hkept⟩
  by_cases hsig : signalCode env .request = .NO_ERROR
  · refine Ends.bind (Ends.onlyIf (fun h => absurd hsig h) fun _ => ?_)
    refine Ends.bind ((hfinish hacq hfilled hsig v ⟨hv, hkept⟩).mono (fun rc w hw => ?_)
      fun _ _ h => h)
    exact Ends.bind (Ends.update (Ends.ret hw))
  · refine Ends.bind (Ends.onlyIf (fun _ => Ends.bind (Ends.update (Ends.ret ?_)))
      fun h => absurd hsig h)
    exact hsignal hacq hfilled hsig _ (hv.log (show IsInner .clearSerialize from trivial))

theorem exchange_ends_of {fill : Stub δ Unit} {finish : Stub δ ApiRet} {filled : Prop}
    {R : ApiRet → StubState δ → Prop}
    (hacquire : acquireCode env ≠ .NO_ERROR → ∀ t, Prepared s s.pRequest s.pFSData t →
      R (acquireCode env) t)
    (hfill : acquireCode env = .NO_ERROR → Triple (Prepared s s.pRequest s.pFSData) fill
      (fun _ t => filled ∧ Prepared s q m t) R)
    (hsignal : acquireCode env = .NO_ERROR → filled → signalCode env .request ≠ .NO_ERROR →
      ∀ t, AfterSignal env .request s q m t → R (exitCode env (signalCode env .request)) t)
    (hfinish : acquireCode env = .NO_ERROR → filled → signalCode env .request = .NO_ERROR →
      Triple (AfterSignal env .request s q m) finish
        (fun rc t => R (exitCode env rc) { t with trace := .clearSerialize :: t.trace }) R) :
    Ends (exchange env fill finish) (fun _ _ => False) R s :=
  exchange_ends_keeping (I := fun _ => True) trivial (fun _ _ => .true) (fun _ _ => .true)
    (fun _ _ => .true) hacquire hfill hsignal fun hacq hfilled hsig =>
      (hfinish hacq hfilled hsig).consequence (fun _ h => h.1) (fun _ _ h => h) fun _ _ h => h

end Rules

end Stub

end Isofs
