import Isofs.Stub.EntryPoints

/-!
# Up to the signal

What the statements of a call do before the daemon is signalled: they only touch the exchange
buffers, unless they return a code.
-/

namespace Isofs

namespace Stub

open Proc

variable {δ α : Type} {env : StubEnv δ}

/-- What `RELEASE_AND_EXIT` returns. -/
def exitCode (env : StubEnv δ) (rc : ApiRet) : ApiRet :=
  if env.releaseSem ≠ .NO_ERROR then env.releaseSem else rc

/-- `RELEASE_AND_EXIT` does not return success for an error. -/
theorem exitCode_ne_noError {rc : ApiRet} (h : rc ≠ .NO_ERROR) : exitCode env rc ≠ .NO_ERROR := by
  rw [exitCode]
  split
  · assumption
  · exact h

/-! ### The exchange buffers -/

/-- Events that neither write to the caller's memory nor hand a request over. -/
def IsInner : StubEvent → Prop
  | .clearRqAvail _ _ => False
  | .copyOut _ _ => False
  | _ => True

/-- Inner events before the call of `signalDaemonAndWait`. -/
def IsFilling : StubEvent → Prop
  | .signal => False
  | .clearRqAvail _ _ => False
  | .copyOut _ _ => False
  | _ => True

theorem IsFilling.isInner {e : StubEvent} (he : IsFilling e) : IsInner e := by
  cases e <;> first | exact he.elim | trivial

/-- Since `s` the call has only touched the exchange buffers, which are now `q` and `m`. -/
structure Prepared (s : StubState δ) (q : Request) (m : Memory) (t : StubState δ) : Prop where
  request : t.pRequest = q
  buffer : t.pFSData = m
  caller : t.caller = s.caller
  daemon : t.daemon = s.daemon
  events : ∃ es, t.trace = es ++ s.trace ∧ ∀ e ∈ es, IsFilling e

section Rules

variable {s t : StubState δ} {q : Request} {m : Memory} {R : ApiRet → StubState δ → Prop}

theorem Prepared.refl (s : StubState δ) : Prepared s s.pRequest s.pFSData s :=
  ⟨rfl, rfl, rfl, rfl, [], rfl, List.forall_mem_nil _⟩

/-- One more event, and other exchange buffers. -/
theorem Prepared.step (h : Prepared s q m t) {e : StubEvent} (he : IsFilling e) (q' : Request)
    (m' : Memory) :
    Prepared s q' m' { t with pRequest := q', pFSData := m', trace := e :: t.trace } := by
  obtain ⟨-, -, hcaller, hdaemon, es, htrace, hes⟩ := h
  refine ⟨rfl, rfl, hcaller, hdaemon, e :: es, ?_, List.forall_mem_cons.mpr ⟨he, hes⟩⟩
  rw [List.cons_append, ← htrace]

theorem Prepared.trans {q' : Request} {m' : Memory} {u : StubState δ} (h : Prepared s q m t)
    (h' : Prepared t q' m' u) : Prepared s q' m' u := by
  obtain ⟨-, -, hcaller, hdaemon, es, htrace, hes⟩ := h
  obtain ⟨hrequest, hbuffer, hcaller', hdaemon', es', htrace', hes'⟩ := h'
  refine ⟨hrequest, hbuffer, hcaller'.trans hcaller, hdaemon'.trans hdaemon, es' ++ es, ?_,
    fun e he => (List.mem_append.mp he).elim (hes' e) (hes e)⟩
  rw [htrace', htrace, List.append_assoc]

theorem log_prepared {e : StubEvent} (he : IsFilling e) :
    Triple (Prepared s q m) (log e) (fun _ => Prepared s q m) R := by
  intro t h
  have hstep := h.step he q m
  rw [← h.request, ← h.buffer] at hstep ⊢
  exact hstep

theorem setRequest_prepared (f : Request → Request) :
    Triple (Prepared s q m) (setRequest f) (fun _ => Prepared s (f q) m) R := by
  intro t h
  have hstep := h.step (show IsFilling .exchange from trivial) (f q) m
  rw [← h.request, ← h.buffer] at hstep ⊢
  exact hstep

theorem getRequest_prepared (f : Request → α) :
    Triple (Prepared s q m) (getRequest f) (fun a t => a = f q ∧ Prepared s q m t) R := by
  intro t h
  have hstep := h.step (show IsFilling .exchange from trivial) q m
  rw [← h.request, ← h.buffer] at hstep ⊢
  exact ⟨rfl, hstep⟩

theorem copyIn_prepared (p : Ptr) (len : UInt16) :
    Triple (Prepared s q m) (copyIn p len)
      (fun _ => Prepared s q (m.blit 0 (s.caller.slice p len.toNat))) R := by
  intro t h
  have huse := h.step (show IsFilling .exchange from trivial) q m
  have hstep := huse.step (show IsFilling (.copyIn p len) from trivial) q
    (m.blit 0 (s.caller.slice p len.toNat))
  rw [← h.request, ← h.buffer, ← h.caller] at hstep ⊢
  exact hstep

theorem readCaller_prepared (f : Memory → α) :
    Triple (Prepared s q m) (read fun s => f s.caller)
      (fun a t => a = f s.caller ∧ Prepared s q m t) R := by
  intro t h
  exact ⟨congrArg f h.caller, h⟩

theorem probe_prepared (site : ProbeSite) (p : Ptr) (len : UInt16) :
    Triple (Prepared s q m) (probe env site p len)
      (fun rc t => rc = env.probe site ∧ Prepared s q m t) R :=
  (log_prepared (show IsFilling (.probe site p len) from trivial)).bind
    fun _ => Triple.pure fun _ h => ⟨rfl, h⟩

theorem mustProbe_prepared (site : ProbeSite) (p : Ptr) (len : UInt16) :
    Triple (Prepared s q m) (mustProbe env site p len)
      (fun _ t => env.probe site = .NO_ERROR ∧ Prepared s q m t)
      (fun rc t => env.probe site ≠ .NO_ERROR ∧ rc = .ERROR_INVALID_PARAMETER ∧
        Prepared s q m t) := by
  refine (probe_prepared site p len).bind fun rc => Triple.onlyIf (fun hrc => ?_) fun hrc t h => ?_
  · exact Triple.ret fun t h => ⟨h.1 ▸ hrc, rfl, h.2⟩
  · exact ⟨h.1 ▸ not_not.mp hrc, h.2⟩

theorem returnOnError_prepared (rc : ApiRet) :
    Triple (Prepared s q m) (returnOnError rc)
      (fun _ t => rc = .NO_ERROR ∧ Prepared s q m t)
      (fun r t => rc ≠ .NO_ERROR ∧ r = rc ∧ Prepared s q m t) :=
  Triple.onlyIf (fun hrc => Triple.ret fun _ h => ⟨hrc, rfl, h⟩) fun hrc _ h => ⟨not_not.mp hrc, h⟩

theorem releaseAndExit_prepared (rc : ApiRet) {Q : α → StubState δ → Prop} :
    Triple (Prepared s q m) (releaseAndExit env rc) Q
      (fun r t => r = exitCode env rc ∧ Prepared s q m t) :=
  (log_prepared (show IsFilling .clearSerialize from trivial)).bind
    fun _ => Triple.ret fun _ h => ⟨rfl, h⟩

theorem checkString_prepared (psz : List UInt8) (max : ℕ) :
    Triple (Prepared s q m) (checkString env psz max)
      (fun _ t => psz.length < max ∧ Prepared s q m t)
      (fun r t => max ≤ psz.length ∧ r = exitCode env .ERROR_INVALID_PARAMETER ∧
        Prepared s q m t) :=
  Triple.onlyIf (fun hlong => (releaseAndExit_prepared _).consequence (fun _ h => h)
    (fun _ _ h => h) fun _ _ h => ⟨hlong, h⟩) fun hshort _ h => ⟨Nat.lt_of_not_le hshort, h⟩

/-! ### Lists that are copied in -/

/-- What `checkListLength` and the probe of a list of `cbList` bytes come to. -/
def listError (cbList : ℕ) (probe : ApiRet) : ApiRet :=
  if cbList < 4 then .ERROR_EA_LIST_INCONSISTENT
  else if 65536 < cbList then .ERROR_EA_LIST_TOO_LONG
  else if probe ≠ .NO_ERROR then .ERROR_INVALID_PARAMETER
  else .NO_ERROR

/-- What `copyEAOP` returns when it copies the GEA list of the `EAOP` at `pEABuf`. -/
def geaListError (env : StubEnv δ) (caller : Memory) (pEABuf : Ptr) : ApiRet :=
  if env.probe (.eaop .pre .eaopRead) ≠ .NO_ERROR then .ERROR_INVALID_PARAMETER
  else if env.probe (.eaop .pre .geaLength) ≠ .NO_ERROR then .ERROR_INVALID_PARAMETER
  else listError (caller.le32 (caller.le32 pEABuf)) (env.probe (.eaop .pre .geaRead))

/-- What `copyEAOP` returns when it copies the FEA list of the `EAOP` at `pEABuf` in. -/
def feaListError (env : StubEnv δ) (caller : Memory) (pEABuf : Ptr) : ApiRet :=
  if env.probe (.eaop .pre .eaopRead) ≠ .NO_ERROR then .ERROR_INVALID_PARAMETER
  else if env.probe (.eaop .pre .feaLength) ≠ .NO_ERROR then .ERROR_INVALID_PARAMETER
  else listError (caller.le32 (caller.le32 (pEABuf + 4))) (env.probe (.eaop .pre .feaRead))

/-- The bounds on the length of a list that is accepted. -/
theorem bounds_of_listError {n : ℕ} {probe : ApiRet} (h : listError n probe = .NO_ERROR) :
    4 ≤ n ∧ n ≤ 65536 := by
  rw [listError] at h
  split at h
  · cases h
  · split at h
    · cases h
    · omega

/-- A GEA list that passes the checks. -/
theorem bounds_of_geaListError {caller : Memory} {pEABuf : Ptr}
    (h : geaListError env caller pEABuf = .NO_ERROR) :
    4 ≤ caller.le32 (caller.le32 pEABuf) ∧ caller.le32 (caller.le32 pEABuf) ≤ 65536 := by
  rw [geaListError] at h
  split at h
  · cases h
  · split at h
    · cases h
    · exact bounds_of_listError h

/-- The bytes that `listToBuf` copies of the list at `p`. -/
def listIn (caller : Memory) (p : Ptr) : List UInt8 :=
  caller.slice p (UInt16.ofNat (caller.le32 p)).toNat

theorem checkListLength_prepared (n : ℕ) (probe : ApiRet) :
    Triple (Prepared s q m) (checkListLength n)
      (fun _ t => (¬ n < 4 ∧ ¬ 65536 < n) ∧ Prepared s q m t)
      (fun rc t => rc = listError n probe ∧ rc ≠ .NO_ERROR ∧ Prepared s q m t) := by
  refine Triple.bind (Q := fun _ t => ¬ n < 4 ∧ Prepared s q m t)
    (Triple.onlyIf (fun hmin => Triple.ret fun t h => ?_) fun hmin _ h => ⟨hmin, h⟩)
    fun _ => Triple.given fun hmin =>
      Triple.onlyIf (fun hmax => Triple.ret fun t h => ?_) fun hmax _ h => ⟨⟨hmin, hmax⟩, h⟩
  · exact ⟨by rw [listError, if_pos hmin], by decide, h⟩
  · exact ⟨by rw [listError, if_neg hmin, if_pos hmax], by decide, h⟩

theorem listToBuf_prepared (turn : Turn) (site : EaopProbe) (p : Ptr) :
    Triple (Prepared s q m) (listToBuf env turn site p)
      (fun _ t => listError (s.caller.le32 p) (env.probe (.eaop turn site)) = .NO_ERROR ∧
        Prepared s q (m.blit 0 (listIn s.caller p)) t)
      (fun rc t => rc = listError (s.caller.le32 p) (env.probe (.eaop turn site)) ∧
        rc ≠ .NO_ERROR ∧ Prepared s q m t) := by
  refine (readCaller_prepared fun c => c.le32 p).bind fun n => Triple.given ?_
  rintro rfl
  refine (checkListLength_prepared _ _).bind fun _ => Triple.given fun hlength => ?_
  refine Triple.bind ((mustProbe_prepared _ _ _).consequence (fun _ h => h) (fun _ _ h => h) ?_)
    fun _ => Triple.given fun hprobe => (copyIn_prepared _ _).consequence (fun _ h => h)
      (fun _ t h => ⟨?_, h⟩) fun _ _ h => h
  · rintro rc t ⟨hprobe, rfl, h⟩
    exact ⟨by rw [listError, if_neg hlength.1, if_neg hlength.2, if_pos hprobe], by decide, h⟩
  · rw [listError, if_neg hlength.1, if_neg hlength.2, if_neg (not_not.mpr hprobe)]

theorem copyEAOP_geas_prepared (pEABuf : Ptr) :
    Triple (Prepared s q m) (copyEAOP env .pre pEABuf CEA_GEAS_TO_BUF 0) (fun _ _ => False)
      (fun rc t => rc = geaListError env s.caller pEABuf ∧ Prepared s q
        (if rc = .NO_ERROR then m.blit 0 (listIn s.caller (s.caller.le32 pEABuf)) else m) t) := by
  have h1 : ¬ CEA_GEAS_TO_BUF &&& CEA_SET_OERROR ≠ 0 := by decide
  have h2 : ¬ (CEA_GEAS_TO_BUF &&& CEA_FEAS_TO_BUF ≠ 0 ∨
    CEA_GEAS_TO_BUF &&& CEA_BUF_TO_FEAS ≠ 0) := by decide
  have h3 : CEA_GEAS_TO_BUF &&& CEA_GEAS_TO_BUF ≠ 0 := by decide
  rw [copyEAOP]
  simp only [onlyIf_of_false h1, onlyIf_of_false h2, onlyIf_of_true h3]
  refine Triple.bind ((mustProbe_prepared _ _ _).consequence (fun _ h => h) (fun _ _ h => h) ?_)
    fun _ => Triple.given fun hread => ?_
  · rintro rc t ⟨hread, rfl, h⟩
    exact ⟨by rw [geaListError, if_pos hread], h⟩
  refine (readCaller_prepared fun c => c.le32 pEABuf).bind fun pgeas => Triple.given ?_
  rintro rfl
  refine (readCaller_prepared fun c => c.le32 (pEABuf + 4)).bind fun _ => Triple.given fun _ => ?_
  refine Triple.bind (Q := fun _ => Prepared s q m) (Triple.pure fun _ h => h) fun _ =>
    Triple.bind (Q := fun _ => Prepared s q m) (Triple.pure fun _ h => h) fun _ => ?_
  -- with both lengths accessible the error is that of the list
  have herror (hlength : env.probe (.eaop .pre .geaLength) = .NO_ERROR) :
      geaListError env s.caller pEABuf =
        listError (s.caller.le32 (s.caller.le32 pEABuf)) (env.probe (.eaop .pre .geaRead)) := by
    rw [geaListError, if_neg (not_not.mpr hread), if_neg (not_not.mpr hlength)]
  refine Triple.bind (Q := fun _ t => geaListError env s.caller pEABuf = .NO_ERROR ∧
    Prepared s q (m.blit 0 (listIn s.caller (s.caller.le32 pEABuf))) t) (Triple.bind
      ((mustProbe_prepared _ _ _).consequence (fun _ h => h) (fun _ _ h => h) ?_) fun _ =>
        Triple.given fun hlength => ?_) fun _ => Triple.ret fun t h => ?_
  · rintro rc t ⟨hlength, rfl, h⟩
    exact ⟨by rw [geaListError, if_neg (not_not.mpr hread), if_pos hlength], h⟩
  · rw [herror hlength]
    refine (listToBuf_prepared _ _ _).consequence (fun _ h => h) (fun _ _ h => h) ?_
    rintro rc t ⟨hrc, hbad, h⟩
    exact ⟨hrc, by rwa [if_neg hbad]⟩
  · exact ⟨h.1.symm, by rw [if_pos rfl]; exact h.2⟩

theorem copyEAOP_feas_prepared (pEABuf : Ptr) :
    Triple (Prepared s q m) (copyEAOP env .pre pEABuf CEA_FEAS_TO_BUF 0) (fun _ _ => False)
      (fun rc t => rc = feaListError env s.caller pEABuf ∧ Prepared s q
        (if rc = .NO_ERROR then m.blit 0 (listIn s.caller (s.caller.le32 (pEABuf + 4))) else m)
          t) := by
  have h1 : ¬ CEA_FEAS_TO_BUF &&& CEA_SET_OERROR ≠ 0 := by decide
  have h2 : CEA_FEAS_TO_BUF &&& CEA_FEAS_TO_BUF ≠ 0 ∨
    CEA_FEAS_TO_BUF &&& CEA_BUF_TO_FEAS ≠ 0 := by decide
  have h3 : CEA_FEAS_TO_BUF &&& CEA_FEAS_TO_BUF ≠ 0 := by decide
  have h4 : ¬ CEA_FEAS_TO_BUF &&& CEA_BUF_TO_FEAS ≠ 0 := by decide
  have h5 : ¬ CEA_FEAS_TO_BUF &&& CEA_GEAS_TO_BUF ≠ 0 := by decide
  rw [copyEAOP]
  simp only [onlyIf_of_false h1, onlyIf_of_true h2, onlyIf_of_true h3, onlyIf_of_false h4,
    onlyIf_of_false h5]
  refine Triple.bind ((mustProbe_prepared _ _ _).consequence (fun _ h => h) (fun _ _ h => h) ?_)
    fun _ => Triple.given fun hread => ?_
  · rintro rc t ⟨hread, rfl, h⟩
    exact ⟨by rw [feaListError, if_pos hread], h⟩
  refine (readCaller_prepared fun c => c.le32 pEABuf).bind fun _ => Triple.given fun _ => ?_
  refine (readCaller_prepared fun c => c.le32 (pEABuf + 4)).bind fun pfeas => Triple.given ?_
  rintro rfl
  refine Triple.bind (Q := fun _ => Prepared s q m) (Triple.pure fun _ h => h) fun _ => ?_
  -- with both lengths accessible the error is that of the list
  have herror (hlength : env.probe (.eaop .pre .feaLength) = .NO_ERROR) :
      feaListError env s.caller pEABuf =
        listError (s.caller.le32 (s.caller.le32 (pEABuf + 4)))
          (env.probe (.eaop .pre .feaRead)) := by
    rw [feaListError, if_neg (not_not.mpr hread), if_neg (not_not.mpr hlength)]
  refine Triple.bind (Q := fun _ t => feaListError env s.caller pEABuf = .NO_ERROR ∧
    Prepared s q (m.blit 0 (listIn s.caller (s.caller.le32 (pEABuf + 4)))) t) (Triple.bind
      ((mustProbe_prepared _ _ _).consequence (fun _ h => h) (fun _ _ h => h) ?_) fun _ =>
        Triple.given fun hlength => Triple.bind ?_ fun _ => Triple.pure fun _ h => h) fun _ =>
          Triple.bind (Q := fun _ t => feaListError env s.caller pEABuf = .NO_ERROR ∧
            Prepared s q (m.blit 0 (listIn s.caller (s.caller.le32 (pEABuf + 4)))) t)
          (Triple.pure fun _ h => h) fun _ =>
            Triple.ret fun t h => ?_
  · rintro rc t ⟨hlength, rfl, h⟩
    exact ⟨by rw [feaListError, if_neg (not_not.mpr hread), if_pos hlength], h⟩
  · rw [herror hlength]
    refine (listToBuf_prepared _ _ _).consequence (fun _ h => h) (fun _ _ h => h) ?_
    rintro rc t ⟨hrc, hbad, h⟩
    exact ⟨hrc, by rwa [if_neg hbad]⟩
  · exact ⟨h.1.symm, by rw [if_pos rfl]; exact h.2⟩

end Rules

end Stub

end Isofs
