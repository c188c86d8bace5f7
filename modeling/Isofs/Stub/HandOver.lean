import Isofs.Stub.Frames

/-!
# What a call hands over

The events that a whole call can add to the trace, and the one request that it makes available
to the daemon.
-/

namespace Isofs

namespace Stub

open Proc

variable {δ α : Type} {env : StubEnv δ}

/-! ### The events of a call -/

namespace Emits

variable {P : StubEvent → Prop}

theorem checkString (hclear : P .clearSerialize) (psz : List UInt8) (max : ℕ) :
    Emits P (checkString env psz max) :=
  onlyIf (releaseAndExit hclear _)

/-- The events of the frame, and those of its two parts. -/
theorem exchange {fill : Stub δ Unit} {finish : Stub δ ApiRet} (hrequest : P .requestSerialize)
    (hclear : P .clearSerialize) (hsignal : P .signal) (hset : P .setRqDone)
    (havail : ∀ q m, P (.clearRqAvail q m)) (hwait : P .waitRqDone) (hfill : Emits P fill)
    (hfinish : Emits P finish) :
    Emits P (exchange env fill finish) :=
  (call (requestExchangeXS hrequest hclear)).bind fun _ => (returnOnError _).bind fun _ =>
    hfill.bind fun _ => (call (signalDaemonAndWait hsignal hset havail hwait _)).bind fun _ =>
      (onlyIf (releaseAndExit hclear _)).bind fun _ => hfinish.bind fun _ =>
        releaseAndExit hclear _

section Info

variable (hexchange : P .exchange) (hclear : P .clearSerialize)
  (hprobe : ∀ site p len, P (.probe site p len)) (hin : ∀ p len, P (.copyIn p len))
  (hout : ∀ p len, P (.copyOut p len))
include hexchange hclear hprobe hin hout

theorem copyFileInfoBufPre (fsFlag usLevel cbData : UInt16) (pData : Ptr) :
    Emits P (copyFileInfoBufPre env fsFlag usLevel cbData pData) := by
  have heaop (usWhat : UInt16) : Emits P (do
      let rc ← Proc.call (Stub.copyEAOP env .pre pData usWhat 0)
      Stub.returnOnError rc
      Proc.ret .NO_ERROR : Stub δ Empty) :=
    (call (copyEAOP hexchange hprobe hin hout _ _ _ _)).bind fun _ =>
      (returnOnError _).bind fun _ => ret _
  refine ite (ite (heaop _) ?_) (ite (heaop _) (ret _))
  exact (probe (hprobe _ _ _)).bind fun _ => (onlyIf (releaseAndExit hclear _)).bind fun _ =>
    (copyIn hexchange _ _ (hin _ _)).bind fun _ => ret _

theorem copyFileInfoBufPost (fsFlag usLevel cbData : UInt16) (pData : Ptr) (oError : UInt16) :
    Emits P (copyFileInfoBufPost env fsFlag usLevel cbData pData oError) := by
  have heaop (usWhat oError : UInt16) : Emits P (do
      let rc ← Proc.call (Stub.copyEAOP env .post pData usWhat oError)
      Stub.returnOnError rc
      Proc.ret .NO_ERROR : Stub δ Empty) :=
    (call (copyEAOP hexchange hprobe hin hout _ _ _ _)).bind fun _ =>
      (returnOnError _).bind fun _ => ret _
  refine ite (ite (heaop _ _) (ret _)) (ite (heaop _ _) (ite (heaop _ _) ?_))
  exact (probe (hprobe _ _ _)).bind fun _ => (onlyIf (releaseAndExit hclear _)).bind fun _ =>
    (copyOut hexchange _ _ (hout _ _)).bind fun _ => ret _

end Info

end Emits

/-! ### The request that is handed over -/

/-- The event does not hand a request over. -/
def IsLocal : StubEvent → Prop
  | .clearRqAvail _ _ => False
  | _ => True

/-- A call of the frame hands over what `fill` has made of the exchange buffers, when it gets the
lock, `fill` succeeds and the daemon can be signalled. -/
def HandsOnly (env : StubEnv δ) (filled : Prop) (q : Request) (m : Memory)
    (trace : List StubEvent) : Prop :=
  ∀ q' m', .clearRqAvail q' m' ∈ trace ↔
    (q' = q ∧ m' = m) ∧ Acquires env ∧ filled ∧ HandsOver env .request

/-- The event hands over no request of this kind. -/
def IsForeign (own : Request → Prop) : StubEvent → Prop
  | .clearRqAvail q _ => ¬ own q
  | _ => True

theorem IsInner.isForeign {own : Request → Prop} {e : StubEvent} (he : IsInner e) :
    IsForeign own e := by
  cases e <;> first | exact he.elim | trivial

theorem IsLocal.isForeign {own : Request → Prop} {e : StubEvent} (he : IsLocal e) :
    IsForeign own e := by
  cases e <;> first | exact he.elim | trivial

/-- Of the requests of a kind a call hands over only the one. -/
def HandsOwn (own : Request → Prop) (env : StubEnv δ) (filled : Prop) (q : Request) (m : Memory)
    (trace : List StubEvent) : Prop :=
  ∀ q' m', own q' → (.clearRqAvail q' m' ∈ trace ↔
    (q' = q ∧ m' = m) ∧ Acquires env ∧ filled ∧ HandsOver env .request)

theorem handsOnly_iff {filled : Prop} {q : Request} {m : Memory} {trace : List StubEvent} :
    HandsOnly env filled q m trace ↔ HandsOwn (fun _ => True) env filled q m trace :=
  ⟨fun h q' m' _ => h q' m', fun h q' m' => h q' m' trivial⟩

section Exchange

variable {s : StubState δ} {q : Request} {m : Memory} {filled : Prop} {own : Request → Prop}

theorem handsOwn_of_prepared {t : StubState δ} {q' : Request} {m' : Memory}
    (h : Prepared s q' m' t) (hs : s.trace = [])
    (hnot : ¬ (Acquires env ∧ filled ∧ HandsOver env .request)) :
    HandsOwn own env filled q m t.trace := by
  obtain ⟨es, htrace, hes⟩ := h.events
  rw [htrace, hs, List.append_nil]
  exact fun _ _ _ => iff_of_false (fun hmem => hes _ hmem) fun h => hnot h.2

/-- Behind the signal only other requests are handed over. -/
theorem handsOwn_of_afterSignal {t : StubState δ} (h : AfterSignal env .request s q m t)
    (hs : s.trace = []) (hacquire : Acquires env) (hfilled : filled) {es : List StubEvent}
    (hes : ∀ e ∈ es, IsForeign own e) : HandsOwn own env filled q m (es ++ t.trace) := by
  obtain ⟨es', htrace, hes', hhands⟩ := h.events
  rw [hs, List.append_nil] at htrace
  rw [htrace]
  intro q' m' hown
  constructor
  · intro hmem
    have hmem := (List.mem_append.mp hmem).resolve_left fun he => hes _ he hown
    obtain ⟨rfl, rfl⟩ := StubEvent.clearRqAvail.inj ((hes' _ hmem).resolve_left id)
    exact ⟨⟨rfl, rfl⟩, hacquire, hfilled, hhands.mp hmem⟩
  · rintro ⟨⟨rfl, rfl⟩, -, -, hands⟩
    exact List.mem_append_right _ (hhands.mpr hands)

theorem exchange_handsOnly {fill : Stub δ Unit} {finish : Stub δ ApiRet} (hs : s.trace = [])
    (hfill : Triple (Prepared s s.pRequest s.pFSData) fill (fun _ t => filled ∧ Prepared s q m t)
      (fun _ t => ¬ filled ∧ ∃ q m, Prepared s q m t))
    (hfinish : Emits IsLocal finish) :
    Ends (exchange env fill finish) (fun _ _ => False) (fun _ t => HandsOnly env filled q m t.trace)
      s := by
  refine @exchange_ends_of _ env s q m _ _ filled _ ?_ ?_ ?_ ?_
  · intro hacquire t ht
    exact handsOnly_iff.mpr (handsOwn_of_prepared ht hs fun h =>
      hacquire (acquireCode_eq_noError_iff.mpr h.1))
  · intro _
    refine hfill.consequence (fun _ h => h) (fun _ _ h => h) ?_
    rintro rc t ⟨hnot, q', m', ht⟩
    exact handsOnly_iff.mpr (handsOwn_of_prepared ht hs fun h => hnot h.2.1)
  · intro hacquire hfilled _ t ht
    exact handsOnly_iff.mpr (handsOwn_of_afterSignal ht hs
      (acquireCode_eq_noError_iff.mp hacquire) hfilled (List.forall_mem_nil _))
  · intro hacquire hfilled _ t ht
    have hacquire := acquireCode_eq_noError_iff.mp hacquire
    refine (hfinish.triple t.trace t ⟨[], rfl, List.forall_mem_nil _⟩).mono ?_ ?_
    · rintro rc u ⟨es, htrace, hes⟩
      show HandsOnly env filled q m (.clearSerialize :: u.trace)
      rw [htrace, ← List.cons_append, handsOnly_iff]
      exact handsOwn_of_afterSignal ht hs hacquire hfilled
        (List.forall_mem_cons.mpr ⟨trivial, fun e he => (hes e he).isForeign⟩)
    · rintro rc u ⟨es, htrace, hes⟩
      rw [htrace, handsOnly_iff]
      exact handsOwn_of_afterSignal ht hs hacquire hfilled fun e he => (hes e he).isForeign

/-! ### The information that is set or asked for -/

/-- The data buffer `m` behind `copyFileInfoBufPre`. -/
def infoBuffer (env : StubEnv δ) (caller : Memory) (fsFlag usLevel cbData : UInt16) (pData : Ptr)
    (m : Memory) : Memory :=
  if infoError env caller fsFlag usLevel pData = .NO_ERROR then
    m.blit 0 (infoIn caller fsFlag usLevel cbData pData)
  else m

/-- An entry point that drops what `copyFileInfoBufPre` returns. -/
theorem infoPre_prepared (fsFlag usLevel cbData : UInt16) (pData : Ptr)
    {R : ApiRet → StubState δ → Prop} :
    Triple (Prepared s q m) (do
      let _ ← call (copyFileInfoBufPre env fsFlag usLevel cbData pData) : Stub δ Unit)
      (fun _ => Prepared s q (infoBuffer env s.caller fsFlag usLevel cbData pData m)) R := by
  refine (Triple.call (copyFileInfoBufPre_prepared fsFlag usLevel cbData pData)).bind fun rc =>
    Triple.given ?_
  rintro rfl
  exact Triple.pure fun _ h => h

/-! ### The FEA list of a new file or directory -/

/-- What the FEA list of an `FS_OPENCREATE` or `FS_MKDIR` comes to. -/
def feasError (env : StubEnv δ) (caller : Memory) : Option Ptr → ApiRet
  | some pEABuf => feaListError env caller pEABuf
  | none => .NO_ERROR

/-- The bytes of it that are copied to the data buffer. -/
def feasIn (caller : Memory) : Option Ptr → List UInt8
  | some pEABuf => listIn caller (caller.le32 (pEABuf + 4))
  | none => []

/-- The copy of an FEA list, whose failure releases the buffers. -/
theorem feasPre_prepared (pEABuf : Ptr) :
    Triple (Prepared s q m) (do
      let rc ← call (copyEAOP env .pre pEABuf CEA_FEAS_TO_BUF 0)
      releaseOnError env rc rc
      setRequest fun r => { r with fHasEAs := true } : Stub δ Unit)
      (fun _ t => feasError env s.caller (some pEABuf) = .NO_ERROR ∧
        Prepared s { q with fHasEAs := true } (m.blit 0 (feasIn s.caller (some pEABuf))) t)
      (fun rc t => feasError env s.caller (some pEABuf) ≠ .NO_ERROR ∧
        rc = exitCode env (feasError env s.caller (some pEABuf)) ∧ ∃ q m, Prepared s q m t) := by
  refine (Triple.call (copyEAOP_feas_prepared pEABuf)).bind fun rc => Triple.given ?_
  rintro rfl
  by_cases hrc : feaListError env s.caller pEABuf = .NO_ERROR
  · rw [releaseOnError_of_ok hrc, if_pos hrc]
    exact Triple.bind (Q := fun _ => Prepared s q (m.blit 0 (feasIn s.caller (some pEABuf))))
      (Triple.pure fun _ h => h) fun _ => (setRequest_prepared _).consequence (fun _ h => h)
        (fun _ _ h => ⟨hrc, h⟩) fun _ _ h => h
  · rw [releaseOnError_of_error hrc, if_neg hrc]
    refine Triple.bind (Q := fun _ _ => False) ((releaseAndExit_prepared _).consequence
      (fun _ h => h) (fun _ _ h => h) ?_) fun _ _ h => h.elim
    rintro rc t ⟨rfl, h⟩
    exact ⟨hrc, rfl, _, _, h⟩

/-- The copy of the FEA list, if there is one. -/
def copyFeas (env : StubEnv δ) : Option Ptr → Stub δ Unit
  | some pEABuf => do
    let rc ← call (copyEAOP env .pre pEABuf CEA_FEAS_TO_BUF 0)
    releaseOnError env rc rc
    setRequest fun r => { r with fHasEAs := true }
  | none => setRequest fun r => { r with fHasEAs := false }

theorem copyFeas_prepared (pEABuf : Option Ptr) :
    Triple (Prepared s q m) (copyFeas env pEABuf)
      (fun _ t => feasError env s.caller pEABuf = .NO_ERROR ∧
        Prepared s { q with fHasEAs := pEABuf.isSome } (m.blit 0 (feasIn s.caller pEABuf)) t)
      (fun rc t => feasError env s.caller pEABuf ≠ .NO_ERROR ∧
        rc = exitCode env (feasError env s.caller pEABuf) ∧ ∃ q m, Prepared s q m t) := by
  cases pEABuf with
  | some pEABuf => exact feasPre_prepared pEABuf
  | none =>
    rw [copyFeas]
    refine (setRequest_prepared _).consequence (fun _ h => h) (fun _ t h => ⟨rfl, ?_⟩)
      fun _ _ h => h
    rw [feasIn, Memory.blit_nil]
    exact h

end Exchange

end Stub

end Isofs
