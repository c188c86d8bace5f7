import Isofs.Daemon.Opens
import Isofs.Stub.Connection
import Isofs.Stub.Exclusion
import Isofs.Stub.HandOver

/-!
# The handles of open files

`FS_OPENCREATE` stores the pointer that the daemon has allocated in the `sffsd` of the file only
when the type of the file is `STYPE_FILE`, and the daemon keeps the bit `STYPE_FCB` of the type that
it got. The calls that follow pass on what the `sffsd` holds.
-/

namespace Isofs

namespace Stub

open Proc

/-! ### The files of the kernel -/

/-- What `psffsi` and `psffsd` of an open file point to. -/
structure OpenFile where
  sffsi : Sffsi
  sffsd : Ptr

/-- What an event stores there. -/
def OpenFile.store (f : OpenFile) : StubEvent → OpenFile
  | .store (.sffsi sffsi) => { f with sffsi := sffsi }
  | .store (.sffsd pOpenFileData) => { f with sffsd := pOpenFileData }
  | _ => f

/-- The file after a call with this trace, whose newest event comes first. -/
def OpenFile.after (f : OpenFile) (trace : List StubEvent) : OpenFile :=
  trace.foldr (fun e f => f.store e) f

/-- The event stores no handle. -/
def KeepsHandle : StubEvent → Prop
  | .store (.sffsd _) => False
  | _ => True

theorem OpenFile.sffsd_store (f : OpenFile) {e : StubEvent} (he : KeepsHandle e) :
    (f.store e).sffsd = f.sffsd := by
  cases e with
  | store output => cases output <;> first | exact he.elim | rfl
  | _ => rfl

/-- A call that stores no handle. -/
theorem OpenFile.sffsd_after (f : OpenFile) {trace : List StubEvent}
    (h : ∀ e ∈ trace, KeepsHandle e) : (f.after trace).sffsd = f.sffsd := by
  induction trace with
  | nil => rfl
  | cons e trace ih =>
    obtain ⟨he, htrace⟩ := List.forall_mem_cons.mp h
    exact ((f.after trace).sffsd_store he).trans (ih htrace)

/-! ### Later calls -/

/-- A call on an open file. -/
inductive FileCall where
  | read (pData : Ptr) (pcbLen fsIOFlag : UInt16)
  | chgFilePtr (ibOffset : ℤ) (usType fsIOFlag : UInt16)
  | fileInfo (fsFlag usLevel : UInt16) (pData : Ptr) (cbData fsIOFlag : UInt16)
  | close (usType fsIOFlag : UInt16)

namespace FileCall

variable {δ : Type} {env : StubEnv δ} {f : OpenFile}

/-- The body of the entry point called. -/
def body (env : StubEnv δ) (f : OpenFile) : FileCall → Stub δ Empty
  | read pData pcbLen fsIOFlag => Stub.fsRead env f.sffsi f.sffsd pData pcbLen fsIOFlag
  | chgFilePtr ibOffset usType fsIOFlag =>
    Stub.fsChgFilePtr env f.sffsi f.sffsd ibOffset usType fsIOFlag
  | fileInfo fsFlag usLevel pData cbData fsIOFlag =>
    Stub.fsFileInfo env fsFlag f.sffsi f.sffsd usLevel pData cbData fsIOFlag
  | close usType fsIOFlag => Stub.fsClose env usType fsIOFlag f.sffsi f.sffsd

/-- The code of its request. -/
def rq : FileCall → RequestCode
  | read .. => .FSRQ_READ
  | chgFilePtr .. => .FSRQ_CHGFILEPTR
  | fileInfo .. => .FSRQ_FILEINFO
  | close .. => .FSRQ_CLOSE

/-- The call closes the file for good. -/
def IsFinalClose : FileCall → Prop
  | close usType _ => usType = FS_CL_FORSYS
  | _ => False

/-- The request is one of the call on the file. -/
structure Requests (c : FileCall) (f : OpenFile) (q : Request) : Prop where
  rq : q.rq = c.rq
  handle : q.pOpenFileData = f.sffsd
  final : c.IsFinalClose → q.usType = FS_CL_FORSYS

/-- What the call makes of the request buffer. -/
def request (env : StubEnv δ) (f : OpenFile) : FileCall → Request → Request
  | read _ pcbLen fsIOFlag, r =>
    { fileRequest env .FSRQ_READ f.sffsi f.sffsd r with
      cbLen := pcbLen.toUInt32, fsIOFlag := fsIOFlag }
  | chgFilePtr ibOffset usType fsIOFlag, r =>
    { fileRequest env .FSRQ_CHGFILEPTR f.sffsi f.sffsd r with
      ibOffset := ibOffset, usType := usType, fsIOFlag := fsIOFlag }
  | fileInfo fsFlag usLevel _ cbData fsIOFlag, r =>
    { fileRequest env .FSRQ_FILEINFO f.sffsi f.sffsd r with
      fsFlag := fsFlag, usLevel := usLevel, cbData := cbData, fsIOFlag := fsIOFlag }
  | close usType fsIOFlag, r =>
    { fileRequest env .FSRQ_CLOSE f.sffsi f.sffsd r with usType := usType, fsIOFlag := fsIOFlag }

/-- What it does to the data buffer. -/
def copyData (env : StubEnv δ) : FileCall → Stub δ Unit
  | fileInfo fsFlag usLevel pData cbData _ => do
    let _ ← call (copyFileInfoBufPre env fsFlag usLevel cbData pData)
  | _ => pure ()

/-- The statements behind the work of the daemon. -/
def finish (env : StubEnv δ) : FileCall → Stub δ ApiRet
  | read pData _ _ => do
    returnSffsi
    let cbLen ← getRequest fun r => r.cbLen.toUInt16
    store (.cbLen cbLen)
    onlyIf (cbLen ≠ 0) do
      probeOrRelease env .dataWrite pData cbLen
      copyOut pData cbLen
    requestRc
  | fileInfo fsFlag usLevel pData cbData _ => do
    returnSffsi
    let oError ← getRequest (·.oError)
    let rc2 ← call (copyFileInfoBufPost env fsFlag usLevel cbData pData oError)
    let rc ← requestRc
    return if rc ≠ .NO_ERROR then rc else rc2
  | _ => do
    returnSffsi
    requestRc

theorem body_eq (c : FileCall) :
    c.body env f = exchange env (setRequest (c.request env f) >>= fun _ => c.copyData env)
      (c.finish env) := by
  cases c <;> rfl

/-- The request is filled in with the handle of the file. -/
theorem request_requests (c : FileCall) (r : Request) : c.Requests f (c.request env f r) := by
  cases c with
  | close usType fsIOFlag => exact ⟨rfl, rfl, id⟩
  | _ => exact ⟨rfl, rfl, False.elim⟩

theorem copyData_prepared (c : FileCall) {s : StubState δ} {q : Request} {m : Memory} :
    ∃ m', Triple (Prepared s q m) (c.copyData env) (fun _ t => True ∧ Prepared s q m' t)
      (fun _ t => ¬ True ∧ ∃ q m, Prepared s q m t) := by
  cases c with
  | fileInfo fsFlag usLevel pData cbData fsIOFlag =>
    exact ⟨_, (infoPre_prepared _ _ _ _).consequence (fun _ h => h) (fun _ _ h => ⟨trivial, h⟩)
      fun _ _ h => h⟩
  | _ => exact ⟨m, Triple.pure fun _ h => ⟨trivial, h⟩⟩

/-- Behind the work of the daemon no handle is stored and nothing is handed over. -/
theorem finish_emits (c : FileCall) :
    Emits (fun e => KeepsHandle e ∧ IsLocal e) (c.finish env) := by
  have hsffsi : Emits (fun e => KeepsHandle e ∧ IsLocal e) (returnSffsi : Stub δ Unit) :=
    (Emits.getRequest ⟨trivial, trivial⟩ _).bind fun _ => Emits.log ⟨trivial, trivial⟩
  have hrc : Emits (fun e => KeepsHandle e ∧ IsLocal e) (requestRc : Stub δ ApiRet) :=
    Emits.getRequest ⟨trivial, trivial⟩ _
  cases c with
  | read pData pcbLen fsIOFlag =>
    refine hsffsi.bind fun _ => (Emits.getRequest ⟨trivial, trivial⟩ _).bind fun _ =>
      (Emits.log ⟨trivial, trivial⟩).bind fun _ => (Emits.onlyIf ?_).bind fun _ => hrc
    refine Emits.bind ?_ fun _ => Emits.copyOut ⟨trivial, trivial⟩ _ _ ⟨trivial, trivial⟩
    exact (Emits.probe ⟨trivial, trivial⟩).bind fun _ =>
      Emits.onlyIf (Emits.releaseAndExit ⟨trivial, trivial⟩ _)
  | chgFilePtr ibOffset usType fsIOFlag => exact hsffsi.bind fun _ => hrc
  | fileInfo fsFlag usLevel pData cbData fsIOFlag =>
    refine hsffsi.bind fun _ => (Emits.getRequest ⟨trivial, trivial⟩ _).bind fun _ =>
      (Emits.call ?_).bind fun _ => hrc.bind fun _ => Emits.pure _
    exact Emits.copyFileInfoBufPost ⟨trivial, trivial⟩ ⟨trivial, trivial⟩
      (fun _ _ _ => ⟨trivial, trivial⟩) (fun _ _ => ⟨trivial, trivial⟩)
      (fun _ _ => ⟨trivial, trivial⟩) _ _ _ _ _
  | close usType fsIOFlag => exact hsffsi.bind fun _ => hrc

theorem copyData_emits (c : FileCall) : Emits KeepsHandle (c.copyData env) := by
  cases c with
  | fileInfo fsFlag usLevel pData cbData fsIOFlag =>
    exact (Emits.call (Emits.copyFileInfoBufPre trivial trivial (fun _ _ _ => trivial)
      (fun _ _ => trivial) (fun _ _ => trivial) _ _ _ _)).bind fun _ => Emits.pure _
  | _ => exact Emits.pure _

end FileCall

/-- A call on a file with what it meets. The driver and the daemon may have done anything since the
call before. -/
structure Use where
  link : Link
  call : FileCall
  start : StubState Daemon.State

/-- What the call does on the file. -/
def Use.trace (u : Use) (f : OpenFile) : List StubEvent :=
  callTrace (u.call.body u.link.stub f) u.start

/-- The file after calls on it. -/
def OpenFile.afterUses (f : OpenFile) : List Use → OpenFile
  | [] => f
  | u :: us => (f.after (u.trace f)).afterUses us

theorem Use.keepsHandle (u : Use) (f : OpenFile) : ∀ e ∈ u.trace f, KeepsHandle e := by
  have hemits : Emits KeepsHandle (u.call.body u.link.stub f) := by
    rw [u.call.body_eq]
    exact Emits.exchange trivial trivial trivial trivial (fun _ _ => trivial) trivial
      ((Emits.setRequest trivial _).bind fun _ => u.call.copyData_emits)
      (u.call.finish_emits.mono fun _ h => h.1)
  exact hemits.callTrace u.start

/-- A use hands over one request, on the handle of the file. -/
theorem Use.handsOnly (u : Use) (f : OpenFile) :
    ∃ q m, u.call.Requests f q ∧ HandsOnly u.link.stub True q m (u.trace f) := by
  obtain ⟨m, hcopy⟩ := @FileCall.copyData_prepared _ u.link.stub u.call
    { u.start with trace := [] } (u.call.request u.link.stub f u.start.pRequest) u.start.pFSData
  refine ⟨u.call.request u.link.stub f u.start.pRequest, m, u.call.request_requests _, ?_⟩
  refine callTrace_of_ends (R := HandsOnly u.link.stub True _ m) ?_
  rw [u.call.body_eq]
  exact exchange_handsOnly rfl ((setRequest_prepared _).bind fun _ => hcopy)
    (u.call.finish_emits.mono fun _ h => h.2)

/-- Calls on a file do not change its handle. -/
theorem OpenFile.sffsd_afterUses (f : OpenFile) (us : List Use) :
    (f.afterUses us).sffsd = f.sffsd := by
  induction us generalizing f with
  | nil => rfl
  | cons u us ih => exact (ih _).trans (f.sffsd_after (u.keepsHandle f))

/-- A call that stores no handle but `p`, and that stores it. -/
theorem OpenFile.sffsd_after_of_stored (f : OpenFile) {p : Ptr} {trace : List StubEvent}
    (honly : ∀ p', .store (.sffsd p') ∈ trace → p' = p) (hstored : .store (.sffsd p) ∈ trace) :
    (f.after trace).sffsd = p := by
  induction trace with
  | nil => cases hstored
  | cons e trace ih =>
    have honly' (p' : Ptr) (h : .store (.sffsd p') ∈ trace) : p' = p :=
      honly p' (List.mem_cons_of_mem e h)
    rcases List.mem_cons.mp hstored with rfl | hmem
    · rfl
    · show ((f.after trace).store e).sffsd = p
      by_cases he : KeepsHandle e
      · exact ((f.after trace).sffsd_store he).trans (ih honly' hmem)
      · -- the newest event stores a handle, which is `p` too
        cases e with
        | store output =>
          cases output with
          | sffsd p' => exact honly p' List.mem_cons_self
          | _ => exact absurd trivial he
        | _ => exact absurd trivial he

/-! ### The open -/

/-- An `FS_OPENCREATE` with its parameters, but for the file. -/
structure OpenCall where
  cdfsi : Cdfsi
  cdfsd : Cdfsd
  pszName : List UInt8
  iCurDirEnd : UInt16
  flOpenMode : UInt32
  fsOpenFlag : UInt16
  fsAttr : UInt16
  pEABuf : Option Ptr

namespace OpenCall

variable {δ : Type} {env : StubEnv δ} {f : OpenFile} (o : OpenCall)

/-- The body of the entry point called. -/
def body (env : StubEnv δ) (f : OpenFile) : Stub δ Empty :=
  Stub.fsOpenCreate env o.cdfsi o.cdfsd o.pszName o.iCurDirEnd f.sffsi o.flOpenMode o.fsOpenFlag
    o.fsAttr o.pEABuf

/-- What the call makes of the request buffer. -/
def request (env : StubEnv δ) (f : OpenFile) (r : Request) : Request :=
  { r with
    rq := .FSRQ_OPENCREATE, pVolData := env.queryVPFSD o.cdfsi.cdiHVPB, cdfsi := o.cdfsi,
    cdfsd := o.cdfsd, szName := o.pszName, iCurDirEnd := o.iCurDirEnd, sffsi := f.sffsi,
    flOpenMode := o.flOpenMode, fsOpenFlag := o.fsOpenFlag, fsAttr := o.fsAttr,
    fHasEAs := o.pEABuf.isSome }

/-- The name and the FEA list get into the exchange buffers. -/
def Filled (env : StubEnv δ) (caller : Memory) : Prop :=
  o.pszName.length < CCHMAXPATH ∧ feasError env caller o.pEABuf = .NO_ERROR

/-- The statements that fill the exchange buffers. -/
def fill (env : StubEnv δ) (f : OpenFile) : Stub δ Unit := do
  setRequest fun r =>
    { r with
      rq := .FSRQ_OPENCREATE, pVolData := env.queryVPFSD o.cdfsi.cdiHVPB, cdfsi := o.cdfsi,
      cdfsd := o.cdfsd }
  checkString env o.pszName CCHMAXPATH
  setRequest fun r =>
    { r with
      szName := o.pszName, iCurDirEnd := o.iCurDirEnd, sffsi := f.sffsi,
      flOpenMode := o.flOpenMode, fsOpenFlag := o.fsOpenFlag, fsAttr := o.fsAttr }
  match o.pEABuf with
  | some pEABuf => do
    let rc ← call (copyEAOP env .pre pEABuf CEA_FEAS_TO_BUF 0)
    releaseOnError env rc rc
    setRequest fun r => { r with fHasEAs := true }
  | none => setRequest fun r => { r with fHasEAs := false }

/-- The statements behind the work of the daemon that follow the store of the handle. -/
def rest (env : StubEnv δ) : Stub δ ApiRet := do
  let usAction ← getRequest (·.usAction)
  store (.usAction usAction)
  let fsGenFlag ← getRequest (·.fsGenFlag)
  store (.fsGenFlag fsGenFlag)
  match o.pEABuf with
  | some pEABuf => do
    let oError ← getRequest (·.oError)
    let rc ← call (copyEAOP env .post pEABuf CEA_SET_OERROR oError)
    releaseOnError env rc rc
    requestRc
  | none => requestRc

/-- The statements behind the work of the daemon. -/
def finish (env : StubEnv δ) : Stub δ ApiRet := do
  let sffsi ← getRequest (·.sffsi)
  store (.sffsi sffsi)
  let pOpenFileData ← getRequest (·.pOpenFileData)
  onlyIf (sffsi.sfiType = STYPE_FILE) (store (.sffsd pOpenFileData))
  o.rest env

theorem body_eq : o.body env f = exchange env (o.fill env f) (o.finish env) := rfl

theorem fill_prepared {s : StubState δ} {q : Request} {m : Memory} :
    Triple (Prepared s q m) (o.fill env f)
      (fun _ t => o.Filled env s.caller ∧
        Prepared s (o.request env f q) (m.blit 0 (feasIn s.caller o.pEABuf)) t)
      (fun rc t => (¬ o.pszName.length < CCHMAXPATH ∨ feasError env s.caller o.pEABuf ≠ .NO_ERROR ∧
          rc = exitCode env (feasError env s.caller o.pEABuf)) ∧ ∃ q m, Prepared s q m t) := by
  obtain ⟨cdfsi, cdfsd, pszName, iCurDirEnd, flOpenMode, fsOpenFlag, fsAttr, pEABuf⟩ := o
  refine (setRequest_prepared _).bind fun _ => Triple.bind ((checkString_prepared _ _).consequence
    (fun _ h => h) (fun _ _ h => h) ?_) fun _ => Triple.given fun hname =>
      (setRequest_prepared _).bind fun _ => ?_
  · rintro rc t ⟨hname, -, h⟩
    exact ⟨Or.inl (Nat.not_lt.mpr hname), _, _, h⟩
  · refine (copyFeas_prepared pEABuf).consequence (fun _ h => h) (fun _ _ h => ⟨⟨hname, h.1⟩, h.2⟩)
      ?_
    rintro rc t ⟨hfeas, hrc, h⟩
    exact ⟨Or.inr ⟨hfeas, hrc⟩, h⟩

theorem not_filled {s : StubState δ} {p : Prop}
    (h : ¬ o.pszName.length < CCHMAXPATH ∨ feasError env s.caller o.pEABuf ≠ .NO_ERROR ∧ p) :
    ¬ o.Filled env s.caller := fun hfilled =>
  h.elim (fun hname => hname hfilled.1) fun hfeas => hfeas.1 hfilled.2

theorem fill_emits : Emits KeepsHandle (o.fill env f) := by
  refine (Emits.setRequest trivial _).bind fun _ => (Emits.checkString trivial _ _).bind fun _ =>
    (Emits.setRequest trivial _).bind fun _ => ?_
  split
  · exact (Emits.call (Emits.copyEAOP trivial (fun _ _ _ => trivial) (fun _ _ => trivial)
      (fun _ _ => trivial) _ _ _ _)).bind fun _ =>
        (Emits.onlyIf (Emits.releaseAndExit trivial _)).bind fun _ => Emits.setRequest trivial _
  · exact Emits.setRequest trivial _

theorem rest_emits : Emits (fun e => KeepsHandle e ∧ IsLocal e) (o.rest env) := by
  refine (Emits.getRequest ⟨trivial, trivial⟩ _).bind fun _ =>
    (Emits.log ⟨trivial, trivial⟩).bind fun _ => (Emits.getRequest ⟨trivial, trivial⟩ _).bind
      fun _ => (Emits.log ⟨trivial, trivial⟩).bind fun _ => ?_
  split
  · exact (Emits.getRequest ⟨trivial, trivial⟩ _).bind fun _ => (Emits.call (Emits.copyEAOP
      ⟨trivial, trivial⟩ (fun _ _ _ => ⟨trivial, trivial⟩) (fun _ _ => ⟨trivial, trivial⟩)
      (fun _ _ => ⟨trivial, trivial⟩) _ _ _ _)).bind fun _ =>
        (Emits.onlyIf (Emits.releaseAndExit ⟨trivial, trivial⟩ _)).bind fun _ =>
          Emits.getRequest ⟨trivial, trivial⟩ _
  · exact Emits.getRequest ⟨trivial, trivial⟩ _

theorem finish_local : Emits IsLocal (o.finish env) :=
  (Emits.getRequest trivial _).bind fun _ => (Emits.log trivial).bind fun _ =>
    (Emits.getRequest trivial _).bind fun _ => (Emits.onlyIf (Emits.log trivial)).bind fun _ =>
      o.rest_emits.mono fun _ h => h.2

/-- Since `t` exactly the handle of the request buffer was stored, and only for an `STYPE_FILE`. -/
def StoresHandle (t u : StubState δ) : Prop :=
  ∃ es, u.trace = es ++ t.trace ∧ ∀ p, .store (.sffsd p) ∈ es ↔
    p = t.pRequest.pOpenFileData ∧ t.pRequest.sffsi.sfiType = STYPE_FILE

theorem finish_stores (t : StubState δ) :
    Ends (o.finish env) (fun _ u => StoresHandle t u) (fun _ u => StoresHandle t u) t := by
  -- what follows the head `es` of the statements stores no handle
  have hrest (es : List StubEvent) {u : StubState δ} (hu : u.trace = es ++ t.trace)
      (hes : ∀ p, .store (.sffsd p) ∈ es ↔
        p = t.pRequest.pOpenFileData ∧ t.pRequest.sffsi.sfiType = STYPE_FILE) :
      Ends (o.rest env) (fun _ u => StoresHandle t u) (fun _ u => StoresHandle t u) u := by
    have hstores {v : StubState δ} (hv : ∃ es', v.trace = es' ++ u.trace ∧
        ∀ e ∈ es', KeepsHandle e ∧ IsLocal e) : StoresHandle t v := by
      obtain ⟨es', htrace, hes'⟩ := hv
      refine ⟨es' ++ es, by rw [htrace, hu, List.append_assoc], fun p => ?_⟩
      rw [List.mem_append, ← hes p]
      exact or_iff_right fun hmem => (hes' _ hmem).1
    exact (o.rest_emits.triple u.trace u ⟨[], rfl, List.forall_mem_nil _⟩).mono
      (fun _ _ h => hstores h) fun _ _ h => hstores h
  refine Ends.bind (Ends.of_ok rfl (Ends.bind (Ends.update (Ends.bind (Ends.of_ok rfl
    (Ends.bind (Ends.onlyIf (fun hfile => Ends.update ?_) fun hother => ?_)))))))
  · refine hrest [.store (.sffsd t.pRequest.pOpenFileData), .exchange,
      .store (.sffsi t.pRequest.sffsi), .exchange] rfl fun p => ?_
    simpa using fun _ => hfile
  · refine hrest [.exchange, .store (.sffsi t.pRequest.sffsi), .exchange] rfl fun p => ?_
    simpa using fun _ => hother

/-- The request buffer behind the work of the daemon. -/
def answer (env : StubEnv δ) (f : OpenFile) (s : StubState δ) : Request :=
  (env.daemon s.daemon (o.request env f s.pRequest)
    (s.pFSData.blit 0 (feasIn s.caller o.pEABuf))).2.1

/-- A call that is answered stores the handle of the answer for an `STYPE_FILE`, and no other. -/
theorem body_stores {s : StubState δ} (hs : s.trace = []) (hacquires : Acquires env)
    (hfilled : o.Filled env s.caller) (hsignalled : Signalled env) :
    Ends (o.body env f) (fun _ _ => False) (fun _ u => ∀ p, .store (.sffsd p) ∈ u.trace ↔
      p = (o.answer env f s).pOpenFileData ∧ (o.answer env f s).sffsi.sfiType = STYPE_FILE) s := by
  rw [body_eq]
  refine @exchange_ends_keeping _ env s (o.request env f s.pRequest)
    (s.pFSData.blit 0 (feasIn s.caller o.pEABuf))
    (fun t => ∃ es, t.trace = es ++ s.trace ∧ ∀ e ∈ es, KeepsHandle e) _ _
    (o.Filled env s.caller) _ ⟨[], rfl, List.forall_mem_nil _⟩ ?_ ?_ ?_ ?_ (fun _ => ?_) ?_
    fun _ _ _ => ?_
  · exact ((Emits.requestExchangeXS trivial trivial).triple _).consequence (fun _ h => h)
      (fun _ _ _ => trivial) fun _ _ h => h
  · exact (o.fill_emits.triple _).consequence (fun _ h => h) (fun _ _ h => h) fun _ _ _ => trivial
  · exact ((Emits.signalDaemonAndWait trivial trivial (fun _ _ => trivial) trivial _).triple
      _).consequence (fun _ h => h) (fun _ _ _ => trivial) fun _ _ h => h
  · exact fun h => absurd (acquireCode_eq_noError_iff.mpr hacquires) h
  · exact o.fill_prepared.consequence (fun _ h => h) (fun _ _ h => h)
      fun _ _ h => absurd hfilled (o.not_filled h.1)
  · exact fun _ _ h => absurd (signalCode_eq_noError_iff.mpr hsignalled) h
  · rintro t ⟨ht, es, htrace, hes⟩
    have hanswer : t.pRequest = o.answer env f s := by
      rw [answer, ← ht.works (signalCode_eq_noError_iff.mpr hsignalled)]
    have hstores {u : StubState δ} (hu : StoresHandle t u) (p : Ptr) :
        .store (.sffsd p) ∈ u.trace ↔ p = (o.answer env f s).pOpenFileData ∧
          (o.answer env f s).sffsi.sfiType = STYPE_FILE := by
      obtain ⟨es', htrace', hes'⟩ := hu
      rw [← hanswer, ← hes' p, htrace', htrace, hs, List.append_nil, List.mem_append]
      exact or_iff_left fun hmem => hes _ hmem
    refine (o.finish_stores t).mono (fun rc u hu p => ?_) fun rc u hu p => hstores hu p
    rw [← hstores hu p]
    exact List.mem_cons.trans (or_iff_right nofun)

/-- What the open does on the file. -/
def trace (l : Link) (f : OpenFile) (s : StubState Daemon.State) : List StubEvent :=
  callTrace (o.body l.stub f) s

/-- The open is handed over, its handler ends with `NO_ERROR` in the daemon `d`, and the driver gets
the answer. -/
def Opens (l : Link) (f : OpenFile) (s : StubState Daemon.State) (d : Daemon.State) : Prop :=
  Signalled l.stub ∧ ∃ q m, .clearRqAvail q m ∈ o.trace l f s ∧
    l.handle s.daemon q m = (.ret .NO_ERROR, d)

/-- The kernel keeps the handle of the open from which the daemon `d` comes, over all calls on the
file. -/
structure KeepsOpenHandle (l : Link) (f : OpenFile) (s : StubState Daemon.State)
    (d : Daemon.State) : Prop where
  created : s.daemon.openFiles.objects d.request.pOpenFileData = none ∧
    Daemon.Live d.openFiles.objects d.request.pOpenFileData
  stored : .store (.sffsd d.request.pOpenFileData) ∈ o.trace l f s
  reaches : ∀ us (u : Use), Acquires u.link.stub → HandsOver u.link.stub .request →
    ∃ q m, .clearRqAvail q m ∈ u.trace ((f.after (o.trace l f s)).afterUses us)
  used : ∀ us (u : Use) q m,
    .clearRqAvail q m ∈ u.trace ((f.after (o.trace l f s)).afterUses us) →
    q.rq = u.call.rq ∧ q.pOpenFileData = d.request.pOpenFileData
  released : ∀ us (u : Use) q m, u.call.IsFinalClose →
    .clearRqAvail q m ∈ u.trace ((f.after (o.trace l f s)).afterUses us) →
    (∃ n, u.start.daemon.core.openFiles d.request.pOpenFileData = some n ∧
      Daemon.Live u.start.daemon.core.isoDirEntries n) →
    Daemon.Live u.start.daemon.core.volumes q.pVolData →
    ∃ d', u.link.handle u.start.daemon q m = (.ret .NO_ERROR, d') ∧
      Daemon.Applies u.start.daemon.core d'.core (.close q.pVolData d.request.pOpenFileData)

/-- The one request that the open hands over. -/
theorem handsOnly (l : Link) (f : OpenFile) (s : StubState Daemon.State) :
    HandsOnly l.stub (o.Filled l.stub s.caller) (o.request l.stub f s.pRequest)
      (s.pFSData.blit 0 (feasIn s.caller o.pEABuf)) (o.trace l f s) := by
  refine callTrace_of_ends (R := HandsOnly l.stub (o.Filled l.stub s.caller) _ _) ?_
  exact exchange_handsOnly rfl (o.fill_prepared.consequence (fun _ h => h) (fun _ _ h => h)
    fun _ _ h => ⟨o.not_filled h.1, h.2⟩) o.finish_local

section Opened

variable {o} {l : Link} {s : StubState Daemon.State} {d : Daemon.State}

theorem Opens.opened (h : o.Opens l f s d) :
    s.daemon.openFiles.objects d.request.pOpenFileData = none ∧
      Daemon.Live d.openFiles.objects d.request.pOpenFileData ∧
      d.request.sffsi.sfiType = (f.sffsi.sfiType &&& STYPE_FCB) ||| STYPE_FILE := by
  obtain ⟨-, q, m, hmem, hhandle⟩ := h
  obtain ⟨⟨rfl, -⟩, -⟩ := (o.handsOnly l f s q m).mp hmem
  rw [@Link.handle_of_callOf l .openCreate _ rfl] at hhandle
  have hopened := Ends.run (@Daemon.fsOpenCreate_opened l.daemonEnv
    { s.daemon with request := o.request l.stub f s.pRequest, pData := m })
  have hserve : (Daemon.fsOpenCreate l.daemonEnv).run
      { s.daemon with request := o.request l.stub f s.pRequest, pData := m } =
      (.ret .NO_ERROR, d) := hhandle
  rw [hserve] at hopened
  obtain ⟨hfresh, hlive, htype⟩ := hopened rfl
  exact ⟨hfresh, hlive, htype⟩

/-- The handles that the open stores. -/
theorem Opens.stores_iff (h : o.Opens l f s d) (p : Ptr) :
    .store (.sffsd p) ∈ o.trace l f s ↔
      p = d.request.pOpenFileData ∧ f.sffsi.sfiType &&& STYPE_FCB = 0 := by
  have htype := h.opened.2.2
  obtain ⟨hsignalled, q, m, hmem, hhandle⟩ := h
  obtain ⟨⟨rfl, rfl⟩, hacquires, hfilled, -⟩ := (o.handsOnly l f s q m).mp hmem
  have hanswer : o.answer l.stub f s = Link.reply (.ret .NO_ERROR) d.request := by
    rw [answer, Link.stub_daemon, hhandle]
  have hfile : d.request.sffsi.sfiType = STYPE_FILE ↔ f.sffsi.sfiType &&& STYPE_FCB = 0 := by
    rw [htype, show STYPE_FILE = 0 from rfl, UInt16.or_zero]
  have hstores := callTrace_of_ends (R := fun trace => ∀ p, .store (.sffsd p) ∈ trace ↔
    p = (o.answer l.stub f s).pOpenFileData ∧ (o.answer l.stub f s).sffsi.sfiType = STYPE_FILE)
    (o.body_stores (s := { s with trace := [] }) rfl hacquires hfilled hsignalled)
  rw [hanswer] at hstores
  exact (hstores p).trans (and_congr_right fun _ => hfile)

/-- The handle of an open that succeeds is kept exactly when the caller's type of file does not have
the bit `STYPE_FCB`. -/
theorem open_handle_kept_iff (h : o.Opens l f s d) :
    o.KeepsOpenHandle l f s d ↔ f.sffsi.sfiType &&& STYPE_FCB = 0 := by
  refine ⟨fun hkeeps => ((h.stores_iff _).mp hkeeps.stored).2, fun htype => ?_⟩
  have hstored : .store (.sffsd d.request.pOpenFileData) ∈ o.trace l f s :=
    (h.stores_iff _).mpr ⟨rfl, htype⟩
  have hfile (us : List Use) :
      ((f.after (o.trace l f s)).afterUses us).sffsd = d.request.pOpenFileData := by
    rw [OpenFile.sffsd_afterUses]
    exact f.sffsd_after_of_stored (fun p hp => ((h.stores_iff p).mp hp).1) hstored
  refine ⟨⟨h.opened.1, h.opened.2.1⟩, hstored, ?_, ?_, ?_⟩
  · intro us u hacquires hhands
    obtain ⟨q, m, -, honly⟩ := u.handsOnly ((f.after (o.trace l f s)).afterUses us)
    exact ⟨q, m, (honly q m).mpr ⟨⟨rfl, rfl⟩, hacquires, trivial, hhands⟩⟩
  · intro us u q m hmem
    obtain ⟨q', m', hrequests, honly⟩ := u.handsOnly ((f.after (o.trace l f s)).afterUses us)
    obtain ⟨⟨rfl, -⟩, -⟩ := (honly q m).mp hmem
    exact ⟨hrequests.rq, hrequests.handle.trans (hfile us)⟩
  -- the final close frees the object of the open
  · intro us u q m hclose hmem hobject hvolume
    obtain ⟨q', m', hrequests, honly⟩ := u.handsOnly ((f.after (o.trace l f s)).afterUses us)
    obtain ⟨⟨rfl, -⟩, -⟩ := (honly q m).mp hmem
    have hhandle := hrequests.handle.trans (hfile us)
    have hfinal := hrequests.final hclose
    have hrq : q.rq = .FSRQ_CLOSE := by
      rw [hrequests.rq]
      cases hcall : u.call with
      | close usType fsIOFlag => rfl
      | _ => rw [hcall] at hclose; exact hclose.elim
    rw [← hhandle] at hobject ⊢
    rw [@Link.handle_of_callOf u.link .close _ (by rw [hrq]; rfl)]
    exact Daemon.serve_close hfinal hobject hvolume

end Opened

end OpenCall

/-! ### The file of an image -/

/-- The driver of a running system, whose daemon has the image attached as its first volume. -/
def jolietLink : Link where
  env :=
    { quietEnv fun _ => .NO_ERROR with
      queryVPFSD := fun _ => 1
      daemon := fun d q m => (d, q, m) }
  daemonEnv := Daemon.jolietRequestEnv
  others _ := Daemon.done .ERROR_NOT_SUPPORTED

/-- The file `A` is opened. -/
def openA : OpenCall where
  cdfsi := default
  cdfsd := []
  pszName := [0x45, 0x3a, 0x2f, 0x41]
  iCurDirEnd := 0
  flOpenMode := 0
  fsOpenFlag := OPEN_ACTION_OPEN_IF_EXISTS
  fsAttr := 0
  pEABuf := none

/-- The driver before its first request, with the daemon `d`. -/
def startWith (d : Daemon.State) : StubState Daemon.State :=
  ⟨default, Memory.zeros, Memory.zeros, d, []⟩

theorem openA_opens {d : Daemon.State} {node : VolNode} (hnode : d.core.volumes 1 = some node)
    (hvol : node.vol.toVolData = jolietVolume) (f : OpenFile) :
    ∃ d', openA.Opens jolietLink f (startWith d) d' := by
  have hwalk := isoQueryIsoEntryFromPath_jolietVolume
  rw [← hvol] at hwalk
  have hlevel : node.vol.ucsLevel ≤ 3 := by
    rw [hvol]
    exact Nat.le_refl 3
  have hreads : Daemon.OpensForReading (openA.request jolietLink.stub f default)
      (loopEntry .S_IFREG 0x41 (by decide)) :=
    ⟨(by decide : Daemon.badPath openA.pszName = false),
      (by decide : openA.fsOpenFlag &&& 0x000f = OPEN_ACTION_OPEN_IF_EXISTS),
      (by decide : openA.flOpenMode &&& OPEN_FLAGS_DASD = 0),
      (by decide : (openA.flOpenMode &&& OPEN_ACCESS_WRITEONLY) |||
        (openA.flOpenMode &&& OPEN_ACCESS_READWRITE) = 0), by decide, by decide⟩
  obtain ⟨q, hq⟩ : ∃ q, q = openA.request jolietLink.stub f default := ⟨_, rfl⟩
  obtain ⟨m, hm⟩ : ∃ m, m = Memory.zeros.blit 0 (feasIn Memory.zeros none) := ⟨_, rfl⟩
  have hserve : (Daemon.serve d ⟨.openCreate, q, m, Daemon.jolietRequestEnv⟩).1 =
      .ret .NO_ERROR := by
    rw [hq]
    exact Ends.run (@Daemon.fsOpenCreate_of_file Daemon.jolietRequestEnv
      { d with request := openA.request jolietLink.stub f default, pData := m } node _ _ rfl hnode
      hlevel hwalk rfl hreads)
  have hmem : .clearRqAvail q m ∈ openA.trace jolietLink f (startWith d) :=
    (openA.handsOnly _ _ _ q m).mpr
      ⟨⟨hq, hm⟩, ⟨rfl, rfl, rfl, rfl⟩, ⟨by decide, rfl⟩, rfl, rfl⟩
  have hrq : Daemon.callOf q.rq = some .openCreate := by
    rw [hq]
    rfl
  refine ⟨(Daemon.serve d ⟨.openCreate, q, m, Daemon.jolietRequestEnv⟩).2,
    ⟨rfl, rfl, rfl, rfl⟩, q, m, hmem, ?_⟩
  rw [Link.handle_of_callOf jolietLink hrq]
  exact Prod.ext hserve rfl

/-- The handle of a file of type `STYPE_FILE` is kept. -/
theorem open_handle_kept_sample : ∃ s d, openA.Opens jolietLink ⟨default, 0⟩ s d ∧
    openA.KeepsOpenHandle jolietLink ⟨default, 0⟩ s d := by
  obtain ⟨sys, node, -, -, hnode, hvol⟩ := Daemon.next_attachRequest
  obtain ⟨d, hopens⟩ := openA_opens hnode hvol ⟨default, 0⟩
  exact ⟨_, d, hopens, (OpenCall.open_handle_kept_iff hopens).mpr (by decide)⟩

/-- The handle of a file that is opened through an FCB is lost. -/
theorem fcb_handle_lost : ¬ ∀ (l : Link) (o : OpenCall) (f : OpenFile)
    (s : StubState Daemon.State) (d : Daemon.State), o.Opens l f s d →
      o.KeepsOpenHandle l f s d := by
  intro h
  obtain ⟨sys, node, -, -, hnode, hvol⟩ := Daemon.next_attachRequest
  obtain ⟨d, hopens⟩ := openA_opens hnode hvol ⟨{ (default : Sffsi) with sfiType := STYPE_FCB }, 0⟩
  have hstored := ((hopens.stores_iff _).mp (h _ _ _ _ d hopens).stored).2
  exact absurd hstored (by decide)

end Stub

end Isofs
