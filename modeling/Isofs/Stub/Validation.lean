import Isofs.Stub.FindBuffers
import Isofs.Stub.OpenHandles

/-!
# Input that fails its checks

Seven entry points copy a list or a buffer of their caller to the data buffer before they signal
the daemon. Five of them return when the copy fails. `FS_FILEINFO` and `FS_PATHINFO` signal the
daemon all the same.
-/

namespace Isofs

namespace Stub

open Proc

variable {δ : Type} {env : StubEnv δ}

/-! ### The entry points with input -/

/-- The request is not the close of a search that `FS_FINDFIRST` gives up. -/
def IsOwn (q : Request) : Prop := q.rq ≠ .FSRQ_FINDCLOSE

/-- An entry point that copies input of its caller to the data buffer: what the copy comes to,
whether the entry point goes on when it fails and what it returns if not, and the GEA list of a
level 3 query. -/
structure InputEntry (env : StubEnv δ) where
  nameFits : Prop
  error : Memory → ApiRet
  goesOn : Prop
  returned : ApiRet → ApiRet
  geaList : Memory → Option Ptr
  request : Request → Request
  buffer : Memory → Memory → Memory
  fill : Stub δ Unit
  finish : Stub δ ApiRet
  own : ∀ r, IsOwn (request r)
  fills : ∀ s, Triple (Prepared s s.pRequest s.pFSData) fill
    (fun _ t => (nameFits ∧ (goesOn ∨ error s.caller = .NO_ERROR)) ∧
      Prepared s (request s.pRequest) (buffer s.caller s.pFSData) t)
    (fun rc t => (¬ nameFits ∨
        ¬ goesOn ∧ error s.caller ≠ .NO_ERROR ∧ rc = returned (error s.caller)) ∧
      ∃ q m, Prepared s q m t)
  finishes : Emits (IsForeign IsOwn) finish
  lists : ∀ caller m p, geaList caller = some p → error caller = .NO_ERROR →
    (4 ≤ caller.le32 p ∧ caller.le32 p ≤ 65536) ∧ buffer caller m = m.blit 0 (listIn caller p)

namespace InputEntry

/-- The body of the entry point. -/
def body (e : InputEntry env) : Stub δ Empty := exchange env e.fill e.finish

/-- The caller's input gets into the data buffer, or the entry point does not care. -/
def Filled (e : InputEntry env) (caller : Memory) : Prop :=
  e.nameFits ∧ (e.goesOn ∨ e.error caller = .NO_ERROR)

/-- How a call from `s` ends. -/
structure Ended (e : InputEntry env) (s : StubState δ) (rc : ApiRet) (trace : List StubEvent) :
    Prop where
  hands : HandsOwn IsOwn env (e.Filled s.caller) (e.request s.pRequest)
    (e.buffer s.caller s.pFSData) trace
  refused : Acquires env → e.nameFits → ¬ e.goesOn → e.error s.caller ≠ .NO_ERROR →
    rc = e.returned (e.error s.caller) ∧ .signal ∉ trace ∧ ∀ q m, .clearRqAvail q m ∉ trace
  signals : Acquires env → e.Filled s.caller → .signal ∈ trace

theorem body_ends (e : InputEntry env) {s : StubState δ} (hs : s.trace = []) :
    Ends e.body (fun _ _ => False) (fun rc t => e.Ended s rc t.trace) s := by
  have hnothing {t : StubState δ} {q : Request} {m : Memory} (ht : Prepared s q m t) :
      .signal ∉ t.trace ∧ ∀ q m, .clearRqAvail q m ∉ t.trace := by
    obtain ⟨es, htrace, hes⟩ := ht.events
    rw [htrace, hs, List.append_nil]
    exact ⟨fun hmem => hes _ hmem, fun _ _ hmem => hes _ hmem⟩
  refine @exchange_ends_of _ env s (e.request s.pRequest) (e.buffer s.caller s.pFSData) _ _
    (e.Filled s.caller) _ ?_ ?_ ?_ ?_
  · intro hacquire t ht
    rw [ne_eq, acquireCode_eq_noError_iff] at hacquire
    exact ⟨handsOwn_of_prepared ht hs fun h => hacquire h.1, fun h => absurd h hacquire,
      fun h => absurd h hacquire⟩
  · intro hacquire
    refine (e.fills s).consequence (fun _ h => h) (fun _ _ h => h) ?_
    rintro rc t ⟨hnot, q, m, ht⟩
    -- what stops `fill` is a name that is too long, or a list whose error is not passed over
    have hunfilled : ¬ e.Filled s.caller := by
      rintro ⟨hname, hgoes⟩
      rcases hnot with hnot | ⟨hnot, herror, -⟩
      · exact hnot hname
      · exact hgoes.elim hnot herror
    refine ⟨handsOwn_of_prepared ht hs fun h => hunfilled h.2.1, fun _ hname _ _ => ?_,
      fun _ h => absurd h hunfilled⟩
    obtain ⟨-, -, hrc⟩ := hnot.resolve_left (not_not.mpr hname)
    exact ⟨hrc, hnothing ht⟩
  · intro hacquire hfilled hsignal t ht
    have hacquire := acquireCode_eq_noError_iff.mp hacquire
    exact ⟨handsOwn_of_afterSignal ht hs hacquire hfilled (List.forall_mem_nil _),
      fun _ _ hnot herror => (hfilled.2.elim hnot herror).elim, fun _ _ => ht.calls⟩
  · intro hacquire hfilled hsignal t ht
    have hacquire := acquireCode_eq_noError_iff.mp hacquire
    have hended (rc : ApiRet) {es : List StubEvent} (hes : ∀ ev ∈ es, IsForeign IsOwn ev) :
        e.Ended s rc (es ++ t.trace) :=
      ⟨handsOwn_of_afterSignal ht hs hacquire hfilled hes,
        fun _ _ hnot herror => (hfilled.2.elim hnot herror).elim,
        fun _ _ => List.mem_append_right es ht.calls⟩
    refine (e.finishes.triple t.trace t ⟨[], rfl, List.forall_mem_nil _⟩).mono ?_ ?_
    · rintro rc u ⟨es, htrace, hes⟩
      show e.Ended s (exitCode env rc) (.clearSerialize :: u.trace)
      rw [htrace, ← List.cons_append]
      exact hended _ (List.forall_mem_cons.mpr ⟨trivial, hes⟩)
    · rintro rc u ⟨es, htrace, hes⟩
      rw [htrace]
      exact hended _ hes

/-! ### Checked input -/

/-- Input that fails a check is answered with the error, and the daemon is not signalled for it; and
with a level 3 query a GEA list of its caller is handed over whose length has been checked. -/
structure Checked (e : InputEntry env) (caller : Memory) (rc : ApiRet) (trace : List StubEvent) :
    Prop where
  refused : Acquires env → e.nameFits → e.error caller ≠ .NO_ERROR →
    rc = e.error caller ∧ .signal ∉ trace ∧ ∀ q m, .clearRqAvail q m ∉ trace
  listed : ∀ p, e.geaList caller = some p → ∀ q m, .clearRqAvail q m ∈ trace → IsOwn q →
    (4 ≤ caller.le32 p ∧ caller.le32 p ≤ 65536) ∧
      m.slice 0 (caller.le32 p) = caller.slice p (caller.le32 p)

/-- The condition under which input is checked: the entry point does not go on after an error, what
it then returns is that error, and a GEA list of 65536 bytes, of which nothing is copied, is in the
data buffer already. -/
structure Sound (e : InputEntry env) (caller pFSData : Memory) : Prop where
  error : Acquires env → e.nameFits → e.error caller ≠ .NO_ERROR →
    ¬ e.goesOn ∧ e.returned (e.error caller) = e.error caller
  list : Acquires env → e.nameFits → e.error caller = .NO_ERROR → HandsOver env .request →
    ∀ p, e.geaList caller = some p → caller.le32 p = 65536 →
      pFSData.slice 0 65536 = caller.slice p 65536

/-- Of a list of 65536 bytes nothing is copied. -/
theorem listIn_of_wraps {caller : Memory} {p : Ptr} (h : caller.le32 p = 65536) :
    listIn caller p = [] := by
  rw [listIn, h]
  rfl

/-- A shorter list is in the data buffer behind the copy. -/
theorem slice_blit_listIn {caller m : Memory} {p : Ptr} (h : caller.le32 p < 65536) :
    (m.blit 0 (listIn caller p)).slice 0 (caller.le32 p) = caller.slice p (caller.le32 p) := by
  have hlen : (UInt16.ofNat (caller.le32 p)).toNat = caller.le32 p := by
    rw [UInt16.toNat_ofNat', Nat.mod_eq_of_lt h]
  have hslice := (Memory.holdsAt_blit m 0 (caller.slice p (caller.le32 p))).slice
  rw [Memory.length_slice] at hslice
  rw [listIn, hlen]
  exact hslice

/-- A call that ends as it does checks its input exactly under the condition. -/
theorem Ended.checked_iff {e : InputEntry env} {s : StubState δ} {rc : ApiRet}
    {trace : List StubEvent} (h : e.Ended s rc trace) :
    e.Checked s.caller rc trace ↔ e.Sound s.caller s.pFSData := by
  have hown : IsOwn (e.request s.pRequest) := e.own s.pRequest
  constructor
  · rintro ⟨hrefused, hlisted⟩
    constructor
    · intro hacquire hname herror
      obtain ⟨hrc, hsignal, -⟩ := hrefused hacquire hname herror
      have hreturns : ¬ e.goesOn := fun hgoes =>
        hsignal (h.signals hacquire ⟨hname, Or.inl hgoes⟩)
      exact ⟨hreturns, (h.refused hacquire hname hreturns herror).1.symm.trans hrc⟩
    -- a list of 64 KiB: what the daemon gets is what the buffer held
    · intro hacquire hname hok hhands p hp hwraps
      have hmem := (h.hands _ _ hown).mpr ⟨⟨rfl, rfl⟩, hacquire, ⟨hname, Or.inr hok⟩, hhands⟩
      obtain ⟨-, hslice⟩ := hlisted p hp _ _ hmem hown
      obtain ⟨-, hbuffer⟩ := e.lists s.caller s.pFSData p hp hok
      rw [← hwraps]
      rw [hbuffer, listIn_of_wraps hwraps, Memory.blit_nil] at hslice
      exact hslice
  · rintro ⟨hsound, hlist⟩
    constructor
    · intro hacquire hname herror
      obtain ⟨hreturns, hcode⟩ := hsound hacquire hname herror
      obtain ⟨hrc, hnot⟩ := h.refused hacquire hname hreturns herror
      exact ⟨hrc.trans hcode, hnot⟩
    · intro p hp q m hmem hq
      obtain ⟨⟨rfl, rfl⟩, hacquire, ⟨hname, hgoes⟩, hhands⟩ := (h.hands q m hq).mp hmem
      -- only a call that goes on in spite of its error hands over a bad list
      have hok : e.error s.caller = .NO_ERROR := by
        by_contra herror
        exact (hsound hacquire hname herror).1 (hgoes.resolve_right herror)
      obtain ⟨hbounds, hbuffer⟩ := e.lists s.caller s.pFSData p hp hok
      refine ⟨hbounds, ?_⟩
      rw [hbuffer]
      rcases Nat.lt_or_eq_of_le hbounds.2 with hshort | hwraps
      · exact slice_blit_listIn hshort
      · have hsame := hlist hacquire hname hok hhands p hp hwraps
        rw [← hwraps] at hsame
        rw [listIn_of_wraps hwraps, Memory.blit_nil]
        exact hsame

end InputEntry

/-! ### The seven entry points -/

section Entries

/-- Behind the work of the daemon a search hands over a close, if anything. -/
theorem FindEntry.finish_foreign (e : FindEntry env) : Emits (IsForeign IsOwn) (do
    copyFindData env e.giveUp e.usLevel e.pData e.cbData
    e.rest) := by
  have hinner {ev : StubEvent} (hev : IsInner ev) : IsForeign IsOwn ev := hev.isForeign
  have hclosing {ev : StubEvent} (hev : IsClosing ev) : IsForeign IsOwn ev := by
    cases ev <;> first | exact not_not.mpr hev | trivial
  have houts {ev : StubEvent} (hev : ev ∈ e.outs) : IsForeign IsOwn ev := by
    rw [outs] at hev
    split at hev <;> simp at hev <;> rcases hev with rfl | rfl <;> trivial
  refine Emits.bind (Emits.of_ends fun s => ((e.copyFindData_ends s).mono ?_ ?_)) fun _ =>
    Emits.of_ends fun s => (e.rests s).mono ?_ fun _ _ h => h.elim
  · rintro - t (⟨-, ht⟩ | ⟨-, -, ht⟩)
    · obtain ⟨es, htrace, hes⟩ := ht.events
      exact ⟨es, htrace, fun ev hev => hinner (hes ev hev).isInner⟩
    · obtain ⟨es, htrace, hes, -⟩ := ht.events
      exact ⟨es, htrace, fun ev hev => (hes ev hev).elim hinner houts⟩
  · rintro rc t ⟨-, -, ht⟩
    obtain ⟨es, htrace, hes⟩ := ht.events
    exact ⟨es, htrace, fun ev hev => hclosing (hes ev hev)⟩
  · rintro rc t ⟨-, ht⟩
    obtain ⟨es, htrace, hes⟩ := ht.events
    exact ⟨es, htrace, fun ev hev => hinner (hes ev hev).isInner⟩

/-- The GEA list of a query at `level 3`. -/
def queriedGeas (level : Prop) [Decidable level] (pData : Ptr) (caller : Memory) : Option Ptr :=
  if level then some (caller.le32 pData) else none

/-- A search. -/
def FindEntry.input (e : FindEntry env) : InputEntry env where
  nameFits := e.nameFits
  error caller := findError env caller e.usLevel e.pData
  goesOn := False
  returned := id
  geaList := queriedGeas (e.usLevel = FIL_QUERYEASFROMLIST) e.pData
  request := e.request
  buffer caller m := m.blit 0 (findIn caller e.usLevel e.pData)
  fill := e.fill
  finish := do
    copyFindData env e.giveUp e.usLevel e.pData e.cbData
    e.rest
  own := e.rq_ne_findClose
  fills s := by
    refine (e.fills s).consequence (fun _ h => h)
      (fun _ _ h => ⟨⟨h.1.1, Or.inr h.1.2⟩, h.2⟩) ?_
    rintro rc t ⟨⟨hname, -⟩ | ⟨-, hrc, hbad⟩, ht⟩
    · exact ⟨Or.inl hname, ht⟩
    · exact ⟨Or.inr ⟨id, hrc ▸ hbad, hrc⟩, ht⟩
  finishes := e.finish_foreign
  lists caller m p hp hok := by
    rw [queriedGeas] at hp
    split at hp
    · next hlevel =>
      cases hp
      rw [findError, if_pos hlevel] at hok
      rw [findIn, if_pos hlevel]
      exact ⟨bounds_of_geaListError hok, rfl⟩
    · cases hp

/-- `FS_OPENCREATE`. -/
def OpenCall.input (env : StubEnv δ) (o : OpenCall) (f : OpenFile) : InputEntry env where
  nameFits := o.pszName.length < CCHMAXPATH
  error caller := feasError env caller o.pEABuf
  goesOn := False
  returned := exitCode env
  geaList _ := none
  request := o.request env f
  buffer caller m := m.blit 0 (feasIn caller o.pEABuf)
  fill := o.fill env f
  finish := o.finish env
  own _ := nofun
  fills s := by
    refine o.fill_prepared.consequence (fun _ h => h)
      (fun _ _ h => ⟨⟨h.1.1, Or.inr h.1.2⟩, h.2⟩) ?_
    rintro rc t ⟨hnot, ht⟩
    exact ⟨hnot.imp_right fun h => ⟨id, h⟩, ht⟩
  finishes := o.finish_local.mono fun _ h => h.isForeign
  lists _ _ _ hp _ := nomatch hp

/-- Behind the work of the daemon `FS_MKDIR` stores the error offset. -/
def finishMkDir (env : StubEnv δ) : Option Ptr → Stub δ ApiRet
  | some pEABuf => do
    let oError ← getRequest (·.oError)
    let rc ← call (copyEAOP env .post pEABuf CEA_SET_OERROR oError)
    releaseOnError env rc rc
    requestRc
  | none => requestRc

/-- `FS_MKDIR`. -/
def mkDirInput (env : StubEnv δ) (cdfsi : Cdfsi) (cdfsd : Cdfsd) (pszName : List UInt8)
    (iCurDirEnd : UInt16) (pEABuf : Option Ptr) : InputEntry env where
  nameFits := pszName.length < CCHMAXPATH
  error caller := feasError env caller pEABuf
  goesOn := False
  returned := exitCode env
  geaList _ := none
  request r :=
    { r with
      rq := .FSRQ_MKDIR, pVolData := env.queryVPFSD cdfsi.cdiHVPB, cdfsi := cdfsi, cdfsd := cdfsd,
      szName := pszName, iCurDirEnd := iCurDirEnd, fHasEAs := pEABuf.isSome }
  buffer caller m := m.blit 0 (feasIn caller pEABuf)
  fill := do
    pathRequest env .FSRQ_MKDIR cdfsi cdfsd pszName iCurDirEnd
    copyFeas env pEABuf
  finish := finishMkDir env pEABuf
  own _ := nofun
  fills s := by
    refine Triple.bind ((pathRequest_prepared _ _ _ _ _).consequence (fun _ h => h)
      (fun _ _ h => h) ?_) fun _ => Triple.given fun hname =>
        (copyFeas_prepared pEABuf).consequence (fun _ h => h)
          (fun _ _ h => ⟨⟨hname, Or.inr h.1⟩, h.2⟩) ?_
    · rintro rc t ⟨hname, -, q, ht⟩
      exact ⟨Or.inl hname, q, _, ht⟩
    · rintro rc t ⟨hfeas, hrc, ht⟩
      exact ⟨Or.inr ⟨id, hfeas, hrc⟩, ht⟩
  finishes := by
    cases pEABuf with
    | some pEABuf =>
      exact (Emits.getRequest trivial _).bind fun _ => (Emits.call (Emits.copyEAOP trivial
        (fun _ _ _ => trivial) (fun _ _ => trivial) (fun _ _ => trivial) _ _ _ _)).bind fun _ =>
          (Emits.onlyIf (Emits.releaseAndExit trivial _)).bind fun _ => Emits.getRequest trivial _
    | none => exact Emits.getRequest trivial _
  lists _ _ _ hp _ := nomatch hp

section Info

variable {nameFits : Prop} {request : Request → Request} {fill : Stub δ Unit}
  {finish : Stub δ ApiRet}

/-- An entry point that drops what `copyFileInfoBufPre` returns. -/
def infoInput (fsFlag usLevel cbData : UInt16) (pData : Ptr) (own : ∀ r, IsOwn (request r))
    (fills : ∀ s, Triple (Prepared s s.pRequest s.pFSData) fill
      (fun _ t => nameFits ∧ Prepared s (request s.pRequest)
        (infoBuffer env s.caller fsFlag usLevel cbData pData s.pFSData) t)
      (fun _ t => ¬ nameFits ∧ ∃ q m, Prepared s q m t))
    (finishes : Emits (IsForeign IsOwn) finish) : InputEntry env where
  nameFits := nameFits
  error caller := infoError env caller fsFlag usLevel pData
  goesOn := True
  returned := id
  geaList := queriedGeas (fsFlag &&& FI_SET = 0 ∧ usLevel = 3) pData
  request := request
  buffer caller m := infoBuffer env caller fsFlag usLevel cbData pData m
  fill := fill
  finish := finish
  own := own
  fills s := (fills s).consequence (fun _ h => h)
    (fun _ _ h => ⟨⟨h.1, Or.inl trivial⟩, h.2⟩) fun _ _ h => ⟨Or.inl h.1, h.2⟩
  finishes := finishes
  lists caller m p hp hok := by
    rw [queriedGeas] at hp
    split at hp
    · next hlevel =>
      cases hp
      rw [infoBuffer, if_pos hok, infoIn, if_neg (not_not.mpr hlevel.1), if_pos hlevel.2]
      rw [infoError, if_neg (not_not.mpr hlevel.1), if_pos hlevel.2] at hok
      exact ⟨bounds_of_geaListError hok, rfl⟩
    · cases hp

theorem infoPost_foreign (fsFlag usLevel cbData : UInt16) (pData : Ptr) :
    Emits (IsForeign IsOwn) (infoPost env fsFlag usLevel cbData pData) :=
  (Emits.getRequest trivial _).bind fun _ => (Emits.call (Emits.copyFileInfoBufPost trivial trivial
    (fun _ _ _ => trivial) (fun _ _ => trivial) (fun _ _ => trivial) _ _ _ _ _)).bind fun _ =>
      (Emits.getRequest trivial _).bind fun _ => Emits.pure _

end Info

/-- `FS_FILEINFO`. -/
def fileInfoInput (env : StubEnv δ) (fsFlag : UInt16) (sffsi : Sffsi) (psffsd : Ptr)
    (usLevel : UInt16) (pData : Ptr) (cbData fsIOFlag : UInt16) : InputEntry env :=
  @infoInput _ env True (fun r =>
    { fileRequest env .FSRQ_FILEINFO sffsi psffsd r with
      fsFlag := fsFlag, usLevel := usLevel, cbData := cbData, fsIOFlag := fsIOFlag })
    (do
      setRequest fun r =>
        { fileRequest env .FSRQ_FILEINFO sffsi psffsd r with
          fsFlag := fsFlag, usLevel := usLevel, cbData := cbData, fsIOFlag := fsIOFlag }
      let _ ← call (copyFileInfoBufPre env fsFlag usLevel cbData pData))
    (do
      returnSffsi
      infoPost env fsFlag usLevel cbData pData)
    fsFlag usLevel cbData pData (fun _ => nofun)
    (fun _ => (setRequest_prepared _).bind fun _ => (infoPre_prepared _ _ _ _).consequence
      (fun _ h => h) (fun _ _ h => ⟨trivial, h⟩) fun _ _ h => h)
    (((Emits.getRequest trivial _).bind fun _ => Emits.log trivial).bind fun _ =>
      infoPost_foreign fsFlag usLevel cbData pData)

/-- `FS_PATHINFO`. -/
def pathInfoInput (env : StubEnv δ) (fsFlag : UInt16) (cdfsi : Cdfsi) (cdfsd : Cdfsd)
    (pszName : List UInt8) (iCurDirEnd usLevel : UInt16) (pData : Ptr) (cbData : UInt16) :
    InputEntry env :=
  @infoInput _ env (pszName.length < CCHMAXPATH) (fun r =>
    { r with
      rq := .FSRQ_PATHINFO, pVolData := env.queryVPFSD cdfsi.cdiHVPB, cdfsi := cdfsi
      cdfsd := cdfsd, szName := pszName, iCurDirEnd := iCurDirEnd, fsFlag := fsFlag
      usLevel := usLevel, cbData := cbData })
    (do
      pathRequest env .FSRQ_PATHINFO cdfsi cdfsd pszName iCurDirEnd
      setRequest fun r => { r with fsFlag := fsFlag, usLevel := usLevel, cbData := cbData }
      let _ ← call (copyFileInfoBufPre env fsFlag usLevel cbData pData))
    (infoPost env fsFlag usLevel cbData pData) fsFlag usLevel cbData pData (fun _ => nofun)
    (fun _ => Triple.bind ((pathRequest_prepared _ _ _ _ _).consequence (fun _ h => h)
      (fun _ _ h => h) fun _ _ ⟨hname, _, q, ht⟩ => ⟨hname, q, _, ht⟩) fun _ =>
        Triple.given fun hname => (setRequest_prepared _).bind fun _ =>
          (infoPre_prepared _ _ _ _).consequence (fun _ h => h) (fun _ _ h => ⟨hname, h⟩)
            fun _ _ h => h)
    (infoPost_foreign fsFlag usLevel cbData pData)

/-- The entry point of a call with input. -/
def StubCall.inputEntry (env : StubEnv δ) : StubCall → Option (InputEntry env)
  | .fsOpenCreate cdfsi cdfsd pszName iCurDirEnd sffsi flOpenMode fsOpenFlag fsAttr pEABuf =>
    some (OpenCall.input env
      ⟨cdfsi, cdfsd, pszName, iCurDirEnd, flOpenMode, fsOpenFlag, fsAttr, pEABuf⟩ ⟨sffsi, 0⟩)
  | .fsMkDir cdfsi cdfsd pszName iCurDirEnd pEABuf =>
    some (mkDirInput env cdfsi cdfsd pszName iCurDirEnd pEABuf)
  | .fsFileInfo fsFlag sffsi psffsd usLevel pData cbData fsIOFlag =>
    some (fileInfoInput env fsFlag sffsi psffsd usLevel pData cbData fsIOFlag)
  | .fsPathInfo fsFlag cdfsi cdfsd pszName iCurDirEnd usLevel pData cbData =>
    some (pathInfoInput env fsFlag cdfsi cdfsd pszName iCurDirEnd usLevel pData cbData)
  | call => (call.findEntry env).map FindEntry.input

theorem body_of_inputEntry {call : StubCall} {e : InputEntry env}
    (h : call.inputEntry env = some e) : call.body env = e.body := by
  have hfind {call : StubCall} {e : InputEntry env}
      (h : (call.findEntry env).map FindEntry.input = some e) : call.body env = e.body := by
    obtain ⟨f, hf, rfl⟩ := Option.map_eq_some_iff.mp h
    exact body_of_findEntry hf
  cases call with
  | fsMkDir cdfsi cdfsd pszName iCurDirEnd pEABuf =>
    cases h
    cases pEABuf <;> rfl
  | fsOpenCreate => cases h; rfl
  | fsFileInfo => cases h; rfl
  | fsPathInfo => cases h; rfl
  | _ => exact hfind h

/-- What a call from `s` returns. -/
def StubCall.code (env : StubEnv δ) (s : StubState δ) (call : StubCall) : ApiRet :=
  ((call.body env).run { s with trace := [] }).1

/-- A call with input checks it exactly when it does not go on after an error, returns the error
itself, and hands over no GEA list of 65536 bytes that is not in the data buffer
already. -/
theorem input_checked_iff (s : StubState δ) {call : StubCall} {e : InputEntry env}
    (h : call.inputEntry env = some e) :
    e.Checked s.caller (call.code env s) (call.events env s) ↔ e.Sound s.caller s.pFSData := by
  have hends := (e.body_ends (show ({ s with trace := [] } : StubState δ).trace = [] from rfl)).run
  rw [StubCall.code, StubCall.events, body_of_inputEntry h]
  exact hends.checked_iff

end Entries

/-- A level 3 search with an empty GEA list. -/
theorem input_checked_iff_geaState :
    (findNextEntry (quietEnv fun _ => .NO_ERROR) 0 0 0 20 0 3 0).input.Checked geaState.caller
      ((StubCall.fsFindNext 0 0 0 20 0 3 0).code (quietEnv fun _ => .NO_ERROR) geaState)
      ((StubCall.fsFindNext 0 0 0 20 0 3 0).events (quietEnv fun _ => .NO_ERROR) geaState) := by
  have hok : (findNextEntry (quietEnv fun _ => .NO_ERROR) 0 0 0 20 0 3 0).input.error
      geaState.caller = .NO_ERROR := by decide +kernel
  have hgeas : (findNextEntry (quietEnv fun _ => .NO_ERROR) 0 0 0 20 0 3 0).input.geaList
      geaState.caller = some 16 := rfl
  have hlen : geaState.caller.le32 16 = 4 := by decide
  apply (input_checked_iff geaState rfl).mpr
  constructor
  · intro _ _ herror
    exact absurd hok herror
  · intro _ _ _ _ p hp hwraps
    rw [hgeas] at hp
    cases hp
    rw [hlen] at hwraps
    exact absurd hwraps (by decide)

/-- `FS_FILEINFO` of level 3 with an `EAOP` that is not readable reaches the daemon. -/
theorem fileInfo_unchecked :
    ¬ (fileInfoInput (quietEnv fun _ => .ERROR_ACCESS_DENIED) 0 default 0 3 0 0 0).Checked
      idleState.caller
      ((StubCall.fsFileInfo 0 default 0 3 0 0 0).code (quietEnv fun _ => .ERROR_ACCESS_DENIED)
        idleState)
      ((StubCall.fsFileInfo 0 default 0 3 0 0 0).events (quietEnv fun _ => .ERROR_ACCESS_DENIED)
        idleState) := by
  intro h
  have herror : (fileInfoInput (quietEnv fun _ => .ERROR_ACCESS_DENIED) 0 default 0 3 0 0 0).error
      idleState.caller ≠ .NO_ERROR := by decide
  obtain ⟨-, -, hnot⟩ := h.refused ⟨rfl, rfl, rfl, rfl⟩ trivial herror
  have hhanded : handedOver ((StubCall.fsFileInfo 0 default 0 3 0 0 0).events
      (quietEnv fun _ => .ERROR_ACCESS_DENIED) idleState) ≠ [] := by decide
  obtain ⟨q, hq⟩ := List.exists_mem_of_ne_nil _ hhanded
  obtain ⟨m, hm⟩ := mem_handedOver.mp hq
  exact hnot q m hm

end Stub

end Isofs
