import Isofs.Stub.Frames

/-!
# What a search call comes to

`FS_FINDFIRST`, `FS_FINDNEXT` and `FS_FINDFROMNAME` differ in their request, in whether they check
a name, and in how they give a search up. Each ends in one of a few ways.
-/

namespace Isofs

namespace Stub

open Proc

variable {δ : Type} {env : StubEnv δ}

/-! ### The GEA list of a search -/

/-- What the GEA list of a search comes to. -/
def findError (env : StubEnv δ) (caller : Memory) (usLevel : UInt16) (pData : Ptr) : ApiRet :=
  if usLevel = FIL_QUERYEASFROMLIST then geaListError env caller pData else .NO_ERROR

/-- The bytes that are copied to the data buffer. -/
def findIn (caller : Memory) (usLevel : UInt16) (pData : Ptr) : List UInt8 :=
  if usLevel = FIL_QUERYEASFROMLIST then listIn caller (caller.le32 pData) else []

/-- The size that is passed to the daemon. -/
def findSize (usLevel cbData : UInt16) : UInt16 :=
  if usLevel = FIL_QUERYEASFROMLIST then cbData - sizeofEAOP else cbData

theorem findEAsPre_prepared {s : StubState δ} {q : Request} {m : Memory} (usLevel : UInt16)
    (pData : Ptr) :
    Triple (Prepared s q m) (findEAsPre env usLevel pData)
      (fun _ t => findError env s.caller usLevel pData = .NO_ERROR ∧
        Prepared s { q with cbData := findSize usLevel q.cbData }
          (m.blit 0 (findIn s.caller usLevel pData)) t)
      (fun rc t => rc = findError env s.caller usLevel pData ∧ rc ≠ .NO_ERROR ∧
        ∃ m', Prepared s q m' t) := by
  rw [findError, findIn, findSize]
  refine Triple.onlyIf (fun hlevel => ?_) fun hlevel t h => ?_
  · rw [if_pos hlevel, if_pos hlevel, if_pos hlevel]
    refine (Triple.call (copyEAOP_geas_prepared pData)).bind fun rc => Triple.given ?_
    rintro rfl
    refine Triple.bind ((returnOnError_prepared _).consequence (fun _ h => h) (fun _ _ h => h) ?_)
      fun _ => Triple.given fun hrc => ?_
    · rintro rc t ⟨hrc, rfl, h⟩
      exact ⟨rfl, hrc, _, h⟩
    · rw [if_pos hrc]
      exact (setRequest_prepared _).consequence (fun _ h => h) (fun _ _ h => ⟨hrc, h⟩)
        fun _ _ h => h
  · rw [if_neg hlevel, if_neg hlevel, if_neg hlevel, Memory.blit_nil]
    exact ⟨rfl, h⟩

/-! ### The three entry points -/

/-- `rc` and the result data go back to the caller. -/
def CopiesBack (rc : ApiRet) : Prop := rc = .NO_ERROR ∨ rc = .ERROR_EAS_DIDNT_FIT

instance (rc : ApiRet) : Decidable (CopiesBack rc) := inferInstanceAs (Decidable (_ ∨ _))

/-- Events of a search that is given up: nothing is written to the caller's memory, and only a
close is handed over. -/
def IsClosing : StubEvent → Prop
  | .clearRqAvail q _ => q.rq = .FSRQ_FINDCLOSE
  | .copyOut _ _ => False
  | _ => True

theorem IsInner.isClosing {e : StubEvent} (he : IsInner e) : IsClosing e := by
  cases e <;> first | exact he.elim | trivial

/-- Since `t` the call has given its search up. -/
structure GaveUp (t u : StubState δ) : Prop where
  caller : u.caller = t.caller
  events : ∃ es, u.trace = es ++ t.trace ∧ ∀ e ∈ es, IsClosing e

theorem GaveUp.log {t u : StubState δ} (h : GaveUp t u) {e : StubEvent} (he : IsClosing e) :
    GaveUp t { u with trace := e :: u.trace } := by
  obtain ⟨hcaller, es, htrace, hes⟩ := h
  exact ⟨hcaller, e :: es, congrArg (e :: ·) htrace, List.forall_mem_cons.mpr ⟨he, hes⟩⟩

/-- A search can be given up later. -/
theorem GaveUp.of_prepared {s t u : StubState δ} {q : Request} {m : Memory} (h : GaveUp t u)
    (ht : Prepared s q m t) : GaveUp s u := by
  obtain ⟨hcaller, es, htrace, hes⟩ := h
  obtain ⟨-, -, hcaller', -, es', htrace', hes'⟩ := ht
  refine ⟨hcaller.trans hcaller', es ++ es', ?_, fun e he => ?_⟩
  · rw [htrace, htrace', List.append_assoc]
  · exact (List.mem_append.mp he).elim (hes e) fun he => (hes' e he).isInner.isClosing

/-- An entry point that starts or continues a search: what it makes of the request, and how it
ends. -/
structure FindEntry (env : StubEnv δ) where
  nameFits : Prop
  request : Request → Request
  usLevel : UInt16
  pData : Ptr
  cbData : UInt16
  fill : Stub δ Unit
  giveUp : ApiRet → Stub δ Unit
  giveUpCode : ApiRet → ApiRet
  rest : Stub δ ApiRet
  rq : ∀ r, (request r).rq = .FSRQ_FINDFIRST ∨ (request r).rq = .FSRQ_FINDNEXT ∨
    (request r).rq = .FSRQ_FINDFROMNAME
  level : ∀ r, (request r).usLevel = usLevel
  size : ∀ r, (request r).cbData = findSize usLevel cbData
  fills : ∀ s, Triple (Prepared s s.pRequest s.pFSData) fill
    (fun _ t => (nameFits ∧ findError env s.caller usLevel pData = .NO_ERROR) ∧
      Prepared s (request s.pRequest) (s.pFSData.blit 0 (findIn s.caller usLevel pData)) t)
    (fun rc t => (¬ nameFits ∧ rc = exitCode env .ERROR_INVALID_PARAMETER ∨
        nameFits ∧ rc = findError env s.caller usLevel pData ∧ rc ≠ .NO_ERROR) ∧
      ∃ q m, Prepared s q m t)
  givesUp : ∀ rc t, Ends (giveUp rc) (fun _ _ => False)
    (fun r u => r = giveUpCode rc ∧ GaveUp t u) t
  rests : ∀ t, Ends rest (fun rc u => rc = t.pRequest.rc ∧ Prepared t t.pRequest t.pFSData u)
    (fun _ _ => False) t

namespace FindEntry

/-- The body of the entry point. -/
def body (e : FindEntry env) : Stub δ Empty :=
  exchange env e.fill (do
    copyFindData env e.giveUp e.usLevel e.pData e.cbData
    e.rest)

end FindEntry

theorem finishFind_rests (t : StubState δ) :
    Ends finishFind (fun rc u => rc = t.pRequest.rc ∧ Prepared t t.pRequest t.pFSData u)
      (fun _ _ => False) t := by
  refine (getRequest_prepared _).bind (fun cMatch => Triple.given fun _ => ?_) t (.refl t)
  refine (log_prepared (show IsFilling (.store (.cMatch cMatch)) from trivial)).bind fun _ => ?_
  exact getRequest_prepared _

theorem releaseAndExit_givesUp (rc : ApiRet) (t : StubState δ) :
    Ends (releaseAndExit env rc : Stub δ Unit) (fun _ _ => False)
      (fun r u => r = exitCode env rc ∧ GaveUp t u) t :=
  Ends.bind (Ends.update (Ends.ret ⟨rfl, rfl, [.clearSerialize], rfl,
    List.forall_mem_singleton.mpr trivial⟩))

/-- The code with which `FS_FINDFIRST` gives its search up. -/
def undoCode (env : StubEnv δ) (rc : ApiRet) : ApiRet :=
  if signalCode env .undo ≠ .NO_ERROR then exitCode env (signalCode env .undo) else exitCode env rc

theorem undoAndRelease_givesUp (cdfsi : Cdfsi) (rc : ApiRet) (t : StubState δ) :
    Ends (undoAndRelease env cdfsi rc) (fun _ _ => False)
      (fun r u => r = undoCode env rc ∧ GaveUp t u) t := by
  have hundo : Ends (undoFindFirst env cdfsi) (fun _ _ => False)
      (fun r u => r = signalCode env .undo ∧ GaveUp t u) t := by
    refine Triple.bind (setRequest_prepared _) (fun _ => (signal_prepared .undo).consequence
      (fun _ h => h) (fun _ _ h => h) ?_) t (.refl t)
    rintro rc u ⟨hrc, hcaller, -, ⟨es, htrace, hes, -⟩, -⟩
    refine ⟨hrc, hcaller, es, htrace, fun e he => ?_⟩
    rcases hes e he with he | rfl
    · exact he.isClosing
    · rfl
  refine Ends.bind ((Ends.call hundo).mono ?_ fun _ _ h => h)
  rintro rc2 u ⟨rfl, hu⟩
  have hreleased : GaveUp t { u with trace := .clearSerialize :: u.trace } :=
    hu.log (show IsClosing .clearSerialize from trivial)
  refine Ends.bind (Ends.onlyIf (fun h => Ends.bind (Ends.update (Ends.ret ⟨?_, hreleased⟩)))
    fun h => Ends.bind (Ends.update (Ends.ret ⟨?_, hreleased⟩)))
  · rw [undoCode, if_pos h]
    rfl
  · rw [undoCode, if_neg h]
    rfl

section Entries

variable {s : StubState δ} {q : Request} {m : Memory}

theorem pathRequest_prepared (rq : RequestCode) (cdfsi : Cdfsi) (cdfsd : Cdfsd)
    (pszName : List UInt8) (iCurDirEnd : UInt16) :
    Triple (Prepared s q m) (pathRequest env rq cdfsi cdfsd pszName iCurDirEnd)
      (fun _ t => pszName.length < CCHMAXPATH ∧ Prepared s
        { q with
          rq := rq, pVolData := env.queryVPFSD cdfsi.cdiHVPB, cdfsi := cdfsi, cdfsd := cdfsd,
          szName := pszName, iCurDirEnd := iCurDirEnd } m t)
      (fun rc t => ¬ pszName.length < CCHMAXPATH ∧
        rc = exitCode env .ERROR_INVALID_PARAMETER ∧ ∃ q, Prepared s q m t) := by
  refine (setRequest_prepared _).bind fun _ => Triple.bind ((checkString_prepared _ _).consequence
    (fun _ h => h) (fun _ _ h => h) fun rc t h => ⟨Nat.not_lt.mpr h.1, h.2.1, _, h.2.2⟩) fun _ =>
      Triple.given fun hname => (setRequest_prepared _).consequence (fun _ h => h)
        (fun _ _ h => ⟨hname, h⟩) fun _ _ h => h

/-- The request of a search and its GEA list, once its name is known to fit. -/
theorem searchFill_prepared {nameFits : Prop} (hname : nameFits) (f : Request → Request)
    (usLevel : UInt16) (pData : Ptr) :
    Triple (Prepared s q m) (do
      setRequest f
      findEAsPre env usLevel pData)
      (fun _ t => (nameFits ∧ findError env s.caller usLevel pData = .NO_ERROR) ∧
        Prepared s { f q with cbData := findSize usLevel (f q).cbData }
          (m.blit 0 (findIn s.caller usLevel pData)) t)
      (fun rc t => (¬ nameFits ∧ rc = exitCode env .ERROR_INVALID_PARAMETER ∨
          nameFits ∧ rc = findError env s.caller usLevel pData ∧ rc ≠ .NO_ERROR) ∧
        ∃ q m, Prepared s q m t) := by
  refine (setRequest_prepared f).bind fun _ => (findEAsPre_prepared usLevel pData).consequence
    (fun _ h => h) (fun _ t h => ⟨⟨hname, h.1⟩, h.2⟩) ?_
  rintro rc t ⟨hrc, hbad, m', h⟩
  exact ⟨Or.inr ⟨hname, hrc, hbad⟩, _, m', h⟩

variable (env)

/-- `FS_FINDFIRST`. -/
def findFirstEntry (cdfsi : Cdfsi) (cdfsd : Cdfsd) (pszName : List UInt8)
    (iCurDirEnd fsAttr : UInt16) (pData : Ptr) (cbData pcMatch usLevel fsFlags : UInt16) :
    FindEntry env where
  nameFits := pszName.length < CCHMAXPATH
  request r :=
    { r with
      rq := .FSRQ_FINDFIRST, pVolData := env.queryVPFSD cdfsi.cdiHVPB, cdfsi := cdfsi
      cdfsd := cdfsd, szName := pszName, iCurDirEnd := iCurDirEnd, fsAttr := fsAttr
      cbData := findSize usLevel cbData, cMatch := pcMatch, usLevel := usLevel, fsFlags := fsFlags }
  usLevel := usLevel
  pData := pData
  cbData := cbData
  fill := do
    pathRequest env .FSRQ_FINDFIRST cdfsi cdfsd pszName iCurDirEnd
    setRequest fun r =>
      { r with
        fsAttr := fsAttr, cbData := cbData, cMatch := pcMatch, usLevel := usLevel,
        fsFlags := fsFlags }
    findEAsPre env usLevel pData
  giveUp := undoAndRelease env cdfsi
  giveUpCode := undoCode env
  rest := do
    let pSearchData ← getRequest (·.pSearchData)
    store (.fsfsd pSearchData)
    finishFind
  rq _ := Or.inl rfl
  level _ := rfl
  size _ := rfl
  fills s := by
    refine Triple.bind ((pathRequest_prepared _ _ _ _ _).consequence (fun _ h => h)
      (fun _ _ h => h) ?_) fun _ => Triple.given fun hname => searchFill_prepared hname _ _ _
    rintro rc t ⟨hname, hrc, q, h⟩
    exact ⟨Or.inl ⟨hname, hrc⟩, q, _, h⟩
  givesUp := undoAndRelease_givesUp cdfsi
  rests t := by
    refine (getRequest_prepared _).bind (fun pSearchData => Triple.given fun _ => ?_) t (.refl t)
    refine (log_prepared (show IsFilling (.store (.fsfsd pSearchData)) from trivial)).bind
      fun _ => ?_
    refine (getRequest_prepared _).bind fun cMatch => Triple.given fun _ => ?_
    refine (log_prepared (show IsFilling (.store (.cMatch cMatch)) from trivial)).bind fun _ => ?_
    exact getRequest_prepared _

/-- `FS_FINDNEXT`. -/
def findNextEntry (hVPB : UInt16) (pfsfsd pData : Ptr) (cbData pcMatch usLevel fsFlags : UInt16) :
    FindEntry env where
  nameFits := True
  request r :=
    { searchRequest env .FSRQ_FINDNEXT hVPB pfsfsd cbData pcMatch usLevel fsFlags r with
      cbData := findSize usLevel cbData }
  usLevel := usLevel
  pData := pData
  cbData := cbData
  fill := do
    setRequest (searchRequest env .FSRQ_FINDNEXT hVPB pfsfsd cbData pcMatch usLevel fsFlags)
    findEAsPre env usLevel pData
  giveUp := releaseAndExit env
  giveUpCode := exitCode env
  rest := finishFind
  rq _ := Or.inr (Or.inl rfl)
  level _ := rfl
  size _ := rfl
  fills _ := searchFill_prepared trivial _ _ _
  givesUp := releaseAndExit_givesUp
  rests := finishFind_rests

/-- `FS_FINDFROMNAME`. -/
def findFromNameEntry (hVPB : UInt16) (pfsfsd pData : Ptr) (cbData pcMatch usLevel : UInt16)
    (ulPosition : UInt32) (pszName : List UInt8) (fsFlags : UInt16) : FindEntry env where
  nameFits := pszName.length < CCHMAXPATH
  request r :=
    { searchRequest env .FSRQ_FINDFROMNAME hVPB pfsfsd cbData pcMatch usLevel fsFlags r with
      ulPosition := ulPosition, szName := pszName, cbData := findSize usLevel cbData }
  usLevel := usLevel
  pData := pData
  cbData := cbData
  fill := do
    setRequest fun r =>
      { searchRequest env .FSRQ_FINDFROMNAME hVPB pfsfsd cbData pcMatch usLevel fsFlags r with
        ulPosition := ulPosition }
    checkString env pszName CCHMAXPATH
    setRequest fun r => { r with szName := pszName }
    findEAsPre env usLevel pData
  giveUp := releaseAndExit env
  giveUpCode := exitCode env
  rest := finishFind
  rq _ := Or.inr (Or.inr rfl)
  level _ := rfl
  size _ := rfl
  fills s := by
    refine (setRequest_prepared _).bind fun _ => Triple.bind ((checkString_prepared _ _).consequence
      (fun _ h => h) (fun _ _ h => h) ?_) fun _ => Triple.given fun hname =>
        searchFill_prepared hname _ _ _
    rintro rc t ⟨hname, hrc, h⟩
    exact ⟨Or.inl ⟨Nat.not_lt.mpr hname, hrc⟩, _, _, h⟩
  givesUp := releaseAndExit_givesUp
  rests := finishFind_rests

end Entries

/-! ### The result data -/

/-- Since `u` the call has written to its caller's memory, which is now `c`, and `outs` are the
events of that. -/
structure Copied (u : StubState δ) (c : Memory) (outs : List StubEvent) (t : StubState δ) :
    Prop where
  request : t.pRequest = u.pRequest
  buffer : t.pFSData = u.pFSData
  caller : t.caller = c
  events : ∃ es, t.trace = es ++ u.trace ∧ (∀ e ∈ es, IsInner e ∨ e ∈ outs) ∧ ∀ e ∈ outs, e ∈ es

theorem Copied.of_prepared {u t : StubState δ} (h : Prepared u u.pRequest u.pFSData t) :
    Copied u u.caller [] t := by
  obtain ⟨hrequest, hbuffer, hcaller, -, es, htrace, hes⟩ := h
  exact ⟨hrequest, hbuffer, hcaller, es, htrace, fun e he => Or.inl (hes e he).isInner,
    List.forall_mem_nil _⟩

theorem Copied.trans {u t v : StubState δ} {c d : Memory} {outs outs' : List StubEvent}
    (h : Copied u c outs t) (h' : Copied t d outs' v) : Copied u d (outs ++ outs') v := by
  obtain ⟨hrequest, hbuffer, -, es, htrace, hes, houts⟩ := h
  obtain ⟨hrequest', hbuffer', hcaller, es', htrace', hes', houts'⟩ := h'
  refine ⟨hrequest'.trans hrequest, hbuffer'.trans hbuffer, hcaller, es' ++ es, ?_, ?_, ?_⟩
  · rw [htrace', htrace, List.append_assoc]
  · intro e he
    rw [List.mem_append]
    rcases List.mem_append.mp he with he | he
    · exact (hes' e he).imp_right Or.inr
    · exact (hes e he).imp_right Or.inl
  · intro e he
    rw [List.mem_append]
    exact (List.mem_append.mp he).elim (fun he => Or.inr (houts e he))
      fun he => Or.inl (houts' e he)

theorem Copied.copyOut (u : StubState δ) (p : Ptr) (len : UInt16) :
    Copied u (u.caller.blit p (u.pFSData.slice 0 len.toNat)) [.copyOut p len]
      { u with
        caller := u.caller.blit p (u.pFSData.slice 0 len.toNat)
        trace := .copyOut p len :: .exchange :: u.trace } := by
  refine ⟨rfl, rfl, rfl, [.copyOut p len, .exchange], rfl, ?_, ?_⟩
  · intro e he
    rcases List.mem_cons.mp he with rfl | he
    · exact Or.inr List.mem_cons_self
    · exact Or.inl (List.mem_singleton.mp he ▸ trivial)
  · exact List.forall_mem_singleton.mpr List.mem_cons_self

/-- The `EAOP` of the caller is accessible. -/
def EaopFits (env : StubEnv δ) : Prop :=
  env.probe (.eaop .post .eaopRead) = .NO_ERROR ∧ env.probe (.eaop .post .eaopWrite) = .NO_ERROR

/-- `copyEAOP` stores the error offset, or it fails and leaves the caller's memory alone. -/
theorem copyEAOP_oError_ends (p : Ptr) (oError : UInt16) (u : StubState δ) :
    Ends (copyEAOP env .post p CEA_SET_OERROR oError) (fun _ _ => False)
      (fun rc t => (¬ EaopFits env ∧ rc = .ERROR_INVALID_PARAMETER ∧
          Prepared u u.pRequest u.pFSData t) ∨
        (EaopFits env ∧ rc = .NO_ERROR ∧ Copied u
          (u.caller.blit (p + 8) (Memory.le32Bytes oError.toNat)) [.copyOut (p + 8) 4] t)) u := by
  have h1 : CEA_SET_OERROR &&& CEA_SET_OERROR ≠ 0 := by decide
  have h2 : ¬ (CEA_SET_OERROR &&& CEA_FEAS_TO_BUF ≠ 0 ∨
    CEA_SET_OERROR &&& CEA_BUF_TO_FEAS ≠ 0) := by decide
  have h3 : ¬ CEA_SET_OERROR &&& CEA_GEAS_TO_BUF ≠ 0 := by decide
  rw [copyEAOP]
  simp only [onlyIf_of_true h1, onlyIf_of_false h2, onlyIf_of_false h3]
  refine Ends.bind ((mustProbe_prepared _ _ _ u (.refl u)).mono ?_ ?_)
  swap
  · rintro rc t ⟨hread, rfl, h⟩
    exact Or.inl ⟨fun hfits => hread hfits.1, rfl, h⟩
  rintro - t ⟨hread, ht⟩
  refine Ends.bind (Ends.read (Ends.bind (Ends.read (Ends.bind (Ends.bind
    ((mustProbe_prepared _ _ _ t ht).mono ?_ ?_))))))
  swap
  · rintro rc t ⟨hwrite, rfl, h⟩
    exact Or.inl ⟨fun hfits => hwrite hfits.2, rfl, h⟩
  rintro - v ⟨hwrite, hrequest, hbuffer, hcaller, -, es, htrace, hes⟩
  refine Ends.update (Ends.bind (Ends.pure (Ends.bind (Ends.pure (Ends.ret (Or.inr ?_))))))
  refine ⟨⟨hread, hwrite⟩, rfl, hrequest, hbuffer, ?_, .copyOut (p + 8) 4 :: es, ?_, ?_, ?_⟩
  · rw [hcaller]
  · rw [htrace]
    rfl
  · intro e he
    rcases List.mem_cons.mp he with rfl | he
    · exact Or.inr List.mem_cons_self
    · exact Or.inl (hes e he).isInner
  · exact List.forall_mem_singleton.mpr List.mem_cons_self

namespace FindEntry

/-- The result data can be copied back. -/
def CanCopy (e : FindEntry env) : Prop :=
  env.probe .dataWrite = .NO_ERROR ∧ (e.usLevel = FIL_QUERYEASFROMLIST → EaopFits env)

/-- The caller's memory `c` behind the copies of the exchange buffers `q` and `m`. -/
def copied (e : FindEntry env) (c : Memory) (q : Request) (m : Memory) : Memory :=
  if e.usLevel = FIL_QUERYEASFROMLIST then
    (c.blit (e.pData + 8) (Memory.le32Bytes q.oError.toNat)).blit (e.pData + sizeofEAOP.toNat)
      (m.slice 0 (e.cbData - sizeofEAOP).toNat)
  else c.blit e.pData (m.slice 0 e.cbData.toNat)

/-- The copies. -/
def outs (e : FindEntry env) : List StubEvent :=
  if e.usLevel = FIL_QUERYEASFROMLIST then
    [.copyOut (e.pData + 8) 4, .copyOut (e.pData + sizeofEAOP.toNat) (e.cbData - sizeofEAOP)]
  else [.copyOut e.pData e.cbData]

/-- What `copyFindData` comes to. -/
theorem copyFindData_ends (e : FindEntry env) (u : StubState δ) :
    Ends (copyFindData env e.giveUp e.usLevel e.pData e.cbData)
      (fun _ t => (¬ CopiesBack u.pRequest.rc ∧ Prepared u u.pRequest u.pFSData t) ∨
        (CopiesBack u.pRequest.rc ∧ e.CanCopy ∧
          Copied u (e.copied u.caller u.pRequest u.pFSData) e.outs t))
      (fun rc t => (CopiesBack u.pRequest.rc ∧ ¬ e.CanCopy) ∧
        rc = e.giveUpCode .ERROR_INVALID_PARAMETER ∧ GaveUp u t) u := by
  have hgiveUp {t : StubState δ} (hback : CopiesBack u.pRequest.rc) (hcopy : ¬ e.CanCopy)
      (ht : Prepared u u.pRequest u.pFSData t) {Q : Unit → StubState δ → Prop} :
      Ends (e.giveUp .ERROR_INVALID_PARAMETER) Q (fun rc t => (CopiesBack u.pRequest.rc ∧
        ¬ e.CanCopy) ∧ rc = e.giveUpCode .ERROR_INVALID_PARAMETER ∧ GaveUp u t) t :=
    (e.givesUp _ t).mono (fun _ _ h => h.elim) fun _ _ h =>
      ⟨⟨hback, hcopy⟩, h.1, h.2.of_prepared ht⟩
  refine Ends.bind ((getRequest_prepared _ u (.refl u)).mono ?_ fun _ _ h => h)
  rintro - t ⟨rfl, ht⟩
  refine Ends.onlyIf (fun hback => ?_) fun hback => Or.inl ⟨hback, ht⟩
  refine Ends.bind ((probe_prepared _ _ _ t ht).mono ?_ fun _ _ h => h)
  rintro - t ⟨rfl, ht⟩
  refine Ends.bind (Ends.onlyIf (fun hprobe => ?_) fun hprobe => Ends.ite (fun hlevel => ?_)
    fun hlevel => ?_)
  · exact hgiveUp hback (fun hcopy => hprobe hcopy.1) ht
  · refine Ends.bind ((getRequest_prepared _ t ht).mono ?_ fun _ _ h => h)
    rintro - t ⟨rfl, ht⟩
    refine Ends.bind ((Ends.call (copyEAOP_oError_ends _ _ t)).mono ?_ fun _ _ h => h)
    rintro rc v (⟨hfits, rfl, hv⟩ | ⟨hfits, rfl, hv⟩)
    · refine Ends.bind (Ends.onlyIf (fun _ => ?_) fun h => absurd (by decide) h)
      refine hgiveUp hback (fun hcopy => hfits (hcopy.2 hlevel)) ?_
      rw [ht.request, ht.buffer] at hv
      exact ht.trans hv
    · refine Ends.bind (Ends.onlyIf (fun h => absurd rfl h) fun _ => Ends.update (Or.inr ?_))
      refine ⟨hback, ⟨not_not.mp hprobe, fun _ => hfits⟩, ?_⟩
      rw [copied, outs, if_pos hlevel, if_pos hlevel, ← ht.caller, ← ht.buffer, ← hv.caller,
        ← hv.buffer]
      exact (Copied.of_prepared ht).trans (hv.trans (.copyOut v _ _))
  · refine Ends.update (Or.inr ⟨hback, ⟨not_not.mp hprobe, fun h => absurd h hlevel⟩, ?_⟩)
    rw [copied, outs, if_neg hlevel, if_neg hlevel, ← ht.caller, ← ht.buffer]
    exact (Copied.of_prepared ht).trans (.copyOut t _ _)

/-! ### The outcomes -/

/-- The call gets as far as to signal the daemon. -/
def Reaches (e : FindEntry env) (s : StubState δ) : Prop :=
  acquireCode env = .NO_ERROR ∧ e.nameFits ∧ findError env s.caller e.usLevel e.pData = .NO_ERROR

/-- What the call returns when it gets not as far. -/
def IsRefusal (e : FindEntry env) (s : StubState δ) (rc : ApiRet) : Prop :=
  (acquireCode env ≠ .NO_ERROR ∧ rc = acquireCode env) ∨
    (acquireCode env = .NO_ERROR ∧ ¬ e.nameFits ∧ rc = exitCode env .ERROR_INVALID_PARAMETER) ∨
    (acquireCode env = .NO_ERROR ∧ e.nameFits ∧
      findError env s.caller e.usLevel e.pData ≠ .NO_ERROR ∧
      rc = findError env s.caller e.usLevel e.pData)

/-- The data buffer that is handed over. -/
def buffer (e : FindEntry env) (s : StubState δ) : Memory :=
  s.pFSData.blit 0 (findIn s.caller e.usLevel e.pData)

/-- The request buffer behind the work of the daemon. -/
def answer (e : FindEntry env) (s : StubState δ) : Request :=
  (env.daemon s.daemon (e.request s.pRequest) (e.buffer s)).2.1

/-- The data buffer behind the work of the daemon. -/
def result (e : FindEntry env) (s : StubState δ) : Memory :=
  (env.daemon s.daemon (e.request s.pRequest) (e.buffer s)).2.2

/-- The call from `s` comes to a code, the caller's memory and the events of a trace. -/
inductive Outcome (e : FindEntry env) (s : StubState δ) :
    ApiRet → Memory → List StubEvent → Prop
  | refused {rc es} (hrefusal : e.IsRefusal s rc) (hes : ∀ ev ∈ es, IsInner ev) :
    Outcome e s rc s.caller es
  | lost {es} (hreaches : e.Reaches s) (hsignal : signalCode env .request ≠ .NO_ERROR)
    (hes : ∀ ev ∈ es, IsInner ev ∨ ev = .clearRqAvail (e.request s.pRequest) (e.buffer s)) :
    Outcome e s (exitCode env (signalCode env .request)) s.caller es
  | answered {es} (hreaches : e.Reaches s) (hsignal : signalCode env .request = .NO_ERROR)
    (hback : ¬ CopiesBack (e.answer s).rc)
    (hes : ∀ ev ∈ es, IsInner ev ∨ ev = .clearRqAvail (e.request s.pRequest) (e.buffer s)) :
    Outcome e s (exitCode env (e.answer s).rc) s.caller es
  | gaveUp {es} (hreaches : e.Reaches s) (hsignal : signalCode env .request = .NO_ERROR)
    (hback : CopiesBack (e.answer s).rc) (hcopy : ¬ e.CanCopy)
    (hes : ∀ ev ∈ es, IsClosing ev ∨ ev = .clearRqAvail (e.request s.pRequest) (e.buffer s)) :
    Outcome e s (e.giveUpCode .ERROR_INVALID_PARAMETER) s.caller es
  | copied {es} (hreaches : e.Reaches s) (hsignal : signalCode env .request = .NO_ERROR)
    (hback : CopiesBack (e.answer s).rc) (hcopy : e.CanCopy)
    (hes : ∀ ev ∈ es, (IsInner ev ∨ ev = .clearRqAvail (e.request s.pRequest) (e.buffer s)) ∨
      ev ∈ e.outs)
    (houts : ∀ ev ∈ e.outs, ev ∈ es)
    (hhands : .clearRqAvail (e.request s.pRequest) (e.buffer s) ∈ es) :
    Outcome e s (exitCode env (e.answer s).rc)
      (e.copied s.caller (e.answer s) (e.result s)) es

/-- What is known behind the signal. -/
theorem answer_of_afterSignal {e : FindEntry env} {s t : StubState δ}
    (hsignal : signalCode env .request = .NO_ERROR)
    (h : AfterSignal env .request s (e.request s.pRequest) (e.buffer s) t) :
    t.pRequest = e.answer s ∧ t.pFSData = e.result s := by
  have hworks := h.works hsignal
  rw [answer, result, ← hworks]
  exact ⟨rfl, rfl⟩

/-- Every call comes to one of the outcomes. -/
theorem body_ends (e : FindEntry env) (s : StubState δ) :
    Ends e.body (fun _ _ => False)
      (fun rc t => ∃ es, t.trace = es ++ s.trace ∧ e.Outcome s rc t.caller es) s := by
  refine @exchange_ends_of _ env s (e.request s.pRequest) (e.buffer s) _ _
    (e.nameFits ∧ findError env s.caller e.usLevel e.pData = .NO_ERROR) _ ?_ ?_ ?_ ?_
  -- the exchange buffers are not there
  · rintro hacquire t ⟨-, -, hcaller, -, es, htrace, hes⟩
    rw [hcaller]
    exact ⟨es, htrace, .refused (Or.inl ⟨hacquire, rfl⟩) fun e he => (hes e he).isInner⟩
  -- the name or the GEA list is refused
  · intro hacquire
    refine (e.fills s).consequence (fun _ h => h) (fun _ _ h => h) ?_
    rintro rc t ⟨hrc, q, m, -, -, hcaller, -, es, htrace, hes⟩
    rw [hcaller]
    refine ⟨es, htrace, .refused (Or.inr ?_) fun e he => (hes e he).isInner⟩
    rcases hrc with ⟨hname, hrc⟩ | ⟨hname, rfl, hbad⟩
    · exact Or.inl ⟨hacquire, hname, hrc⟩
    · exact Or.inr ⟨hacquire, hname, hbad, rfl⟩
  -- the daemon cannot be signalled
  · rintro hacquire hfilled hsignal t ⟨hcaller, -, ⟨es, htrace, hes, -⟩, -⟩
    rw [hcaller]
    exact ⟨es, htrace, .lost ⟨hacquire, hfilled⟩ hsignal hes⟩
  -- the daemon has answered
  · intro hacquire hfilled hsignal t ht
    have hreaches : e.Reaches s := ⟨hacquire, hfilled⟩
    obtain ⟨hrequest, hbuffer⟩ := answer_of_afterSignal hsignal ht
    obtain ⟨hcaller, -, ⟨es, htrace, hes, hhands⟩, -⟩ := ht
    have hrest {u : StubState δ} {c : Memory} {outs : List StubEvent} (hu : Copied t c outs u) :
        Ends e.rest (fun rc v => rc = t.pRequest.rc ∧ Copied t c outs v) (fun _ _ => False) u := by
      refine (e.rests u).mono ?_ fun _ _ h => h
      rintro rc v ⟨rfl, hv⟩
      have hcopied := hu.trans (.of_prepared hv)
      rw [List.append_nil, hu.caller] at hcopied
      exact ⟨congrArg Request.rc hu.request, hcopied⟩
    refine Ends.bind ((e.copyFindData_ends t).mono ?_ ?_)
    · rintro - u (⟨hback, hu⟩ | ⟨hback, hcopy, hu⟩)
      · refine (hrest (.of_prepared hu)).mono ?_ fun _ _ h => h.elim
        rintro rc v ⟨rfl, -, -, hcaller', es', htrace', hes', -⟩
        rw [hrequest] at hback ⊢
        rw [hcaller', hcaller]
        refine ⟨.clearSerialize :: (es' ++ es), ?_, .answered hreaches hsignal hback ?_⟩
        · rw [htrace', htrace, List.cons_append, List.append_assoc]
        · refine List.forall_mem_cons.mpr ⟨Or.inl trivial, fun ev hev => ?_⟩
          rcases List.mem_append.mp hev with hev | hev
          · exact Or.inl ((hes' ev hev).resolve_right List.not_mem_nil)
          · exact hes ev hev
      · refine (hrest hu).mono ?_ fun _ _ h => h.elim
        rintro rc v ⟨rfl, -, -, hcaller', es', htrace', hes', houts⟩
        rw [hrequest] at hback ⊢
        rw [hcaller', hcaller, hrequest, hbuffer]
        refine ⟨.clearSerialize :: (es' ++ es), ?_, .copied hreaches hsignal hback hcopy ?_ ?_ ?_⟩
        · rw [htrace', htrace, List.cons_append, List.append_assoc]
        · refine List.forall_mem_cons.mpr ⟨Or.inl (Or.inl trivial), fun ev hev => ?_⟩
          rcases List.mem_append.mp hev with hev | hev
          · exact (hes' ev hev).imp_left Or.inl
          · exact Or.inl (hes ev hev)
        · exact fun ev hev => List.mem_cons_of_mem _ (List.mem_append_left _ (houts ev hev))
        · exact List.mem_cons_of_mem _ (List.mem_append_right _
            (hhands.mpr (handsOver_of_signalCode hsignal)))
    · rintro rc u ⟨⟨hback, hcopy⟩, rfl, hcaller', es', htrace', hes'⟩
      rw [hrequest] at hback
      rw [hcaller', hcaller]
      refine ⟨es' ++ es, ?_, .gaveUp hreaches hsignal hback hcopy fun ev hev => ?_⟩
      · rw [htrace', htrace, List.append_assoc]
      · rcases List.mem_append.mp hev with hev | hev
        · exact Or.inl (hes' ev hev)
        · exact (hes ev hev).imp_left IsInner.isClosing

/-- The entry point ends with its outcome. -/
theorem outcome (e : FindEntry env) (s : StubState δ) :
    ∃ es, (e.body.run s).2.trace = es ++ s.trace ∧
      e.Outcome s (e.body.run s).1 (e.body.run s).2.caller es :=
  (e.body_ends s).run

end FindEntry

end Stub

end Isofs
