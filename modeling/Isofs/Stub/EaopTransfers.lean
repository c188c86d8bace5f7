import Isofs.Stub.Exclusion
import Isofs.Stub.Frames

/-!
# What `copyEAOP` transfers

The lists that a call of `copyEAOP` copies, for every combination of its `usWhat` flags. A list
is copied as a whole when its length fits into 16 bits.
-/

namespace Isofs

namespace Stub

open Proc

variable {δ : Type}

/-! ### The copies in a trace -/

/-- A copy between the caller's memory at `p` and the exchange buffers. -/
inductive Transfer where
  | taken (p : Ptr) (n : ℕ)
  | given (p : Ptr) (n : ℕ)
  deriving DecidableEq, Repr

/-- The copies, in their order. -/
def transfers : List StubEvent → List Transfer
  | [] => []
  | .copyIn p len :: es => transfers es ++ [.taken p len.toNat]
  | .copyOut p len :: es => transfers es ++ [.given p len.toNat]
  | _ :: es => transfers es

/-- The probes with `PB_OPWRITE`. -/
def isWriteProbe : EaopProbe → Bool
  | .eaopWrite => true
  | .feaWrite => true
  | _ => false

/-- A probe for the access has been made whose range has the `n` bytes at `p` in it. -/
def Probed (es : List StubEvent) (write : Bool) (p : Ptr) (n : ℕ) : Prop :=
  ∃ turn site p' len, .probe (.eaop turn site) p' len ∈ es ∧ isWriteProbe site = write ∧
    p' ≤ p ∧ p + n ≤ p' + len.toNat

/-- Each copy has been probed for before. -/
def Covered : List StubEvent → Prop
  | [] => True
  | .copyIn p len :: es => Probed es false p len.toNat ∧ Covered es
  | .copyOut p len :: es => Probed es true p len.toNat ∧ Covered es
  | _ :: es => Covered es

/-- The length with which `bufToFeas` copies the list of the data buffer `m`. -/
def givenLength (c m : Memory) (pfeas : Ptr) : ℕ :=
  if 65536 < m.le32 0 ∨ c.le32 pfeas < m.le32 0 then c.le32 pfeas else m.le32 0

/-! ### The call -/

/-- A call of `copyEAOP`. -/
structure EaopCall (δ : Type) where
  env : StubEnv δ
  turn : Turn
  pEABuf : Ptr
  usWhat : UInt16
  oError : UInt16

namespace EaopCall

variable (e : EaopCall δ) (s : StubState δ)

def body : Stub δ Empty := copyEAOP e.env e.turn e.pEABuf e.usWhat e.oError

def SetsError : Prop := e.usWhat &&& CEA_SET_OERROR ≠ 0
def TakesFeas : Prop := e.usWhat &&& CEA_FEAS_TO_BUF ≠ 0
def GivesFeas : Prop := e.usWhat &&& CEA_BUF_TO_FEAS ≠ 0
def TakesGeas : Prop := e.usWhat &&& CEA_GEAS_TO_BUF ≠ 0

instance : Decidable e.SetsError := inferInstanceAs (Decidable (_ ≠ _))
instance : Decidable e.TakesFeas := inferInstanceAs (Decidable (_ ≠ _))
instance : Decidable e.GivesFeas := inferInstanceAs (Decidable (_ ≠ _))
instance : Decidable e.TakesGeas := inferInstanceAs (Decidable (_ ≠ _))

/-- The lists that the `EAOP` points to. -/
def pgeas : Ptr := s.caller.le32 e.pEABuf
def pfeas : Ptr := s.caller.le32 (e.pEABuf + 4)

/-- The caller's memory when the FEA lists are copied. -/
def callerBefore : Memory :=
  if e.SetsError then s.caller.blit (e.pEABuf + 8) (Memory.le32Bytes e.oError.toNat) else s.caller

/-- `cbList` of the caller's FEA list. -/
def cbFeas : ℕ := (e.callerBefore s).le32 (e.pfeas s)

/-- The data buffer when its FEA list is copied. -/
def bufferBefore : Memory :=
  if e.TakesFeas then s.pFSData.blit 0 (listIn (e.callerBefore s) (e.pfeas s)) else s.pFSData

/-- `cbList` of the FEA list in the data buffer. -/
def cbBuffer : ℕ := (e.bufferBefore s).le32 0

/-- The length with which `copyEAOP` sets out to copy the FEA list of the data buffer. -/
def cbGiven : ℕ := givenLength (e.callerBefore s) (e.bufferBefore s) (e.pfeas s)

/-- The caller's memory when the GEA list is copied. -/
def callerAfter : Memory :=
  if e.GivesFeas then
    (e.callerBefore s).blit (e.pfeas s)
      ((e.bufferBefore s).slice 0 (UInt16.ofNat (e.cbGiven s)).toNat)
  else e.callerBefore s

/-- `cbList` of the GEA list. -/
def cbGeas : ℕ := (e.callerAfter s).le32 (e.pgeas s)

/-- The copies with given lengths of the lists. -/
def copiesOf (feasIn feasOut geasIn : ℕ) : List Transfer :=
  (if e.SetsError then [.given (e.pEABuf + 8) 4] else []) ++
    ((if e.TakesFeas then [.taken (e.pfeas s) feasIn] else []) ++
      if e.GivesFeas then [.given (e.pfeas s) feasOut] else []) ++
    if e.TakesGeas then [.taken (e.pgeas s) geasIn] else []

/-- The checks on the FEA lists. -/
def FeasAccepted : Prop :=
  e.env.probe (.eaop e.turn .feaLength) = .NO_ERROR ∧
    (e.TakesFeas → listError (e.cbFeas s) (e.env.probe (.eaop e.turn .feaRead)) = .NO_ERROR) ∧
    (e.GivesFeas → e.env.probe (.eaop e.turn .feaWrite) = .NO_ERROR)

/-- The FEA list of the data buffer is copied: no check before that fails. -/
structure ReachesGive : Prop where
  gives : e.GivesFeas
  eaopRead : e.env.probe (.eaop e.turn .eaopRead) = .NO_ERROR
  eaopWrite : e.SetsError → e.env.probe (.eaop e.turn .eaopWrite) = .NO_ERROR
  feas : e.FeasAccepted s

/-- None of the checks fails. -/
structure Accepts : Prop where
  eaopRead : e.env.probe (.eaop e.turn .eaopRead) = .NO_ERROR
  eaopWrite : e.SetsError → e.env.probe (.eaop e.turn .eaopWrite) = .NO_ERROR
  feaLength : e.TakesFeas ∨ e.GivesFeas → e.env.probe (.eaop e.turn .feaLength) = .NO_ERROR
  feaRead : e.TakesFeas → listError (e.cbFeas s) (e.env.probe (.eaop e.turn .feaRead)) = .NO_ERROR
  feaWrite : e.GivesFeas → e.env.probe (.eaop e.turn .feaWrite) = .NO_ERROR
  geaLength : e.TakesGeas → e.env.probe (.eaop e.turn .geaLength) = .NO_ERROR
  geaRead : e.TakesGeas → listError (e.cbGeas s) (e.env.probe (.eaop e.turn .geaRead)) = .NO_ERROR

/-- Every list is copied as a whole or the call fails, with an overflow when the FEA list of the
data buffer is longer than the caller's; each copy has been probed for. -/
structure Complete (rc : ApiRet) (es : List StubEvent) : Prop where
  complete : rc = .NO_ERROR → transfers es = e.copiesOf s (e.cbFeas s) (e.cbBuffer s) (e.cbGeas s)
  overflow : e.ReachesGive s → e.cbFeas s < e.cbBuffer s →
    rc = .ERROR_BUFFER_OVERFLOW ∧ ∃ n ≤ e.cbFeas s, .given (e.pfeas s) n ∈ transfers es
  covered : Covered es

/-- No list is too long for a 16-bit length. -/
structure Fits : Prop where
  feas : e.TakesFeas → e.cbFeas s ≠ 65536
  buffer : e.GivesFeas → e.cbBuffer s < 65536
  geas : e.TakesGeas → e.cbGeas s ≠ 65536

end EaopCall

/-! ### The statements -/

/-- Since `s` the copies `ts` have been made; they leave the caller's memory `c` and the data
buffer `m`. -/
structure Since (s : StubState δ) (c m : Memory) (ts : List Transfer) (t : StubState δ) : Prop where
  caller : t.caller = c
  buffer : t.pFSData = m
  events : ∃ es, t.trace = es ++ s.trace ∧ transfers es = ts ∧ Covered es

/-- Since `s` a check has failed. -/
def Failed (s : StubState δ) (rc : ApiRet) (t : StubState δ) : Prop :=
  (rc ≠ .NO_ERROR ∧ rc ≠ .ERROR_BUFFER_OVERFLOW) ∧ ∃ es, t.trace = es ++ s.trace ∧ Covered es

section Rules

variable {env : StubEnv δ} {s t : StubState δ} {c m : Memory} {ts : List Transfer}

theorem Since.refl (s : StubState δ) : Since s s.caller s.pFSData [] s :=
  ⟨rfl, rfl, [], rfl, rfl, trivial⟩

theorem Since.failed (h : Since s c m ts t) {rc : ApiRet}
    (hrc : rc ≠ .NO_ERROR ∧ rc ≠ .ERROR_BUFFER_OVERFLOW) : Failed s rc t := by
  obtain ⟨-, -, es, htrace, -, hcovered⟩ := h
  exact ⟨hrc, es, htrace, hcovered⟩

/-- An event that is no copy. -/
theorem Since.step (h : Since s c m ts t) (ev : StubEvent)
    (hcopies : ∀ es, transfers (ev :: es) = transfers es)
    (hcovered : ∀ es, Covered es → Covered (ev :: es)) :
    Since s c m ts { t with trace := ev :: t.trace } := by
  obtain ⟨hcaller, hbuffer, es, htrace, hts, hes⟩ := h
  exact ⟨hcaller, hbuffer, ev :: es, congrArg (ev :: ·) htrace, (hcopies es).trans hts,
    hcovered es hes⟩

/-- The bytes behind a probe for reading are taken over. -/
theorem Since.taken (h : Since s c m ts t) {turn : Turn} {site : EaopProbe} {p : Ptr} {len : UInt16}
    (hsite : isWriteProbe site = false) :
    Since s c (m.blit 0 (c.slice p len.toNat)) (ts ++ [.taken p len.toNat])
      { t with
        pFSData := t.pFSData.blit 0 (t.caller.slice p len.toNat)
        trace := .copyIn p len :: .exchange :: .probe (.eaop turn site) p len :: t.trace } := by
  obtain ⟨rfl, rfl, es, htrace, rfl, hes⟩ := h
  refine ⟨rfl, rfl, .copyIn p len :: .exchange :: .probe (.eaop turn site) p len :: es, ?_, rfl, ?_,
    hes⟩
  · exact congrArg (_ :: _ :: _ :: ·) htrace
  · refine ⟨turn, site, p, len, ?_, hsite, Nat.le_refl _, Nat.le_refl _⟩
    exact List.mem_cons_of_mem _ List.mem_cons_self

theorem mustProbe_ends {site : ProbeSite} {p : Ptr} {len : UInt16} {Q : Unit → StubState δ → Prop}
    {R : ApiRet → StubState δ → Prop}
    (hok : env.probe site = .NO_ERROR → Q () { t with trace := .probe site p len :: t.trace })
    (hbad : env.probe site ≠ .NO_ERROR →
      R .ERROR_INVALID_PARAMETER { t with trace := .probe site p len :: t.trace }) :
    Ends (mustProbe env site p len) Q R t := by
  by_cases h : env.probe site = .NO_ERROR
  · exact Ends.of_ok (mustProbe_of_ok h p len t) (hok h)
  · exact Ends.of_error (mustProbe_of_error h p len t) (hbad h)

theorem mustProbe_since (site : ProbeSite) (p : Ptr) (len : UInt16) :
    Triple (Since s c m ts) (mustProbe env site p len)
      (fun _ t => env.probe site = .NO_ERROR ∧ Since s c m ts t)
      (fun rc t => env.probe site ≠ .NO_ERROR ∧ Failed s rc t) := by
  intro t h
  have hstep := h.step (.probe site p len) (fun _ => rfl) fun _ hes => hes
  exact mustProbe_ends (fun hok => ⟨hok, hstep⟩) fun hbad => ⟨hbad, hstep.failed (by decide)⟩

theorem listToBuf_since (turn : Turn) {site : EaopProbe} (hsite : isWriteProbe site = false)
    (p : Ptr) :
    Triple (Since s c m ts) (listToBuf env turn site p)
      (fun _ t => listError (c.le32 p) (env.probe (.eaop turn site)) = .NO_ERROR ∧
        Since s c (m.blit 0 (listIn c p))
          (ts ++ [.taken p (UInt16.ofNat (c.le32 p)).toNat]) t)
      (fun rc t => listError (c.le32 p) (env.probe (.eaop turn site)) ≠ .NO_ERROR ∧
        Failed s rc t) := by
  intro t h
  have hc := h.caller
  refine Ends.bind (Ends.read ?_)
  rw [hc]
  refine Ends.bind (Ends.bind (Ends.onlyIf (fun hmin => Ends.ret ⟨?_, h.failed (by decide)⟩)
    fun hmin => Ends.onlyIf (fun hmax => Ends.ret ⟨?_, h.failed (by decide)⟩) fun hmax => ?_))
  · rw [listError, if_pos hmin]
    decide
  · rw [listError, if_neg hmin, if_pos hmax]
    decide
  have hlist : listError (c.le32 p) (env.probe (.eaop turn site)) =
      if env.probe (.eaop turn site) ≠ .NO_ERROR then .ERROR_INVALID_PARAMETER else .NO_ERROR := by
    rw [listError, if_neg hmin, if_neg hmax]
  refine Ends.bind (mustProbe_ends (fun hok => Ends.update ⟨?_, h.taken hsite⟩)
    fun hbad => ⟨?_, ?_⟩)
  · rw [hlist, if_neg (not_not.mpr hok)]
  · rw [hlist, if_pos hbad]
    decide
  · exact (h.step (.probe _ _ _) (fun _ => rfl) fun _ hes => hes).failed (by decide)

theorem bufToFeas_since (turn : Turn) (pfeas : Ptr) :
    Triple (Since s c m ts) (bufToFeas env turn pfeas)
      (fun _ t => env.probe (.eaop turn .feaWrite) = .NO_ERROR ∧
        Since s (c.blit pfeas (m.slice 0 (UInt16.ofNat (givenLength c m pfeas)).toNat)) m
          (ts ++ [.given pfeas (UInt16.ofNat (givenLength c m pfeas)).toNat]) t)
      (fun rc t => env.probe (.eaop turn .feaWrite) ≠ .NO_ERROR ∧ Failed s rc t) := by
  rintro t ⟨rfl, rfl, es, htrace, rfl, hes⟩
  refine Ends.bind (Ends.of_ok rfl (Ends.bind (Ends.read (Ends.bind ?_))))
  refine mustProbe_ends (fun hok => Ends.update ⟨hok, rfl, rfl, ?_⟩)
    fun hbad => ⟨hbad, by decide, ?_⟩
  · refine ⟨_ :: _ :: _ :: _ :: es, congrArg (_ :: _ :: _ :: _ :: ·) htrace, rfl, ?_, hes⟩
    exact ⟨turn, .feaWrite, pfeas, _, List.mem_cons_of_mem _ List.mem_cons_self, rfl, Nat.le_refl _,
      Nat.le_refl _⟩
  · exact ⟨_ :: _ :: es, congrArg (_ :: _ :: ·) htrace, hes⟩

theorem setOError_since (turn : Turn) (pEABuf : Ptr) (oError : UInt16) :
    Triple (Since s c m ts) (do
        mustProbe env (.eaop turn .eaopWrite) pEABuf sizeofEAOP
        setOError pEABuf oError)
      (fun _ t => env.probe (.eaop turn .eaopWrite) = .NO_ERROR ∧
        Since s (c.blit (pEABuf + 8) (Memory.le32Bytes oError.toNat)) m
          (ts ++ [.given (pEABuf + 8) 4]) t)
      (fun rc t => env.probe (.eaop turn .eaopWrite) ≠ .NO_ERROR ∧ Failed s rc t) := by
  rintro t ⟨rfl, rfl, es, htrace, rfl, hes⟩
  refine Ends.bind (mustProbe_ends (fun hok => Ends.update ⟨hok, rfl, rfl, ?_⟩)
    fun hbad => ⟨hbad, by decide, ?_⟩)
  · refine ⟨_ :: _ :: es, congrArg (_ :: _ :: ·) htrace, rfl, ?_, hes⟩
    exact ⟨turn, .eaopWrite, pEABuf, _, List.mem_cons_self, rfl, Nat.le_add_right pEABuf 8,
      Nat.le_of_eq (Nat.add_assoc pEABuf 8 4)⟩
  · exact ⟨_ :: es, congrArg (_ :: ·) htrace, hes⟩

/-- A part of the call that is done under a condition. -/
theorem onlyIf_since {φ : Prop} [Decidable φ] {stmt : Stub δ Unit} {check : Prop} {c' m' : Memory}
    {added : List Transfer}
    (h : Triple (Since s c m ts) stmt (fun _ t => check ∧ Since s c' m' (ts ++ added) t)
      (fun rc t => ¬ check ∧ Failed s rc t)) :
    Triple (Since s c m ts) (onlyIf φ stmt)
      (fun _ t => (φ → check) ∧
        Since s (if φ then c' else c) (if φ then m' else m) (ts ++ if φ then added else []) t)
      (fun rc t => ¬ (φ → check) ∧ Failed s rc t) := by
  by_cases hφ : φ
  · simp only [onlyIf_of_true hφ, if_pos hφ]
    exact h.consequence (fun _ h => h) (fun _ _ h => ⟨fun _ => h.1, h.2⟩)
      fun _ _ h => ⟨fun hall => h.1 (hall hφ), h.2⟩
  · simp only [onlyIf_of_false hφ, if_neg hφ, List.append_nil]
    exact Triple.pure fun _ h => ⟨fun hφ' => absurd hφ' hφ, h⟩

end Rules

namespace EaopCall

variable (e : EaopCall δ) (s : StubState δ)

/-- The copies with the lengths as `copyEAOP` casts them. -/
def copiesMade : List Transfer :=
  e.copiesOf s (UInt16.ofNat (e.cbFeas s)).toNat (UInt16.ofNat (e.cbGiven s)).toNat
    (UInt16.ofNat (e.cbGeas s)).toNat

/-- The copies of the FEA lists. -/
theorem feas_since (ts : List Transfer) :
    Triple (Since s (e.callerBefore s) s.pFSData ts) (do
        mustProbe e.env (.eaop e.turn .feaLength) (e.pfeas s) 4
        onlyIf e.TakesFeas (listToBuf e.env e.turn .feaRead (e.pfeas s))
        onlyIf e.GivesFeas (bufToFeas e.env e.turn (e.pfeas s)))
      (fun _ t => e.FeasAccepted s ∧ Since s (e.callerAfter s) (e.bufferBefore s)
        (ts ++ ((if e.TakesFeas then [.taken (e.pfeas s) (UInt16.ofNat (e.cbFeas s)).toNat]
          else []) ++
          if e.GivesFeas then [.given (e.pfeas s) (UInt16.ofNat (e.cbGiven s)).toNat] else [])) t)
      (fun rc t => ¬ e.FeasAccepted s ∧ Failed s rc t) := by
  refine Triple.bind ((mustProbe_since _ _ _).consequence (fun _ h => h) (fun _ _ h => h)
    fun rc t h => ⟨fun hacc => h.1 hacc.1, h.2⟩) fun _ => Triple.given fun hlength => ?_
  refine Triple.bind ((onlyIf_since (listToBuf_since e.turn rfl _)).consequence (fun _ h => h)
    (fun _ _ h => h) fun rc t h => ⟨fun hacc => h.1 hacc.2.1, h.2⟩)
    fun _ => Triple.given fun htakes => ?_
  rw [ite_self]
  refine (onlyIf_since (bufToFeas_since e.turn _)).consequence (fun _ h => h) ?_
    fun rc t h => ⟨fun hacc => h.1 hacc.2.2, h.2⟩
  rintro _ t ⟨hgives, h⟩
  rw [ite_self, List.append_assoc] at h
  exact ⟨⟨hlength, htakes, hgives⟩, h⟩

/-- The copies of the FEA lists, when there are any. -/
theorem anyFeas_since (ts : List Transfer) :
    Triple (Since s (e.callerBefore s) s.pFSData ts) (onlyIf (e.TakesFeas ∨ e.GivesFeas) do
        mustProbe e.env (.eaop e.turn .feaLength) (e.pfeas s) 4
        onlyIf e.TakesFeas (listToBuf e.env e.turn .feaRead (e.pfeas s))
        onlyIf e.GivesFeas (bufToFeas e.env e.turn (e.pfeas s)))
      (fun _ t => (e.TakesFeas ∨ e.GivesFeas → e.FeasAccepted s) ∧
        Since s (e.callerAfter s) (e.bufferBefore s)
        (ts ++ ((if e.TakesFeas then [.taken (e.pfeas s) (UInt16.ofNat (e.cbFeas s)).toNat]
          else []) ++
          if e.GivesFeas then [.given (e.pfeas s) (UInt16.ofNat (e.cbGiven s)).toNat] else [])) t)
      (fun rc t => ¬ (e.TakesFeas ∨ e.GivesFeas → e.FeasAccepted s) ∧ Failed s rc t) := by
  by_cases hany : e.TakesFeas ∨ e.GivesFeas
  · rw [onlyIf_of_true hany]
    exact (e.feas_since s ts).consequence (fun _ h => h) (fun _ _ h => ⟨fun _ => h.1, h.2⟩)
      fun _ _ h => ⟨fun hall => h.1 (hall hany), h.2⟩
  · have htakes : ¬ e.TakesFeas := fun h => hany (Or.inl h)
    have hgives : ¬ e.GivesFeas := fun h => hany (Or.inr h)
    rw [onlyIf_of_false hany, callerAfter, if_neg hgives, bufferBefore, if_neg htakes,
      if_neg htakes, if_neg hgives, List.append_nil, List.append_nil]
    exact Triple.pure fun _ h => ⟨fun h' => absurd h' hany, h⟩

/-- The checks on the GEA list. -/
def GeasAccepted : Prop :=
  e.env.probe (.eaop e.turn .geaLength) = .NO_ERROR ∧
    listError (e.cbGeas s) (e.env.probe (.eaop e.turn .geaRead)) = .NO_ERROR

theorem geas_since {m : Memory} {ts : List Transfer} :
    Triple (Since s (e.callerAfter s) m ts) (do
        mustProbe e.env (.eaop e.turn .geaLength) (e.pgeas s) 4
        listToBuf e.env e.turn .geaRead (e.pgeas s))
      (fun _ t => e.GeasAccepted s ∧
        Since s (e.callerAfter s) (m.blit 0 (listIn (e.callerAfter s) (e.pgeas s)))
          (ts ++ [.taken (e.pgeas s) (UInt16.ofNat (e.cbGeas s)).toNat]) t)
      (fun rc t => ¬ e.GeasAccepted s ∧ Failed s rc t) := by
  refine Triple.bind ((mustProbe_since _ _ _).consequence (fun _ h => h) (fun _ _ h => h)
    fun rc t h => ⟨fun hacc => h.1 hacc.1, h.2⟩) fun _ => Triple.given fun hlength => ?_
  exact (listToBuf_since e.turn rfl _).consequence (fun _ h => h)
    (fun _ _ h => ⟨⟨hlength, h.1⟩, h.2⟩) fun _ _ h => ⟨fun hacc => h.1 hacc.2, h.2⟩

/-- The checks, in the order in which they are made. -/
theorem accepts_iff : e.Accepts s ↔ e.env.probe (.eaop e.turn .eaopRead) = .NO_ERROR ∧
    (e.SetsError → e.env.probe (.eaop e.turn .eaopWrite) = .NO_ERROR) ∧
    (e.TakesFeas ∨ e.GivesFeas → e.FeasAccepted s) ∧ (e.TakesGeas → e.GeasAccepted s) := by
  constructor
  · rintro ⟨hread, hwrite, hlength, htakes, hgives, hglength, hgeas⟩
    exact ⟨hread, hwrite, fun h => ⟨hlength h, htakes, hgives⟩, fun h => ⟨hglength h, hgeas h⟩⟩
  · rintro ⟨hread, hwrite, hfeas, hgeas⟩
    exact ⟨hread, hwrite, fun h => (hfeas h).1, fun h => (hfeas (Or.inl h)).2.1 h,
      fun h => (hfeas (Or.inr h)).2.2 h, fun h => (hgeas h).1, fun h => (hgeas h).2⟩

/-- What comes of a call: one that is accepted makes its copies and returns `NO_ERROR`; otherwise
it fails. -/
def Outcome (rc : ApiRet) (t : StubState δ) : Prop :=
  (e.Accepts s ∧ rc = .NO_ERROR ∧ ∃ c m, Since s c m (e.copiesMade s) t) ∨
    (¬ e.Accepts s ∧ Failed s rc t)

theorem body_ends :
    Triple (Since s s.caller s.pFSData []) e.body (fun _ _ => False) (e.Outcome s) := by
  have hrefused {φ : Prop} (hφ : e.Accepts s → φ) (rc : ApiRet) (t : StubState δ)
      (h : ¬ φ ∧ Failed s rc t) : e.Outcome s rc t :=
    Or.inr ⟨fun hacc => h.1 (hφ hacc), h.2⟩
  have hparts := e.accepts_iff s
  refine Triple.bind ((mustProbe_since _ _ _).consequence (fun _ h => h) (fun _ _ h => h)
    (hrefused Accepts.eaopRead)) fun _ => Triple.given fun hread => ?_
  refine Triple.bind (Q := fun p t => p = e.pgeas s ∧ Since s s.caller s.pFSData [] t)
    (Triple.read fun t h => ⟨congrArg (·.le32 e.pEABuf) h.caller, h⟩)
    fun _ => Triple.given ?_
  rintro rfl
  refine Triple.bind (Q := fun p t => p = e.pfeas s ∧ Since s s.caller s.pFSData [] t)
    (Triple.read fun t h => ⟨congrArg (·.le32 (e.pEABuf + 4)) h.caller, h⟩)
    fun _ => Triple.given ?_
  rintro rfl
  refine Triple.bind ((onlyIf_since (setOError_since e.turn e.pEABuf e.oError)).consequence
    (fun _ h => h) (fun _ _ h => h) (hrefused Accepts.eaopWrite))
    fun _ => Triple.given fun hwrite => ?_
  rw [ite_self]
  refine Triple.bind ((e.anyFeas_since s _).consequence (fun _ h => h) (fun _ _ h => h)
    (hrefused fun hacc => (hparts.mp hacc).2.2.1)) fun _ => Triple.given fun hfeas => ?_
  refine Triple.bind ((onlyIf_since (e.geas_since s)).consequence (fun _ h => h) (fun _ _ h => h)
    (hrefused fun hacc => (hparts.mp hacc).2.2.2)) fun _ => Triple.given fun hgeas => ?_
  exact Triple.ret fun t h => Or.inl ⟨hparts.mpr ⟨hread, hwrite, hfeas, hgeas⟩, rfl, _, _, h⟩

/-- What the call returns. -/
def rc : ApiRet := (e.body.run s).1

/-- The events of the call, newest first. -/
def events : List StubEvent :=
  (e.body.run s).2.trace.take ((e.body.run s).2.trace.length - s.trace.length)

theorem events_eq {es : List StubEvent} (h : (e.body.run s).2.trace = es ++ s.trace) :
    e.events s = es := by
  rw [events, h, List.length_append, Nat.add_sub_cancel, List.take_left]

/-- The call either makes its copies and returns `NO_ERROR`, or fails, never with an overflow. -/
theorem rc_events : Covered (e.events s) ∧ e.rc s ≠ .ERROR_BUFFER_OVERFLOW ∧
    ((e.Accepts s ∧ e.rc s = .NO_ERROR ∧ transfers (e.events s) = e.copiesMade s) ∨
      (¬ e.Accepts s ∧ e.rc s ≠ .NO_ERROR)) := by
  rcases (e.body_ends s).run (.refl s) with ⟨hacc, hrc, _, _, -, -, es, htrace, hts, hes⟩ |
    ⟨hacc, ⟨hrc, hoverflow⟩, es, htrace, hes⟩
  · rw [e.events_eq s htrace, rc, hrc]
    exact ⟨hes, by decide, Or.inl ⟨hacc, rfl, hts⟩⟩
  · rw [e.events_eq s htrace]
    exact ⟨hes, hoverflow, Or.inr ⟨hacc, hrc⟩⟩

theorem copiesOf_eq_iff {a b c a' b' c' : ℕ} :
    e.copiesOf s a b c = e.copiesOf s a' b' c' ↔
      (e.TakesFeas → a = a') ∧ (e.GivesFeas → b = b') ∧ (e.TakesGeas → c = c') := by
  rw [copiesOf, copiesOf]
  by_cases htakes : e.TakesFeas <;> by_cases hgives : e.GivesFeas <;>
    by_cases hgeas : e.TakesGeas <;> simp [htakes, hgives, hgeas]

theorem toNat_ofNat_eq_iff {n : ℕ} : (UInt16.ofNat n).toNat = n ↔ n < 65536 := by
  rw [UInt16.toNat_ofNat']
  omega

/-- The FEA list of the data buffer is given as a whole when it has room and a 16-bit length. -/
theorem toNat_cbGiven_iff : (UInt16.ofNat (e.cbGiven s)).toNat = e.cbBuffer s ↔
    e.cbBuffer s ≤ e.cbFeas s ∧ e.cbBuffer s < 65536 := by
  have hgiven : e.cbGiven s =
      if 65536 < e.cbBuffer s ∨ e.cbFeas s < e.cbBuffer s then e.cbFeas s else e.cbBuffer s := rfl
  rw [hgiven, UInt16.toNat_ofNat']
  split <;> omega

/-- The copies of an accepted call are those of whole lists exactly when the lists fit. -/
theorem copiesMade_eq_iff (hacc : e.Accepts s) :
    e.copiesMade s = e.copiesOf s (e.cbFeas s) (e.cbBuffer s) (e.cbGeas s) ↔
      (e.ReachesGive s → e.cbBuffer s ≤ e.cbFeas s) ∧ e.Fits s := by
  rw [copiesMade, copiesOf_eq_iff, toNat_cbGiven_iff, toNat_ofNat_eq_iff, toNat_ofNat_eq_iff]
  obtain ⟨hread, hwrite, haccfeas, -⟩ := (e.accepts_iff s).mp hacc
  constructor
  · rintro ⟨hfeas, hbuffer, hgeas⟩
    exact ⟨fun h => (hbuffer h.gives).1, fun h => Nat.ne_of_lt (hfeas h), fun h => (hbuffer h).2,
      fun h => Nat.ne_of_lt (hgeas h)⟩
  · rintro ⟨hroom, hfeas, hbuffer, hgeas⟩
    refine ⟨fun h => Nat.lt_of_le_of_ne ((bounds_of_listError (hacc.feaRead h)).2) (hfeas h),
      fun h => ?_,
      fun h => Nat.lt_of_le_of_ne ((bounds_of_listError (hacc.geaRead h)).2) (hgeas h)⟩
    exact ⟨hroom ⟨h, hread, hwrite, haccfeas (Or.inr h)⟩, hbuffer h⟩

/-- A call of `copyEAOP` copies every list as a whole, or reports that it did not, exactly when the
FEA list that it gives is no longer than the caller's and, unless a check fails, none of the lists
that it takes has 65536 bytes and the one that it gives has fewer. -/
theorem copyEAOP_complete_iff : e.Complete s (e.rc s) (e.events s) ↔
    (e.ReachesGive s → e.cbBuffer s ≤ e.cbFeas s) ∧ (e.Accepts s → e.Fits s) := by
  obtain ⟨hcovered, hoverflow, hends⟩ := e.rc_events s
  have hroom : (e.ReachesGive s → e.cbFeas s < e.cbBuffer s → e.rc s = .ERROR_BUFFER_OVERFLOW ∧
      ∃ n ≤ e.cbFeas s, .given (e.pfeas s) n ∈ transfers (e.events s)) ↔
      (e.ReachesGive s → e.cbBuffer s ≤ e.cbFeas s) := by
    refine forall_congr' fun _ => ⟨fun h => ?_, fun h hlong => absurd h (Nat.not_le_of_lt hlong)⟩
    exact Nat.not_lt.mp fun hlong => hoverflow (h hlong).1
  rcases hends with ⟨hacc, hrc, hcopies⟩ | ⟨hacc, hrc⟩
  · have hfits := e.copiesMade_eq_iff s hacc
    constructor
    · rintro ⟨hcomplete, hreports, -⟩
      exact ⟨hroom.mp hreports, fun _ => (hfits.mp (hcopies.symm.trans (hcomplete hrc))).2⟩
    · rintro ⟨hle, hfit⟩
      exact ⟨fun _ => hcopies.trans (hfits.mpr ⟨hle, hfit hacc⟩), hroom.mpr hle, hcovered⟩
  · constructor
    · exact fun h => ⟨hroom.mp h.overflow, fun h' => absurd h' hacc⟩
    · exact fun h => ⟨fun h' => absurd h' hrc, hroom.mpr h.1, hcovered⟩

/-! ### Transfers that are not complete -/

/-- A call for the `EAOP` at address 4, of which both lists are at address 0. -/
def listsAtZero (usWhat : UInt16) : EaopCall Unit :=
  ⟨quietEnv fun _ => .NO_ERROR, .post, 4, usWhat, 0⟩

/-- The data buffer holds a list of 8 bytes, and the caller has room for 4. -/
def shortRoom : StubState Unit :=
  { idleState with
    caller := Memory.zeros.blit 0 (Memory.le32Bytes 4)
    pFSData := Memory.zeros.blit 0 (Memory.le32Bytes 8) }

/-- The caller has a list of 65536 bytes. -/
def longList : StubState Unit :=
  { idleState with caller := Memory.zeros.blit 0 (Memory.le32Bytes 65536) }

/-- A list that is clipped is not reported, and of a list of 65536 bytes nothing is copied. -/
theorem copyEAOP_incomplete :
    (¬ (listsAtZero CEA_BUF_TO_FEAS).Complete shortRoom ((listsAtZero CEA_BUF_TO_FEAS).rc shortRoom)
      ((listsAtZero CEA_BUF_TO_FEAS).events shortRoom)) ∧
    ¬ (listsAtZero CEA_GEAS_TO_BUF).Complete longList ((listsAtZero CEA_GEAS_TO_BUF).rc longList)
      ((listsAtZero CEA_GEAS_TO_BUF).events longList) := by
  constructor
  · intro h
    have hrc : (listsAtZero CEA_BUF_TO_FEAS).rc shortRoom = .NO_ERROR := by decide
    have hcopies := h.complete hrc
    revert hcopies
    decide
  · intro h
    have hrc : (listsAtZero CEA_GEAS_TO_BUF).rc longList = .NO_ERROR := by decide
    have hcopies := h.complete hrc
    revert hcopies
    decide

end EaopCall

end Stub

end Isofs
