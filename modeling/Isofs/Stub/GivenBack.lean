import Isofs.Info.Replies
import Isofs.Library.Leftover
import Isofs.Stub.EaopTransfers
import Isofs.Stub.FindBuffers
import Isofs.Stub.HandOver

/-!
# What a call gives back

The code and the caller's memory behind a search or a query of information, as a function of what
the daemon leaves in the exchange buffers.
-/

namespace Isofs

namespace Stub

open Proc Memory

variable {δ : Type} {env : StubEnv δ}

/-- What a call from `s` returns, and its caller's memory behind it. -/
def ending (body : Stub δ Empty) (s : StubState δ) : ApiRet × Memory :=
  ((body.run s).1, (body.run s).2.caller)

/-- A call from `s` gives its caller nothing of what was left in the data buffer, which is 64 KiB
large. -/
def Hides (body : Stub δ Empty) (s : StubState δ) : Prop :=
  Ignores 65536 fun m => ending body { s with pFSData := m }

/-- An entry point that copies result data back, by what it hands over and by what it makes of the
answer. -/
structure DataEntry (env : StubEnv δ) where
  body : Stub δ Empty
  reaches : Memory → Prop
  request : Request → Request
  buffer : Memory → Memory → Memory
  gives : Memory → Request → Memory → ApiRet × Memory
  unanswered : ∀ s m, ¬ (reaches s.caller ∧ signalCode env .request = .NO_ERROR) →
    ending body s = ending body { s with pFSData := m }
  answered : ∀ s, reaches s.caller → signalCode env .request = .NO_ERROR →
    let r := env.daemon s.daemon (request s.pRequest) (buffer s.caller s.pFSData)
    ending body s = gives s.caller r.2.1 r.2.2

namespace DataEntry

variable (e : DataEntry env) (s : StubState δ)

/-- The daemon answers the call. -/
def Answered : Prop := e.reaches s.caller ∧ signalCode env .request = .NO_ERROR

/-- What the call gives back when the data buffer holds `m` before it. -/
def given (m : Memory) : ApiRet × Memory :=
  let r := env.daemon s.daemon (e.request s.pRequest) (e.buffer s.caller m)
  e.gives s.caller r.2.1 r.2.2

/-- Only a call that is answered can give away what was left in the data buffer. -/
theorem hides_iff : Hides e.body s ↔ (e.Answered s → Ignores 65536 (e.given s)) := by
  by_cases hanswered : e.Answered s
  · rw [imp_iff_right hanswered]
    exact ignores_congr fun m => e.answered { s with pFSData := m } hanswered.1 hanswered.2
  · refine iff_of_true (fun m m' _ => ?_) fun h => absurd h hanswered
    exact e.unanswered { s with pFSData := m } m' hanswered

end DataEntry

/-! ### Searches -/

instance : Decidable (EaopFits env) := inferInstanceAs (Decidable (_ ∧ _))

namespace FindEntry

instance (e : FindEntry env) : Decidable e.CanCopy := inferInstanceAs (Decidable (_ ∧ (_ → _)))

/-- What a search gives back for an answer. -/
def gives (e : FindEntry env) (c : Memory) (q : Request) (m : Memory) : ApiRet × Memory :=
  if CopiesBack q.rc then
    if e.CanCopy then (exitCode env q.rc, e.copied c q m)
    else (e.giveUpCode .ERROR_INVALID_PARAMETER, c)
  else (exitCode env q.rc, c)

theorem IsRefusal.unique {e : FindEntry env} {s s' : StubState δ} (hs : s.caller = s'.caller)
    {rc rc' : ApiRet} (h : e.IsRefusal s rc) (h' : e.IsRefusal s' rc') : rc = rc' := by
  rw [IsRefusal, hs] at h
  rcases h with ⟨hacq, rfl⟩ | ⟨hacq, hname, rfl⟩ | ⟨hacq, hname, herror, rfl⟩
  all_goals rcases h' with ⟨hacq', rfl⟩ | ⟨hacq', hname', rfl⟩ | ⟨hacq', hname', herror', rfl⟩
  all_goals first | rfl | contradiction

theorem Outcome.unanswered {e : FindEntry env} {s s' : StubState δ} (hs : s.caller = s'.caller)
    (hnot : ¬ (e.Reaches s ∧ signalCode env .request = .NO_ERROR)) {rc rc' : ApiRet}
    {c c' : Memory} {es es' : List StubEvent} (h : e.Outcome s rc c es)
    (h' : e.Outcome s' rc' c' es') : (rc, c) = (rc', c') := by
  have hreaches : e.Reaches s' ↔ e.Reaches s := by rw [Reaches, Reaches, hs]
  have hnot' : ¬ (e.Reaches s' ∧ signalCode env .request = .NO_ERROR) := by rwa [hreaches]
  cases h with
  | refused hrefusal _ =>
    cases h' with
    | refused hrefusal' _ => exact Prod.ext (hrefusal.unique hs hrefusal') hs
    | lost hr _ _ => exact absurd (hreaches.mp hr) (not_reaches_of_isRefusal hrefusal)
    | answered hr hsig _ _ => exact absurd ⟨hr, hsig⟩ hnot'
    | gaveUp hr hsig _ _ _ => exact absurd ⟨hr, hsig⟩ hnot'
    | copied hr hsig _ _ _ _ _ => exact absurd ⟨hr, hsig⟩ hnot'
  | lost hr hsig _ =>
    cases h' with
    | refused hrefusal' _ => exact absurd (hreaches.mpr hr) (not_reaches_of_isRefusal hrefusal')
    | lost _ _ _ => exact Prod.ext rfl hs
    | answered _ hsig' _ _ => exact absurd hsig' hsig
    | gaveUp _ hsig' _ _ _ => exact absurd hsig' hsig
    | copied _ hsig' _ _ _ _ _ => exact absurd hsig' hsig
  | answered hr hsig _ _ => exact absurd ⟨hr, hsig⟩ hnot
  | gaveUp hr hsig _ _ _ => exact absurd ⟨hr, hsig⟩ hnot
  | copied hr hsig _ _ _ _ _ => exact absurd ⟨hr, hsig⟩ hnot

theorem Outcome.given {e : FindEntry env} {s : StubState δ} (hreaches : e.Reaches s)
    (hsignal : signalCode env .request = .NO_ERROR) {rc : ApiRet} {c : Memory}
    {es : List StubEvent} (h : e.Outcome s rc c es) :
    (rc, c) = e.gives s.caller (e.answer s) (e.result s) := by
  rw [gives]
  cases h with
  | refused hrefusal _ => exact absurd hreaches (not_reaches_of_isRefusal hrefusal)
  | lost _ hsig _ => exact absurd hsignal hsig
  | answered _ _ hback _ => rw [if_neg hback]
  | gaveUp _ _ hback hcopy _ => rw [if_pos hback, if_neg hcopy]
  | copied _ _ hback hcopy _ _ _ => rw [if_pos hback, if_pos hcopy]

/-- A search as an entry point that copies data back. -/
def data (e : FindEntry env) : DataEntry env where
  body := e.body
  reaches c := acquireCode env = .NO_ERROR ∧ e.nameFits ∧
    findError env c e.usLevel e.pData = .NO_ERROR
  request := e.request
  buffer c m := m.blit 0 (findIn c e.usLevel e.pData)
  gives := e.gives
  unanswered s m hnot := by
    obtain ⟨es, -, h⟩ := e.outcome s
    obtain ⟨es', -, h'⟩ := e.outcome { s with pFSData := m }
    exact @Outcome.unanswered _ _ e s { s with pFSData := m } rfl hnot _ _ _ _ _ _ h h'
  answered s hreaches hsignal := by
    obtain ⟨es, -, h⟩ := e.outcome s
    exact h.given hreaches hsignal

end FindEntry

/-! ### FEA lists -/

/-- The caller's memory `c` once the FEA list of the data buffer `m` is copied to `pfeas`. -/
def givenFeas (c m : Memory) (pfeas : Ptr) : Memory :=
  c.blit pfeas (m.slice 0 (UInt16.ofNat (givenLength c m pfeas)).toNat)

section Feas

variable {c m m' : Memory} {pfeas : Ptr}

/-- A list that has been written hides what was there. -/
theorem givenFeas_ignores {list : List UInt8} (h : ListBytes list) (c : Memory) (pfeas : Ptr) :
    Ignores 65536 fun m => givenFeas c (m.blit 0 list) pfeas := by
  intro m m' _
  have hcbList (m : Memory) : (m.blit 0 list).le32 0 ≤ list.length := by
    rw [le32_blit h.header m zeros]
    exact h.length
  have hgiven : givenLength c (m.blit 0 list) pfeas = givenLength c (m'.blit 0 list) pfeas := by
    rw [givenLength, givenLength, le32_blit h.header m m']
  have hle : (UInt16.ofNat (givenLength c (m'.blit 0 list) pfeas)).toNat ≤ list.length := by
    have hlist := hcbList m'
    have hsize := h.size
    rw [UInt16.toNat_ofNat', givenLength]
    split <;> omega
  dsimp only
  rw [givenFeas, givenFeas, hgiven, slice_blit_of_le hle m m']

/-- A caller without room is given nothing. -/
theorem givenFeas_of_no_room (h : c.le32 pfeas = 0) (m : Memory) : givenFeas c m pfeas = c := by
  have hzero : givenLength c m pfeas = 0 := by
    rw [givenLength, h]
    split
    · rfl
    · omega
  rw [givenFeas, hzero]
  exact blit_nil c pfeas

/-- A list that has a 16-bit length gives at least its first byte. -/
theorem givenFeas_eq_cons (hroom : c.le32 pfeas ≠ 0) (hpos : m.le32 0 ≠ 0)
    (hlt : m.le32 0 < 65536) :
    ∃ bytes, givenFeas c m pfeas = c.blit pfeas (m 0 :: bytes) := by
  have hlength : (UInt16.ofNat (givenLength c m pfeas)).toNat ≠ 0 := by
    rw [UInt16.toNat_ofNat', givenLength]
    split <;> omega
  obtain ⟨k, hk⟩ := Nat.exists_eq_succ_of_ne_zero hlength
  refine ⟨(List.range k).map fun i => m (0 + (i + 1)), ?_⟩
  rw [givenFeas, hk, slice, List.range_succ_eq_map, List.map_cons, List.map_map]
  rfl

/-- Lists that start with different bytes are told apart. -/
theorem givenFeas_ne (hroom : c.le32 pfeas ≠ 0) (hpos : m.le32 0 ≠ 0) (hlt : m.le32 0 < 65536)
    (hpos' : m'.le32 0 ≠ 0) (hlt' : m'.le32 0 < 65536) (hne : m 0 ≠ m' 0) :
    givenFeas c m pfeas ≠ givenFeas c m' pfeas := by
  obtain ⟨bytes, hbytes⟩ := givenFeas_eq_cons hroom hpos hlt
  obtain ⟨bytes', hbytes'⟩ := givenFeas_eq_cons hroom hpos' hlt'
  rw [hbytes, hbytes']
  exact blit_ne_of_head hne

end Feas

/-! ### `copyEAOP` behind the signal -/

/-- The exchange buffers are `q` and `m`, and the caller's memory is `c`. -/
structure Holds (q : Request) (c m : Memory) (t : StubState δ) : Prop where
  request : t.pRequest = q
  caller : t.caller = c
  buffer : t.pFSData = m

section Rules

variable {q : Request} {c m : Memory} {R : ApiRet → StubState δ → Prop}

theorem mustProbe_holds (site : ProbeSite) (p : Ptr) (len : UInt16) :
    Triple (Holds q c m) (mustProbe env site p len)
      (fun _ t => env.probe site = .NO_ERROR ∧ Holds q c m t)
      (fun rc t => env.probe site ≠ .NO_ERROR ∧ rc = .ERROR_INVALID_PARAMETER ∧
        Holds q c m t) := by
  rintro t ⟨hrequest, hcaller, hbuffer⟩
  exact mustProbe_ends (fun hok => ⟨hok, hrequest, hcaller, hbuffer⟩)
    fun hbad => ⟨hbad, rfl, hrequest, hcaller, hbuffer⟩

theorem setOError_holds (pEABuf : Ptr) (oError : UInt16) :
    Triple (Holds q c m) (setOError pEABuf oError)
      (fun _ => Holds q (c.blit (pEABuf + 8) (le32Bytes oError.toNat)) m) R := by
  rintro t ⟨rfl, rfl, rfl⟩
  exact Ends.update ⟨rfl, rfl, rfl⟩

theorem bufToFeas_holds (turn : Turn) (pfeas : Ptr) :
    Triple (Holds q c m) (bufToFeas env turn pfeas)
      (fun _ t => env.probe (.eaop turn .feaWrite) = .NO_ERROR ∧
        Holds q (givenFeas c m pfeas) m t)
      (fun rc t => env.probe (.eaop turn .feaWrite) ≠ .NO_ERROR ∧
        rc = .ERROR_INVALID_PARAMETER ∧ Holds q c m t) := by
  rintro t ⟨rfl, rfl, rfl⟩
  refine Ends.bind (Ends.of_ok rfl (Ends.bind (Ends.read (Ends.bind ?_))))
  exact mustProbe_ends (fun hok => Ends.update ⟨hok, rfl, rfl, rfl⟩)
    fun hbad => ⟨hbad, rfl, rfl, rfl, rfl⟩

end Rules

namespace EaopCall

variable (e : EaopCall δ)

/-- The caller's memory once the error offset is stored. -/
def withError (c : Memory) : Memory :=
  if e.SetsError then c.blit (e.pEABuf + 8) (le32Bytes e.oError.toNat) else c

/-- The `EAOP` is accessible. -/
def HeadFits : Prop :=
  e.env.probe (.eaop e.turn .eaopRead) = .NO_ERROR ∧
    (e.SetsError → e.env.probe (.eaop e.turn .eaopWrite) = .NO_ERROR)

/-- The caller's FEA list is accessible. -/
def FeasFit : Prop :=
  e.env.probe (.eaop e.turn .feaLength) = .NO_ERROR ∧
    e.env.probe (.eaop e.turn .feaWrite) = .NO_ERROR

instance : Decidable e.HeadFits := inferInstanceAs (Decidable (_ ∧ (_ → _)))
instance : Decidable e.FeasFit := inferInstanceAs (Decidable (_ ∧ _))

/-- The code and the caller's memory behind a call that takes no list, when the caller's memory is
`c` and the data buffer `m`. -/
def left (c m : Memory) : ApiRet × Memory :=
  if e.HeadFits then
    if e.GivesFeas then
      if e.FeasFit then (.NO_ERROR, givenFeas (e.withError c) m (c.le32 (e.pEABuf + 4)))
      else (.ERROR_INVALID_PARAMETER, e.withError c)
    else (.NO_ERROR, e.withError c)
  else (.ERROR_INVALID_PARAMETER, c)

variable {q : Request} {c m : Memory}

/-- The FEA list of the data buffer is given. -/
theorem giveFeas_holds (htakes : ¬ e.TakesFeas) (hgives : e.GivesFeas) (pfeas : Ptr) :
    Triple (Holds q c m) (do
        mustProbe e.env (.eaop e.turn .feaLength) pfeas 4
        onlyIf e.TakesFeas (listToBuf e.env e.turn .feaRead pfeas)
        onlyIf e.GivesFeas (bufToFeas e.env e.turn pfeas))
      (fun _ t => e.FeasFit ∧ Holds q (givenFeas c m pfeas) m t)
      (fun rc t => ¬ e.FeasFit ∧ rc = .ERROR_INVALID_PARAMETER ∧ Holds q c m t) := by
  rw [onlyIf_of_false htakes, onlyIf_of_true hgives]
  refine Triple.bind ((mustProbe_holds _ _ _).consequence (fun _ h => h) (fun _ _ h => h)
    fun _ _ h => ⟨fun hfit => h.1 hfit.1, h.2⟩) fun _ => Triple.given fun hlength => ?_
  refine Triple.bind (Triple.pure fun _ h => h) fun _ => (bufToFeas_holds _ _).consequence
    (fun _ h => h) (fun _ _ h => ⟨⟨hlength, h.1⟩, h.2⟩) fun _ _ h => ⟨fun hfit => h.1 hfit.2, h.2⟩

/-- The error offset is stored, if it is asked for. -/
theorem head_holds (hread : e.env.probe (.eaop e.turn .eaopRead) = .NO_ERROR) :
    Triple (Holds q c m) (onlyIf e.SetsError do
        mustProbe e.env (.eaop e.turn .eaopWrite) e.pEABuf sizeofEAOP
        setOError e.pEABuf e.oError)
      (fun _ t => e.HeadFits ∧ Holds q (e.withError c) m t)
      (fun rc t => ¬ e.HeadFits ∧ rc = .ERROR_INVALID_PARAMETER ∧ Holds q c m t) := by
  refine Triple.onlyIf (fun hsets => ?_) fun hsets t h => ?_
  · rw [withError, if_pos hsets]
    refine Triple.bind ((mustProbe_holds _ _ _).consequence (fun _ h => h) (fun _ _ h => h)
      fun _ _ h => ⟨fun hfits => h.1 (hfits.2 hsets), h.2⟩) fun _ => Triple.given fun hwrite => ?_
    exact (setOError_holds _ _).consequence (fun _ h => h)
      (fun _ _ h => ⟨⟨hread, fun _ => hwrite⟩, h⟩) fun _ _ h => h
  · rw [withError, if_neg hsets]
    exact ⟨⟨hread, fun h => absurd h hsets⟩, h⟩

/-- A call that takes no list leaves `left`. -/
theorem body_left (htakes : ¬ e.TakesFeas) (hgeas : ¬ e.TakesGeas) :
    Triple (Holds q c m) e.body (fun _ _ => False)
      (fun rc t => rc = (e.left c m).1 ∧ Holds q (e.left c m).2 m t) := by
  rw [body, copyEAOP]
  refine Triple.bind ((mustProbe_holds _ _ _).consequence (fun _ h => h) (fun _ _ h => h) ?_)
    fun _ => Triple.given fun hread => ?_
  · rintro rc t ⟨hbad, hrc, h⟩
    rw [left, if_neg fun hfits => hbad hfits.1]
    exact ⟨hrc, h⟩
  refine Triple.bind (Q := fun _ => Holds q c m) (Triple.read fun _ h => h) fun pgeas => ?_
  refine Triple.bind (Q := fun p t => p = c.le32 (e.pEABuf + 4) ∧ Holds q c m t)
    (Triple.read fun t h => ⟨congrArg (·.le32 (e.pEABuf + 4)) h.caller, h⟩)
    fun _ => Triple.given ?_
  rintro rfl
  refine Triple.bind ((e.head_holds hread).consequence (fun _ h => h) (fun _ _ h => h) ?_)
    fun _ => Triple.given fun hhead => ?_
  · rintro rc t ⟨hbad, hrc, h⟩
    rw [left, if_neg hbad]
    exact ⟨hrc, h⟩
  rw [left, if_pos hhead]
  -- no GEA list is taken behind the FEA list
  have hrest {c' : Memory} : Triple (Holds q c' m) (do
      onlyIf e.TakesGeas do
        mustProbe e.env (.eaop e.turn .geaLength) pgeas 4
        listToBuf e.env e.turn .geaRead pgeas
      ret .NO_ERROR : Stub δ Empty) (fun _ _ => False)
      (fun rc t => rc = .NO_ERROR ∧ Holds q c' m t) := by
    rw [onlyIf_of_false hgeas]
    exact Triple.bind (Triple.pure fun _ h => h) fun _ => Triple.ret fun _ h => ⟨rfl, h⟩
  by_cases hgives : e.GivesFeas
  · rw [if_pos hgives]
    refine Triple.bind (Q := fun _ t => e.FeasFit ∧
      Holds q (givenFeas (e.withError c) m (c.le32 (e.pEABuf + 4))) m t) ?_
      fun _ => Triple.given fun hfit => ?_
    · refine Triple.onlyIf (fun _ => ?_) fun hnone => absurd (Or.inr hgives) hnone
      refine (e.giveFeas_holds htakes hgives _).consequence (fun _ h => h) (fun _ _ h => h) ?_
      rintro rc t ⟨hfit, hrc, h⟩
      rw [if_neg hfit]
      exact ⟨hrc, h⟩
    · rw [if_pos hfit]
      exact hrest
  · rw [if_neg hgives]
    refine Triple.bind (Q := fun _ => Holds q (e.withError c) m) ?_ fun _ => hrest
    exact Triple.onlyIf (fun hany => absurd hany (not_or.mpr ⟨htakes, hgives⟩)) fun _ _ h => h

/-! ### What it leaves of the data buffer -/

/-- Some of the FEA list of the data buffer is given, to a caller that has room for it. -/
structure Discloses (c : Memory) : Prop where
  gives : e.GivesFeas
  head : e.HeadFits
  feas : e.FeasFit
  room : (e.withError c).le32 (c.le32 (e.pEABuf + 4)) ≠ 0

/-- A list that has been written is all that can be given. -/
theorem left_ignores {list : List UInt8} (h : ListBytes list) (c : Memory) :
    Ignores 65536 fun m => e.left c (m.blit 0 list) := by
  simp only [left]
  split
  · split
    · split
      · exact (Ignores.const _ _).pair (givenFeas_ignores h _ _)
      · exact .const _ _
    · exact .const _ _
  · exact .const _ _

/-- Nothing is given if it is not disclosed. -/
theorem left_of_not_discloses (h : ¬ e.Discloses c) (m m' : Memory) : e.left c m = e.left c m' := by
  rw [left, left]
  split
  · next hhead =>
    split
    · next hgives =>
      split
      · next hfeas =>
        have hroom : (e.withError c).le32 (c.le32 (e.pEABuf + 4)) = 0 := by
          by_contra hroom
          exact h ⟨hgives, hhead, hfeas, hroom⟩
        rw [givenFeas_of_no_room hroom, givenFeas_of_no_room hroom]
      · rfl
    · rfl
  · rfl

theorem left_code (c m : Memory) :
    (e.left c m).1 = .NO_ERROR ∨ (e.left c m).1 = .ERROR_INVALID_PARAMETER := by
  rw [left]
  split
  · split
    · split
      · exact Or.inl rfl
      · exact Or.inr rfl
    · exact Or.inl rfl
  · exact Or.inr rfl

/-- Lists whose lengths differ in their first byte leave different memories. -/
theorem Discloses.left_ne {e : EaopCall δ} (h : e.Discloses c) {m m' : Memory} {n n' : ℕ}
    (hn : m.le32 0 = n) (hn' : m'.le32 0 = n') (hrange : n ≠ 0 ∧ n < 65536)
    (hrange' : n' ≠ 0 ∧ n' < 65536) (hne : n % 256 ≠ n' % 256) :
    (e.left c m).2 ≠ (e.left c m').2 := by
  have hbyte : m 0 ≠ m' 0 := by
    intro hbyte
    have hmod (m : Memory) : m.le32 0 % 256 = (m 0).toNat := by
      have hlt := (m 0).toNat_lt
      rw [le32]
      omega
    rw [← hn, ← hn', hmod, hmod, hbyte] at hne
    exact hne rfl
  subst hn hn'
  rw [left, left, if_pos h.head, if_pos h.gives, if_pos h.feas, if_pos h.head, if_pos h.gives,
    if_pos h.feas]
  exact givenFeas_ne h.room hrange.1 hrange.2 hrange'.1 hrange'.2 hbyte

end EaopCall

/-! ### Queries -/

/-- The call of `copyEAOP` behind the signal. -/
def postCall (env : StubEnv δ) (pData : Ptr) (usWhat oError : UInt16) : EaopCall δ :=
  ⟨env, .post, pData, usWhat, oError⟩

/-- The code of `copyFileInfoBufPost` and the caller's memory behind it, when that memory is `c` and
the data buffer `m`. -/
def infoLeft (env : StubEnv δ) (fsFlag usLevel cbData : UInt16) (pData : Ptr) (oError : UInt16)
    (c m : Memory) : ApiRet × Memory :=
  if fsFlag &&& FI_SET ≠ 0 then
    if usLevel = 2 then (postCall env pData CEA_SET_OERROR oError).left c m else (.NO_ERROR, c)
  else if usLevel = 3 then
    (postCall env pData (CEA_BUF_TO_FEAS ||| CEA_SET_OERROR) oError).left c m
  else if usLevel = 4 then (postCall env pData CEA_BUF_TO_FEAS 0).left c m
  else if env.probe .dataWrite = .NO_ERROR then
    (.NO_ERROR, c.blit pData (m.slice 0 cbData.toNat))
  else (exitCode env .ERROR_INVALID_PARAMETER, c)

section Info

variable {q : Request} {c m : Memory}

theorem copyFileInfoBufPost_left (fsFlag usLevel cbData : UInt16) (pData : Ptr) (oError : UInt16) :
    Triple (Holds q c m) (copyFileInfoBufPost env fsFlag usLevel cbData pData oError)
      (fun _ _ => False)
      (fun rc t => rc = (infoLeft env fsFlag usLevel cbData pData oError c m).1 ∧
        Holds q (infoLeft env fsFlag usLevel cbData pData oError c m).2 m t) := by
  -- what `copyEAOP` returns is passed on
  have heaop (usWhat oError : UInt16) (htakes : usWhat &&& CEA_FEAS_TO_BUF = 0)
      (hgeas : usWhat &&& CEA_GEAS_TO_BUF = 0) : Triple (Holds q c m) (do
        let rc ← call (copyEAOP env .post pData usWhat oError)
        returnOnError rc
        ret .NO_ERROR : Stub δ Empty) (fun _ _ => False)
      (fun rc t => rc = ((postCall env pData usWhat oError).left c m).1 ∧
        Holds q ((postCall env pData usWhat oError).left c m).2 m t) := by
    refine Triple.bind (Triple.call ((postCall env pData usWhat oError).body_left
      (not_not.mpr htakes) (not_not.mpr hgeas))) fun rc => Triple.given ?_
    rintro rfl
    refine Triple.bind (Triple.onlyIf (fun _ => Triple.ret fun _ h => ⟨rfl, h⟩) fun hok _ h =>
      (⟨hok, h⟩ : ¬ _ ≠ ApiRet.NO_ERROR ∧ _)) fun _ => Triple.given fun hok =>
        Triple.ret fun _ h => ⟨(not_not.mp hok).symm, h⟩
  rw [copyFileInfoBufPost, infoLeft]
  split
  · split
    · exact heaop _ _ (by decide) (by decide)
    · exact Triple.ret fun _ h => ⟨rfl, h⟩
  · split
    · exact heaop _ _ (by decide) (by decide)
    · split
      · exact heaop _ _ (by decide) (by decide)
      · rintro t ⟨rfl, rfl, rfl⟩
        refine Ends.bind (Ends.of_ok (probe_apply ..) (Ends.bind ?_))
        split
        · next hok =>
          rw [releaseOnError, onlyIf_of_false (not_not.mpr hok)]
          exact Ends.pure (Ends.bind (Ends.update (Ends.ret ⟨rfl, rfl, rfl, rfl⟩)))
        · next hbad =>
          rw [releaseOnError, onlyIf_of_true hbad]
          exact Ends.bind (Ends.update (Ends.ret ⟨rfl, rfl, rfl, rfl⟩))

/-- The code behind `infoPost`, and the caller's memory. -/
theorem infoPost_left (fsFlag usLevel cbData : UInt16) (pData : Ptr) :
    Triple (Holds q c m) (infoPost env fsFlag usLevel cbData pData)
      (fun rc t =>
        rc = (if q.rc ≠ .NO_ERROR then q.rc
          else (infoLeft env fsFlag usLevel cbData pData q.oError c m).1) ∧
        Holds q (infoLeft env fsFlag usLevel cbData pData q.oError c m).2 m t)
      (fun _ _ => False) := by
  refine Triple.bind (Q := fun oError t => oError = q.oError ∧ Holds q c m t) ?_
    fun _ => Triple.given ?_
  · rintro t ⟨rfl, rfl, rfl⟩
    exact ⟨rfl, rfl, rfl, rfl⟩
  rintro rfl
  refine Triple.bind (Triple.call (copyFileInfoBufPost_left _ _ _ _ _)) fun _ => Triple.given ?_
  rintro rfl
  rintro t ⟨rfl, hcaller, rfl⟩
  exact Ends.bind (Ends.of_ok rfl (Ends.pure ⟨rfl, rfl, hcaller, rfl⟩))

end Info

/-- An entry point that sets or asks for information. -/
structure InfoEntry (env : StubEnv δ) where
  nameFits : Prop
  request : Request → Request
  fsFlag : UInt16
  usLevel : UInt16
  cbData : UInt16
  pData : Ptr
  fill : Stub δ Unit
  finish : Stub δ ApiRet
  rq : ∀ r, (request r).rq = .FSRQ_FILEINFO ∨ (request r).rq = .FSRQ_PATHINFO
  flag : ∀ r, (request r).fsFlag = fsFlag
  level : ∀ r, (request r).usLevel = usLevel
  size : ∀ r, (request r).cbData = cbData
  fills : ∀ s, Triple (Prepared s s.pRequest s.pFSData) fill
    (fun _ t => nameFits ∧ Prepared s (request s.pRequest)
      (infoBuffer env s.caller fsFlag usLevel cbData pData s.pFSData) t)
    (fun rc t => (¬ nameFits ∧ rc = exitCode env .ERROR_INVALID_PARAMETER) ∧
      ∃ q m, Prepared s q m t)
  finishes : ∀ q c m, Triple (Holds q c m) finish
    (fun rc t =>
      rc = (if q.rc ≠ .NO_ERROR then q.rc
        else (infoLeft env fsFlag usLevel cbData pData q.oError c m).1) ∧
      Holds q (infoLeft env fsFlag usLevel cbData pData q.oError c m).2 m t)
    (fun _ _ => False)

namespace InfoEntry

variable (e : InfoEntry env)

def body : Stub δ Empty := exchange env e.fill e.finish

/-- What a query gives back for an answer. -/
def gives (c : Memory) (q : Request) (m : Memory) : ApiRet × Memory :=
  let left := infoLeft env e.fsFlag e.usLevel e.cbData e.pData q.oError c m
  (exitCode env (if q.rc ≠ .NO_ERROR then q.rc else left.1), left.2)

/-- A call that is not answered returns a code of its own, and leaves the caller's memory alone. -/
theorem refused_ends : ∃ rc, ∀ s : StubState δ,
    ¬ ((acquireCode env = .NO_ERROR ∧ e.nameFits) ∧ signalCode env .request = .NO_ERROR) →
    ending e.body s = (rc, s.caller) := by
  by_cases hacquire : acquireCode env = .NO_ERROR
  swap
  · refine ⟨acquireCode env, fun s _ => Ends.run (@exchange_ends_of _ env s s.pRequest s.pFSData _ _
      True (fun rc t => (rc, t.caller) = _) ?_ ?_ ?_ ?_)⟩
    · exact fun _ t ht => Prod.ext rfl ht.caller
    · exact fun h => absurd h hacquire
    · exact fun h => absurd h hacquire
    · exact fun h => absurd h hacquire
  by_cases hname : e.nameFits
  · refine ⟨exitCode env (signalCode env .request),
      fun s hnot => Ends.run (@exchange_ends_of _ env s
      (e.request s.pRequest) (infoBuffer env s.caller e.fsFlag e.usLevel e.cbData e.pData s.pFSData)
      _ _ e.nameFits (fun rc t => (rc, t.caller) = _) ?_ ?_ ?_ ?_)⟩
    · exact fun h => absurd hacquire h
    · exact fun _ => (e.fills s).consequence (fun _ h => h) (fun _ _ h => h)
        fun _ _ h => absurd hname h.1.1
    · exact fun _ _ _ t ht => Prod.ext rfl ht.caller
    · exact fun _ _ hsignal => absurd ⟨⟨hacquire, hname⟩, hsignal⟩ hnot
  · refine ⟨exitCode env .ERROR_INVALID_PARAMETER, fun s _ => Ends.run (@exchange_ends_of _ env s
      (e.request s.pRequest) (infoBuffer env s.caller e.fsFlag e.usLevel e.cbData e.pData s.pFSData)
      _ _ e.nameFits (fun rc t => (rc, t.caller) = _) ?_ ?_ ?_ ?_)⟩
    · exact fun h => absurd hacquire h
    · refine fun _ => (e.fills s).consequence (fun _ h => h) (fun _ _ h => h) ?_
      rintro rc t ⟨⟨-, rfl⟩, q, m, ht⟩
      exact Prod.ext rfl ht.caller
    · exact fun _ h => absurd h hname
    · exact fun _ h => absurd h hname

/-- A query as an entry point that copies data back. -/
def data : DataEntry env where
  body := e.body
  reaches _ := acquireCode env = .NO_ERROR ∧ e.nameFits
  request := e.request
  buffer c m := infoBuffer env c e.fsFlag e.usLevel e.cbData e.pData m
  gives := e.gives
  unanswered s m hnot := by
    obtain ⟨rc, hrc⟩ := e.refused_ends
    rw [hrc s hnot, hrc { s with pFSData := m } hnot]
  answered s hreaches hsignal := by
    refine Ends.run (@exchange_ends_of _ env s (e.request s.pRequest)
      (infoBuffer env s.caller e.fsFlag e.usLevel e.cbData e.pData s.pFSData) _ _ e.nameFits
      (fun rc t => (rc, t.caller) = _) ?_ ?_ ?_ ?_)
    · exact fun h => absurd hreaches.1 h
    · exact fun _ => (e.fills s).consequence (fun _ h => h) (fun _ _ h => h)
        fun _ _ h => absurd hreaches.2 h.1.1
    · exact fun _ _ h => absurd hsignal h
    · rintro - - - t ht
      have hworks := ht.works hsignal
      refine (e.finishes t.pRequest s.caller t.pFSData t ⟨rfl, ht.caller, rfl⟩).mono ?_
        fun _ _ h => h.elim
      rintro rc u ⟨rfl, -, hcaller, -⟩
      rw [← hworks]
      exact Prod.ext rfl hcaller

end InfoEntry

/-- `FS_FILEINFO`. -/
def fileInfoEntry (env : StubEnv δ) (fsFlag : UInt16) (sffsi : Sffsi) (psffsd : Ptr)
    (usLevel : UInt16) (pData : Ptr) (cbData fsIOFlag : UInt16) : InfoEntry env where
  nameFits := True
  request r :=
    { fileRequest env .FSRQ_FILEINFO sffsi psffsd r with
      fsFlag := fsFlag, usLevel := usLevel, cbData := cbData, fsIOFlag := fsIOFlag }
  fsFlag := fsFlag
  usLevel := usLevel
  cbData := cbData
  pData := pData
  fill := do
    setRequest fun r =>
      { fileRequest env .FSRQ_FILEINFO sffsi psffsd r with
        fsFlag := fsFlag, usLevel := usLevel, cbData := cbData, fsIOFlag := fsIOFlag }
    let _ ← call (copyFileInfoBufPre env fsFlag usLevel cbData pData)
  finish := do
    returnSffsi
    infoPost env fsFlag usLevel cbData pData
  rq _ := Or.inl rfl
  flag _ := rfl
  level _ := rfl
  size _ := rfl
  fills _ := (setRequest_prepared _).bind fun _ => (infoPre_prepared _ _ _ _).consequence
    (fun _ h => h) (fun _ _ h => ⟨trivial, h⟩) fun _ _ h => h
  finishes q c m := by
    refine Triple.bind (Q := fun _ => Holds q c m) ?_ fun _ => infoPost_left _ _ _ _
    rintro t ⟨rfl, rfl, rfl⟩
    exact Ends.bind (Ends.of_ok rfl (Ends.update ⟨rfl, rfl, rfl⟩))

/-- `FS_PATHINFO`. -/
def pathInfoEntry (env : StubEnv δ) (fsFlag : UInt16) (cdfsi : Cdfsi) (cdfsd : Cdfsd)
    (pszName : List UInt8) (iCurDirEnd usLevel : UInt16) (pData : Ptr) (cbData : UInt16) :
    InfoEntry env where
  nameFits := pszName.length < CCHMAXPATH
  request r :=
    { r with
      rq := .FSRQ_PATHINFO, pVolData := env.queryVPFSD cdfsi.cdiHVPB, cdfsi := cdfsi
      cdfsd := cdfsd, szName := pszName, iCurDirEnd := iCurDirEnd, fsFlag := fsFlag
      usLevel := usLevel, cbData := cbData }
  fsFlag := fsFlag
  usLevel := usLevel
  cbData := cbData
  pData := pData
  fill := do
    pathRequest env .FSRQ_PATHINFO cdfsi cdfsd pszName iCurDirEnd
    setRequest fun r => { r with fsFlag := fsFlag, usLevel := usLevel, cbData := cbData }
    let _ ← call (copyFileInfoBufPre env fsFlag usLevel cbData pData)
  finish := infoPost env fsFlag usLevel cbData pData
  rq _ := Or.inr rfl
  flag _ := rfl
  level _ := rfl
  size _ := rfl
  fills _ := Triple.bind ((pathRequest_prepared _ _ _ _ _).consequence (fun _ h => h)
    (fun _ _ h => h) fun _ _ ⟨hname, hrc, q, ht⟩ => ⟨⟨hname, hrc⟩, q, _, ht⟩) fun _ =>
      Triple.given fun hname => (setRequest_prepared _).bind fun _ =>
        (infoPre_prepared _ _ _ _).consequence (fun _ h => h) (fun _ _ h => ⟨hname, h⟩)
          fun _ _ h => h
  finishes _ _ _ := infoPost_left _ _ _ _

/-- The entry of a call on information. -/
def StubCall.infoEntry (env : StubEnv δ) : StubCall → Option (InfoEntry env)
  | .fsFileInfo fsFlag sffsi psffsd usLevel pData cbData fsIOFlag =>
    some (fileInfoEntry env fsFlag sffsi psffsd usLevel pData cbData fsIOFlag)
  | .fsPathInfo fsFlag cdfsi cdfsd pszName iCurDirEnd usLevel pData cbData =>
    some (pathInfoEntry env fsFlag cdfsi cdfsd pszName iCurDirEnd usLevel pData cbData)
  | _ => none

theorem body_of_infoEntry {call : StubCall} {e : InfoEntry env}
    (h : call.infoEntry env = some e) : call.body env = e.body := by
  cases call <;> first | cases h; rfl | cases h

end Stub

end Isofs
