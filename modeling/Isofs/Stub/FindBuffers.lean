import Isofs.Stub.Exclusion
import Isofs.Stub.FindOutcome

/-!
# The buffers of a search call

Which bytes of its caller's memory a search call writes, and which size it passes to the daemon.
The `EAOP` of a level 3 search is taken off the size without a look at it.
-/

namespace Isofs

namespace Stub

variable {δ : Type} {env : StubEnv δ}

/-- The entry of a search call. -/
def StubCall.findEntry (env : StubEnv δ) : StubCall → Option (FindEntry env)
  | .fsFindFirst cdfsi cdfsd pszName iCurDirEnd fsAttr pData cbData pcMatch usLevel fsFlags =>
    some (findFirstEntry env cdfsi cdfsd pszName iCurDirEnd fsAttr pData cbData pcMatch usLevel
      fsFlags)
  | .fsFindNext hVPB pfsfsd pData cbData pcMatch usLevel fsFlags =>
    some (findNextEntry env hVPB pfsfsd pData cbData pcMatch usLevel fsFlags)
  | .fsFindFromName hVPB pfsfsd pData cbData pcMatch usLevel ulPosition pszName fsFlags =>
    some (findFromNameEntry env hVPB pfsfsd pData cbData pcMatch usLevel ulPosition pszName fsFlags)
  | _ => none

theorem body_of_findEntry {call : StubCall} {e : FindEntry env}
    (h : call.findEntry env = some e) : call.body env = e.body := by
  cases call <;> first | cases h; rfl | cases h

/-- The events of a call from `s`, newest first. -/
def StubCall.events (env : StubEnv δ) (s : StubState δ) (call : StubCall) : List StubEvent :=
  ((call.body env).run { s with trace := [] }).2.trace

/-- The pieces of the caller's memory that are written. -/
def copyOuts (trace : List StubEvent) : List (Ptr × UInt16) :=
  trace.filterMap fun
    | .copyOut addr len => some (addr, len)
    | _ => none

/-- The requests that are handed over. -/
def handedOver (trace : List StubEvent) : List Request :=
  trace.filterMap fun
    | .clearRqAvail q _ => some q
    | _ => none

theorem mem_copyOuts {trace : List StubEvent} {addr : Ptr} {len : UInt16} :
    (addr, len) ∈ copyOuts trace ↔ .copyOut addr len ∈ trace := by
  rw [copyOuts, List.mem_filterMap]
  constructor
  · rintro ⟨ev, hev, h⟩
    cases ev <;> cases h
    exact hev
  · exact fun h => ⟨_, h, rfl⟩

theorem mem_handedOver {trace : List StubEvent} {q : Request} :
    q ∈ handedOver trace ↔ ∃ m, .clearRqAvail q m ∈ trace := by
  rw [handedOver, List.mem_filterMap]
  constructor
  · rintro ⟨ev, hev, h⟩
    cases ev <;> cases h
    exact ⟨_, hev⟩
  · exact fun ⟨m, h⟩ => ⟨_, h, rfl⟩

/-- Where the result data of a search starts in the caller's buffer. -/
def dataOffset (usLevel : UInt16) : ℕ :=
  if usLevel = FIL_QUERYEASFROMLIST then sizeofEAOP.toNat else 0

/-- The `n` bytes at `addr` lie in the `size` bytes at `p`. -/
def IsWithin (p size addr n : ℕ) : Prop := p ≤ addr ∧ addr + n ≤ p + size

namespace FindEntry

/-- Every byte that is written to the caller lies in its buffer, and the size that a search passes
to the daemon is at most that of the result data copied back. -/
structure Fits (e : FindEntry env) (trace : List StubEvent) : Prop where
  within : ∀ piece ∈ copyOuts trace,
    IsWithin e.pData e.cbData.toNat piece.1 piece.2.toNat
  passed : ∀ q ∈ handedOver trace, q.rq ≠ .FSRQ_FINDCLOSE →
    ∀ len, (e.pData + dataOffset e.usLevel, len) ∈ copyOuts trace → q.cbData ≤ len

/-- Result data goes back to the caller. -/
def Copies (e : FindEntry env) (s : StubState δ) : Prop :=
  e.Reaches s ∧ signalCode env .request = .NO_ERROR ∧ CopiesBack (e.answer s).rc ∧ e.CanCopy

/-- Result data goes back behind an `EAOP` that the caller's buffer does not hold. -/
def Overruns (e : FindEntry env) (s : StubState δ) : Prop :=
  e.usLevel = FIL_QUERYEASFROMLIST ∧ e.cbData < sizeofEAOP ∧ e.Copies s

theorem rq_ne_findClose (e : FindEntry env) (r : Request) : (e.request r).rq ≠ .FSRQ_FINDCLOSE := by
  rcases e.rq r with h | h | h <;> rw [h] <;> decide

/-- Without result data nothing is written. -/
theorem fits_of_closing {e : FindEntry env} {trace : List StubEvent} {q : Request} {m : Memory}
    (h : ∀ ev ∈ trace, IsClosing ev ∨ ev = .clearRqAvail q m) : e.Fits trace := by
  have hnone (addr : Ptr) (len : UInt16) : (addr, len) ∉ copyOuts trace := by
    rw [mem_copyOuts]
    intro hev
    rcases h _ hev with hclosing | heq
    · exact hclosing
    · cases heq
  exact ⟨fun piece hpiece => absurd hpiece (hnone _ _),
    fun _ _ _ _ hpiece => absurd hpiece (hnone _ _)⟩

/-- The pieces that a search writes with its result data. -/
theorem mem_outs_iff {e : FindEntry env} {addr : Ptr} {len : UInt16} :
    .copyOut addr len ∈ e.outs ↔
      (addr = e.pData + dataOffset e.usLevel ∧ len = findSize e.usLevel e.cbData) ∨
      (e.usLevel = FIL_QUERYEASFROMLIST ∧ addr = e.pData + 8 ∧ len = 4) := by
  rw [outs, dataOffset, findSize]
  by_cases hlevel : e.usLevel = FIL_QUERYEASFROMLIST
  · simp [hlevel, or_comm]
  · simp [hlevel]

/-- The `EAOP` and the result data behind it lie in a buffer that holds the `EAOP`, and only there;
at another level the result data is as long as the buffer. -/
theorem outs_within_iff (e : FindEntry env) :
    (∀ addr len, .copyOut addr len ∈ e.outs →
      IsWithin e.pData e.cbData.toNat addr len.toNat) ↔
    ¬ (e.usLevel = FIL_QUERYEASFROMLIST ∧ e.cbData < sizeofEAOP) := by
  have hheader : sizeofEAOP.toNat = 12 := rfl
  have hword : (4 : UInt16).toNat = 4 := rfl
  constructor
  · rintro h ⟨hlevel, hsmall⟩
    -- the error offset alone ends where the buffer has to reach
    obtain ⟨-, hend⟩ := h _ _ (mem_outs_iff.mpr (Or.inr ⟨hlevel, rfl, rfl⟩))
    rw [UInt16.lt_iff_toNat_lt, hheader] at hsmall
    omega
  · intro h addr len hmem
    rcases mem_outs_iff.mp hmem with ⟨rfl, rfl⟩ | ⟨hlevel, rfl, rfl⟩
    · by_cases hlevel : e.usLevel = FIL_QUERYEASFROMLIST
      · have hlarge : sizeofEAOP ≤ e.cbData := UInt16.not_lt.mp fun hsmall => h ⟨hlevel, hsmall⟩
        rw [dataOffset, findSize, if_pos hlevel, if_pos hlevel, UInt16.toNat_sub_of_le _ _ hlarge]
        rw [UInt16.le_iff_toNat_le] at hlarge
        exact ⟨Nat.le_add_right _ _, by omega⟩
      · rw [dataOffset, findSize, if_neg hlevel, if_neg hlevel]
        exact ⟨Nat.le_add_right _ _, Nat.le_refl _⟩
    · have hlarge : sizeofEAOP ≤ e.cbData := UInt16.not_lt.mp fun hsmall => h ⟨hlevel, hsmall⟩
      rw [UInt16.le_iff_toNat_le, hheader] at hlarge
      exact ⟨Nat.le_add_right _ _, by omega⟩

/-- The size that is passed is that of the copy behind the signal. -/
theorem passed_of_copied {e : FindEntry env} {s : StubState δ} {es : List StubEvent} {m : Memory}
    (hes : ∀ ev ∈ es, (IsInner ev ∨ ev = .clearRqAvail (e.request s.pRequest) m) ∨ ev ∈ e.outs) :
    ∀ q ∈ handedOver es, ∀ len,
      (e.pData + dataOffset e.usLevel, len) ∈ copyOuts es → q.cbData ≤ len := by
  intro q hq len hlen
  obtain ⟨m', hq⟩ := mem_handedOver.mp hq
  rw [mem_copyOuts] at hlen
  have hsize : q.cbData = findSize e.usLevel e.cbData := by
    rcases hes _ hq with (hinner | heq) | hout
    · exact hinner.elim
    · cases heq
      exact e.size _
    · rw [outs] at hout
      split at hout <;> simp at hout
  rcases hes _ hlen with (hinner | heq) | hout
  · exact hinner.elim
  · cases heq
  · rcases mem_outs_iff.mp hout with ⟨-, rfl⟩ | ⟨hlevel, haddr, -⟩
    · exact hsize ▸ UInt16.le_refl _
    · -- the result data does not start at the error offset
      rw [dataOffset, if_pos hlevel] at haddr
      exact absurd (Nat.add_left_cancel haddr) (by decide)

theorem not_reaches_of_isRefusal {e : FindEntry env} {s : StubState δ} {rc : ApiRet}
    (h : e.IsRefusal s rc) : ¬ e.Reaches s := by
  rintro ⟨hacquire, hname, hlist⟩
  rcases h with ⟨h, -⟩ | ⟨-, h, -⟩ | ⟨-, -, h, -⟩
  · exact h hacquire
  · exact h hname
  · exact h hlist

/-- An outcome fits the caller's buffer, unless it overruns. -/
theorem Outcome.fits_iff {e : FindEntry env} {s : StubState δ} {rc : ApiRet} {c : Memory}
    {es : List StubEvent} (h : e.Outcome s rc c es) : e.Fits es ↔ ¬ e.Overruns s := by
  have hquiet (hcopies : ¬ e.Copies s) (hfits : e.Fits es) : e.Fits es ↔ ¬ e.Overruns s :=
    iff_of_true hfits fun hover => hcopies hover.2.2
  cases h with
  | refused hrefusal hes =>
    refine hquiet (fun h => not_reaches_of_isRefusal hrefusal h.1) ?_
    exact fits_of_closing (q := default) (m := Memory.zeros)
      fun ev hev => Or.inl (hes ev hev).isClosing
  | lost _ hsignal hes =>
    exact hquiet (fun h => hsignal h.2.1)
      (fits_of_closing fun ev hev => (hes ev hev).imp_left IsInner.isClosing)
  | answered _ _ hback hes =>
    exact hquiet (fun h => hback h.2.2.1)
      (fits_of_closing fun ev hev => (hes ev hev).imp_left IsInner.isClosing)
  | gaveUp _ _ _ hcopy hes => exact hquiet (fun h => hcopy h.2.2.2) (fits_of_closing hes)
  | copied hreaches hsignal hback hcopy hes houts hhands =>
    -- nothing else of the call writes to the caller
    have hpieces (addr : Ptr) (len : UInt16) :
        (addr, len) ∈ copyOuts es ↔ .copyOut addr len ∈ e.outs := by
      rw [mem_copyOuts]
      refine ⟨fun hev => ?_, houts _⟩
      rcases hes _ hev with (hinner | heq) | hout
      · exact hinner.elim
      · cases heq
      · exact hout
    have hcopies : e.Copies s := ⟨hreaches, hsignal, hback, hcopy⟩
    rw [Overruns, ← and_assoc, and_iff_left hcopies, ← outs_within_iff]
    constructor
    · exact fun hfits addr len hout => hfits.within (addr, len) ((hpieces addr len).mpr hout)
    · intro hout
      refine ⟨fun piece hpiece => hout _ _ ((hpieces _ _).mp hpiece), fun q hq _ => ?_⟩
      exact passed_of_copied hes q hq

end FindEntry

/-- What a search call writes fits its caller's buffer exactly when it does not overrun it. -/
theorem find_fits_iff (s : StubState δ) {call : StubCall} {e : FindEntry env}
    (h : call.findEntry env = some e) : e.Fits (call.events env s) ↔ ¬ e.Overruns s := by
  obtain ⟨es, htrace, houtcome⟩ := e.outcome { s with trace := [] }
  rw [StubCall.events, body_of_findEntry h, htrace, List.append_nil]
  exact houtcome.fits_iff

/-- A caller whose `EAOP` at address 0 points to an empty GEA list. -/
def geaState : StubState Unit :=
  { idleState with
    caller := (Memory.zeros.blit 0 (Memory.le32Bytes 16)).blit 16 (Memory.le32Bytes 4) }

/-- A level 3 search whose buffer is large enough. -/
theorem find_fits_iff_geaState :
    (findNextEntry (quietEnv fun _ => .NO_ERROR) 0 0 0 20 0 3 0).Fits
      ((StubCall.fsFindNext 0 0 0 20 0 3 0).events (quietEnv fun _ => .NO_ERROR) geaState) := by
  refine (find_fits_iff geaState rfl).mpr fun hover => ?_
  exact absurd hover.2.1 (by decide)

/-- A level 3 search with a buffer of 11 bytes writes 65535 bytes behind its `EAOP`. -/
theorem find_overruns :
    ¬ (findNextEntry (quietEnv fun _ => .NO_ERROR) 0 0 0 11 0 3 0).Fits
      ((StubCall.fsFindNext 0 0 0 11 0 3 0).events (quietEnv fun _ => .NO_ERROR) geaState) := by
  intro h
  have hmem : (12, 65535) ∈ copyOuts ((StubCall.fsFindNext 0 0 0 11 0 3 0).events
      (quietEnv fun _ => .NO_ERROR) geaState) := by decide
  exact absurd (h.within _ hmem).2 (by decide)

end Stub

end Isofs
