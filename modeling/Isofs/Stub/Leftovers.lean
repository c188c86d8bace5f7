import Isofs.Daemon.Replies
import Isofs.Stub.GivenBack
import Isofs.Stub.OpenHandles

/-!
# What was left in the data buffer

An entry point copies result data back by the size of its caller's buffer, and the daemon writes
over the data buffer what it has. A call gives nothing away of what an earlier request has left
there exactly when what is written over the buffer covers what is copied back.
-/

namespace Isofs

namespace Stub

open Memory OutBuf

/-! ### Lists that are handed over -/

section Lists

variable {c : Memory} {p : Ptr}

theorem length_listIn (hlt : c.le32 p < 65536) : (listIn c p).length = c.le32 p := by
  rw [listIn, length_slice, UInt16.toNat_ofNat']
  exact Nat.mod_eq_of_lt hlt

theorem listBytes_listIn (hle : 4 ≤ c.le32 p) (hlt : c.le32 p < 65536) :
    ListBytes (listIn c p) := by
  have hlength := length_listIn hlt
  have hcount : (zeros.blit 0 (listIn c p)).le32 0 = c.le32 p := by
    refine le32_congr fun j hj => ?_
    rw [blit_of_lt zeros (Nat.zero_le _) (by omega)]
    simp only [listIn, getElem_slice]
    congr 1
    omega
  exact ⟨by omega, by omega, by omega⟩

/-- Of a list of 64 KiB nothing is copied. -/
theorem listIn_of_full (h : c.le32 p = 65536) : listIn c p = [] := by
  rw [listIn, h]
  rfl

end Lists

/-! ### Answers -/

section Answers

variable {l : Link} {s : StubState Daemon.State} {call : Daemon.Call} {rc : ApiRet}
  {m m' : Memory}

/-- What a call gives back when the daemon replies. -/
theorem DataEntry.given_of_replies {e : DataEntry l.stub}
    (hcall : Daemon.callOf (e.request s.pRequest).rq = some call)
    (h : Daemon.Replies s.daemon
      ⟨call, e.request s.pRequest, e.buffer s.caller m, l.daemonEnv⟩ rc m') :
    ∃ q, q.rc = rc ∧ q.oError = (e.request s.pRequest).oError ∧
      e.given s m = e.gives s.caller q m' := by
  have hgiven : e.given s m = e.gives s.caller
      { (l.handle s.daemon (e.request s.pRequest) (e.buffer s.caller m)).2.request with rc := rc }
      m' := by
    rw [DataEntry.given, l.stub_daemon, l.handle_of_callOf hcall, h.outcome, h.pData]
    rfl
  refine ⟨_, rfl, ?_, hgiven⟩
  rw [l.handle_of_callOf hcall]
  exact h.oError

end Answers

/-- The request buffer with the answer `rc`. -/
def withCode (q : Request) (rc : ApiRet) : Request := { q with rc := rc }

/-! ### Searches -/

namespace FindEntry

section Searches

variable {l : Link} (e : FindEntry l.stub) (s : StubState Daemon.State)

/-- The request that is handed over. -/
def handed : Request := e.request s.pRequest

theorem gives_of_not_back {c m : Memory} {q : Request} (h : ¬ CopiesBack q.rc) :
    e.gives c q m = (exitCode l.stub q.rc, c) := by
  rw [gives, if_neg h]

theorem gives_of_no_copy {c m : Memory} {q : Request} (h : CopiesBack q.rc) (hcopy : ¬ e.CanCopy) :
    e.gives c q m = (e.giveUpCode .ERROR_INVALID_PARAMETER, c) := by
  rw [gives, if_pos h, if_neg hcopy]

theorem gives_of_copy {c m : Memory} {q : Request} (h : CopiesBack q.rc) (hcopy : e.CanCopy) :
    e.gives c q m = (exitCode l.stub q.rc, e.copied c q m) := by
  rw [gives, if_pos h, if_pos hcopy]

/-- The GEA list that is copied to the data buffer. -/
def listed : List UInt8 := findIn s.caller e.usLevel e.pData

/-- The names that the list asks for. -/
def asked : List (List UInt8) × Bool :=
  askedNames (copyGeas l.daemonEnv.stack (zeros.blit 0 (e.listed s)) e.usLevel)

/-- A level 3 search hands over a GEA list of 64 KiB, of which nothing reaches the data buffer. -/
def LosesList : Prop :=
  e.usLevel = FIL_QUERYEASFROMLIST ∧ s.caller.le32 (s.caller.le32 e.pData) = 65536

/-- What a call on the search `data` writes over the data buffer covers what is copied back, and a
list of an earlier request does not show. -/
structure Covers (data : SearchData) : Prop where
  lost : e.LosesList s → data.ReadsGeas (e.handed s) → l.stub.releaseSem ≠ .NO_ERROR ∧
    ¬ (e.CanCopy ∧ data.NextFits (noNames true) e.usLevel (e.handed s).fsFlags
      (e.handed s).cbData.toNat)
  kept : ¬ e.LosesList s → e.CanCopy → (e.handed s).cMatch ≠ 0 →
    data.NextFits (e.asked s) e.usLevel (e.handed s).fsFlags (e.handed s).cbData.toNat →
    (e.handed s).cbData.toNat ≤
      max (data.batch (e.asked s) (e.handed s)).length (e.listed s).length

/-- The daemon answers with what the call on the search `data` stores. -/
def AnsweredFrom (data : SearchData) : Prop :=
  ∀ m : Memory,
    let r := storeMatches l.daemonEnv.stack data (m.blit 0 (e.listed s)) (e.handed s)
    e.data.given s m = e.gives s.caller (withCode (e.handed s) r.rc) r.pData

/-- A search that gives up exits with its code, or with what the signal for it returns. -/
def GivesUp : Prop :=
  ∀ rc, e.giveUpCode rc = exitCode l.stub rc ∨
    e.giveUpCode rc = exitCode l.stub (signalCode l.stub .undo)

variable {e s} {call : Daemon.Call} {data : SearchData}

theorem given_of_replies {m m' : Memory} {rc : ApiRet}
    (hcall : Daemon.callOf (e.handed s).rq = some call)
    (h : Daemon.Replies s.daemon ⟨call, e.handed s, m.blit 0 (e.listed s), l.daemonEnv⟩ rc m') :
    e.data.given s m = e.gives s.caller (withCode (e.handed s) rc) m' := by
  obtain ⟨q, rfl, herror, hgiven⟩ := @DataEntry.given_of_replies l s call rc m m' e.data hcall h
  rw [hgiven]
  change e.gives s.caller q m' = _
  rw [gives, gives, copied, copied, herror]
  rfl

/-- What a call on a search gives back, or one that gets to none. -/
theorem given_eq (hcall : Daemon.callOf (e.handed s).rq = some call)
    (husable : Daemon.Usable s.daemon.core ⟨call, e.handed s, s.pFSData, l.daemonEnv⟩) :
    (∀ data, s.daemon.searched l.daemonEnv (e.handed s) call = some data →
      e.AnsweredFrom s data) ∧
    (s.daemon.searched l.daemonEnv (e.handed s) call = none → ∃ rc, ∀ m,
      e.data.given s m = (rc, s.caller)) := by
  have hsearch : Daemon.IsSearch call := by
    have hrq : (e.handed s).rq = .FSRQ_FINDFIRST ∨ (e.handed s).rq = .FSRQ_FINDNEXT ∨
      (e.handed s).rq = .FSRQ_FINDFROMNAME := e.rq s.pRequest
    rcases hrq with hrq | hrq | hrq
    · rw [hrq] at hcall
      exact Or.inl (Option.some.inj hcall).symm
    · rw [hrq] at hcall
      exact Or.inr (Or.inl (Option.some.inj hcall).symm)
    · rw [hrq] at hcall
      exact Or.inr (Or.inr (Option.some.inj hcall).symm)
  have hreplies := @Daemon.search_replies s.daemon (e.handed s) l.daemonEnv call hsearch
    fun _ => ⟨husable.ready, husable.ucsLevel⟩
  constructor
  · intro data hdata m
    exact given_of_replies hcall (hreplies.1 data hdata _)
  · intro hnone
    obtain ⟨rc, hrc, hconst⟩ := hreplies.2 hnone
    refine ⟨exitCode l.stub rc, fun m => ?_⟩
    obtain ⟨m', h⟩ := hconst (m.blit 0 (e.listed s))
    rw [given_of_replies hcall h]
    exact e.gives_of_not_back hrc

/-- The list that is looked at is the one that is handed over. -/
theorem copyGeas_listed (hreaches : e.data.reaches s.caller) (hkeeps : ¬ e.LosesList s)
    (m : Memory) :
    askedNames (copyGeas l.daemonEnv.stack (m.blit 0 (e.listed s)) e.usLevel) = e.asked s := by
  rw [asked, listed, findIn]
  by_cases hlevel : e.usLevel = FIL_QUERYEASFROMLIST
  · have herror : findError l.stub s.caller e.usLevel e.pData = .NO_ERROR := hreaches.2.2
    rw [findError, if_pos hlevel] at herror
    obtain ⟨hle, hle'⟩ := bounds_of_geaListError herror
    have hlt : s.caller.le32 (s.caller.le32 e.pData) < 65536 :=
      Nat.lt_of_le_of_ne hle' fun hfull => hkeeps ⟨hlevel, hfull⟩
    rw [if_pos hlevel, copyGeas_blit (listBytes_listIn hle hlt) _ _ m zeros]
  · rw [copyGeas, copyGeas, if_neg hlevel, if_neg hlevel]

/-- A call that looks at its own list. -/
theorem ignores_of_keeps (hreaches : e.data.reaches s.caller) (hkeeps : ¬ e.LosesList s)
    (hgiven : e.AnsweredFrom s data) :
    Ignores 65536 (e.data.given s) ↔ (e.CanCopy → (e.handed s).cMatch ≠ 0 →
      data.NextFits (e.asked s) e.usLevel (e.handed s).fsFlags (e.handed s).cbData.toNat →
      (e.handed s).cbData.toNat ≤
        max (data.batch (e.asked s) (e.handed s)).length (e.listed s).length) := by
  have hlevel : (e.handed s).usLevel = e.usLevel := e.level s.pRequest
  have hgeas (m : Memory) : askedNames (copyGeas l.daemonEnv.stack (m.blit 0 (e.listed s))
      (e.handed s).usLevel) = e.asked s := by
    rw [hlevel]
    exact copyGeas_listed hreaches hkeeps m
  -- the code is the same for all leftovers
  obtain ⟨rc, hrc⟩ : ∃ rc, ∀ m : Memory,
    (storeMatches l.daemonEnv.stack data (m.blit 0 (e.listed s))
      (e.handed s)).rc = rc := by
    refine ⟨(storeMatches l.daemonEnv.stack data (zeros.blit 0 (e.listed s)) (e.handed s)).rc,
      fun m => ?_⟩
    rw [rc_storeMatches, rc_storeMatches, hgeas, hgeas]
  have hstores : CopiesBack rc ↔ (e.handed s).cMatch ≠ 0 ∧
      data.NextFits (e.asked s) e.usLevel (e.handed s).fsFlags (e.handed s).cbData.toNat := by
    have h := stores_storeMatches l.daemonEnv.stack data (zeros.blit 0 (e.listed s)) (e.handed s)
    rwa [hrc, hgeas, hlevel] at h
  have hanswer (m : Memory) : e.data.given s m = e.gives s.caller (withCode (e.handed s) rc)
      (m.blit 0 (overlay (data.batch (e.asked s) (e.handed s)) (e.listed s))) := by
    rw [hgiven, hrc, pData_storeMatches, hgeas, blit_overlay]
  by_cases hback : CopiesBack rc
  swap
  · rw [ignores_congr fun m => (hanswer m).trans (e.gives_of_not_back hback)]
    exact iff_of_true (.const _ _) fun _ hmatch hfits => absurd (hstores.mpr ⟨hmatch, hfits⟩) hback
  by_cases hcopy : e.CanCopy
  swap
  · rw [ignores_congr fun m => (hanswer m).trans (e.gives_of_no_copy hback hcopy)]
    exact iff_of_true (.const _ _) fun h => absurd h hcopy
  obtain ⟨hmatch, hfits⟩ := hstores.mp hback
  rw [ignores_congr fun m => (hanswer m).trans (e.gives_of_copy hback hcopy),
    ignores_const_pair_iff, ← length_overlay]
  -- as many bytes are copied as the daemon is told of
  have hcopied (bytes : List UInt8) : (Ignores 65536 fun m : Memory =>
      e.copied s.caller (withCode (e.handed s) rc) (m.blit 0 bytes)) ↔
        (e.handed s).cbData.toNat ≤ bytes.length := by
    have hsize : (e.handed s).cbData = findSize e.usLevel e.cbData := e.size s.pRequest
    have hlen (len : UInt16) : len.toNat ≤ 65536 := Nat.le_of_lt len.toNat_lt
    by_cases heas : e.usLevel = FIL_QUERYEASFROMLIST
    · simp only [copied, if_pos heas, hsize, findSize]
      exact ignores_copy_iff (hlen _) _ _ _
    · simp only [copied, if_neg heas, hsize, findSize]
      exact ignores_copy_iff (hlen _) _ _ _
  rw [hcopied]
  exact ⟨fun h _ _ _ => h, fun h => h hcopy hmatch hfits⟩

theorem listed_of_loses (hloses : e.LosesList s) : e.listed s = [] := by
  rw [listed, findIn, if_pos hloses.1]
  exact listIn_of_full hloses.2

/-- A call that has lost its list and does not look at one. -/
theorem ignores_of_unread (hloses : e.LosesList s) (hunread : ¬ data.ReadsGeas (e.handed s))
    (hgiven : e.AnsweredFrom s data) :
    Ignores 65536 (e.data.given s) := by
  have hlevel : (e.handed s).usLevel = FIL_QUERYEASFROMLIST := (e.level s.pRequest).trans hloses.1
  obtain ⟨rc, hrc, hconst⟩ := rc_storeMatches_unread l.daemonEnv.stack hlevel hunread
  have hanswer (m : Memory) : e.data.given s m = (exitCode l.stub rc, s.caller) := by
    rw [hgiven, hconst]
    exact e.gives_of_not_back hrc
  rw [ignores_congr hanswer]
  exact .const _ _

section Lost

variable (hloses : e.LosesList s) (hreads : data.ReadsGeas (e.handed s))
  (hgiven : e.AnsweredFrom s data)

include hloses

theorem level_of_loses : (e.handed s).usLevel = FIL_QUERYEASFROMLIST :=
  (e.level s.pRequest).trans hloses.1

/-- A list that was left in the buffer is looked at. -/
theorem copyGeas_leftList {n : ℕ} (hn : 4 ≤ n) (hlt : n < 2 ^ 32) :
    askedNames (copyGeas l.daemonEnv.stack (leftList n) (e.handed s).usLevel) =
      askedNames (some (leftList n)) := by
  rw [level_of_loses hloses]
  exact askedNames_copyGeas hn hlt _

include hgiven

/-- What is given back is what is stored for the list that was left in the buffer. -/
theorem given_of_loses (m : Memory) :
    let r := storeMatches l.daemonEnv.stack data m (e.handed s)
    e.data.given s m = e.gives s.caller (withCode (e.handed s) r.rc) r.pData := by
  rw [AnsweredFrom, listed_of_loses hloses] at hgiven
  simp only [blit_nil] at hgiven
  exact hgiven m

/-- A caller that is told of the semaphore, and that is given no record, learns nothing of the
list. -/
theorem ignores_of_hidden (hgiveUp : e.GivesUp) (hrelease : l.stub.releaseSem ≠ .NO_ERROR)
    (hhidden : ¬ (e.CanCopy ∧ data.NextFits (noNames true) e.usLevel (e.handed s).fsFlags
      (e.handed s).cbData.toNat)) : Ignores 65536 (e.data.given s) := by
  have hexit (rc : ApiRet) : exitCode l.stub rc = l.stub.releaseSem := by
    rw [exitCode, if_pos hrelease]
  have hconst (m : Memory) : e.data.given s m = (l.stub.releaseSem, s.caller) := by
    rw [given_of_loses hloses hgiven]
    by_cases hback : CopiesBack (storeMatches l.daemonEnv.stack data m (e.handed s)).rc
    · have hcopy : ¬ e.CanCopy := by
        intro hcopy
        have hfits := ((stores_storeMatches _ _ _ _).mp hback).2
        rw [level_of_loses hloses] at hfits
        exact hhidden ⟨hcopy, hloses.1.symm ▸ hfits.withoutNames⟩
      rw [e.gives_of_no_copy hback hcopy]
      rcases hgiveUp .ERROR_INVALID_PARAMETER with hcode | hcode
      · rw [hcode, hexit]
      · rw [hcode, hexit]
    · rw [e.gives_of_not_back hback, hexit]
  rw [ignores_congr hconst]
  exact .const _ _

include hreads

/-- A list with half a name is told. -/
theorem given_leftList_five :
    e.data.given s (leftList 5) = (exitCode l.stub .ERROR_EA_LIST_INCONSISTENT, s.caller) := by
  have hgeas := (copyGeas_leftList hloses (by decide) (by decide)).trans askedNames_leftList_five
  rw [given_of_loses hloses hgiven, rc_storeMatches_malformed (level_of_loses hloses) hgeas hreads]
  exact e.gives_of_not_back (show ¬ CopiesBack .ERROR_EA_LIST_INCONSISTENT by decide)

/-- The caller is told whether the list that was left in the buffer is well formed. -/
theorem not_ignores_of_released (hgiveUp : e.GivesUp)
    (hkernel : signalCode l.stub .undo ≠ .ERROR_EA_LIST_INCONSISTENT)
    (hrelease : l.stub.releaseSem = .NO_ERROR) : ¬ Ignores 65536 (e.data.given s) := by
  intro h
  have hexit (rc : ApiRet) : exitCode l.stub rc = rc := by
    rw [exitCode, if_neg (not_not.mpr hrelease)]
  have hfour : (e.data.given s (leftList 4)).1 ≠ .ERROR_EA_LIST_INCONSISTENT := by
    have hgeas := (copyGeas_leftList hloses (Nat.le_refl 4) (by decide)).trans
      (@askedNames_leftList 0 (by decide))
    have hcode := @rc_storeMatches_wellFormed l.daemonEnv.stack data _ _ _ hgeas
    rw [given_of_loses hloses hgiven]
    by_cases hback : CopiesBack (storeMatches l.daemonEnv.stack data (leftList 4) (e.handed s)).rc
    · by_cases hcopy : e.CanCopy
      · rw [e.gives_of_copy hback hcopy]
        exact (hexit _).symm ▸ hcode
      · rw [e.gives_of_no_copy hback hcopy]
        rcases hgiveUp .ERROR_INVALID_PARAMETER with hcode | hcode
        · rw [hcode, hexit]
          exact show ApiRet.ERROR_INVALID_PARAMETER ≠ .ERROR_EA_LIST_INCONSISTENT by decide
        · rw [hcode, hexit]
          exact hkernel
    · rw [e.gives_of_not_back hback]
      exact (hexit _).symm ▸ hcode
  rw [h _ _ (agreeFrom_leftList 4 5), given_leftList_five hloses hreads hgiven, hexit] at hfour
  exact hfour rfl

/-- The byte behind the head of the first record is copied to the caller. -/
theorem given_leftList_apply (hcopy : e.CanCopy) {k : ℕ} (hk : 4 + 2 * k < 2 ^ 31)
    (hfits : data.NextFits (List.replicate k [], true) e.usLevel (e.handed s).fsFlags
      (e.handed s).cbData.toNat) {b : UInt8}
    (hbyte : (data.batch (List.replicate k [], true) (e.handed s))[cbHead (e.handed s).fsFlags]? =
      some b) :
    (e.data.given s (leftList (4 + 2 * k))).2
      (e.pData + sizeofEAOP.toNat + cbHead (e.handed s).fsFlags) = b := by
  have hgeas := (copyGeas_leftList hloses (Nat.le_add_right 4 _) (by omega)).trans
    (askedNames_leftList hk)
  have hback : CopiesBack (storeMatches l.daemonEnv.stack data (leftList (4 + 2 * k))
      (e.handed s)).rc := by
    refine (stores_storeMatches _ _ _ _).mpr ⟨hreads.cMatch, ?_⟩
    rw [hgeas, show (e.handed s).usLevel = e.usLevel from e.level s.pRequest]
    exact hfits
  obtain ⟨hi, hbyte⟩ := List.getElem?_eq_some_iff.mp hbyte
  have hsize : (e.handed s).cbData = e.cbData - sizeofEAOP := by
    rw [show (e.handed s).cbData = findSize e.usLevel e.cbData from e.size s.pRequest, findSize,
      if_pos hloses.1]
  have hroom := hreads.room
  rw [hsize] at hroom
  rw [given_of_loses hloses hgiven, e.gives_of_copy hback hcopy, pData_storeMatches, hgeas, copied,
    if_pos hloses.1]
  dsimp only
  rw [blit_of_lt _ (Nat.le_add_right _ _) (by rw [length_slice]; omega),
    getElem_slice, blit_of_lt _ (Nat.zero_le _) (by omega), ← hbyte]
  congr 1
  omega

/-- The caller is given the list that answers the list which was left in the buffer. -/
theorem not_ignores_of_copied (hcopy : e.CanCopy)
    (hfits : data.NextFits (noNames true) e.usLevel (e.handed s).fsFlags
      (e.handed s).cbData.toNat) : ¬ Ignores 65536 (e.data.given s) := by
  intro h
  have hlevel := level_of_loses hloses
  rw [hloses.1] at hfits
  -- more names than there is room for in 64 KiB
  obtain ⟨k, hk, hmany⟩ : ∃ k, 4 + 2 * k < 2 ^ 31 ∧ 65536 ≤ 5 * k :=
    ⟨13200, by decide, by decide⟩
  have hcrowded : (e.handed s).cbData.toNat < cbHead (e.handed s).fsFlags +
      (4 + (feasBytes (List.replicate k [])).length) := by
    have hroom := (e.handed s).cbData.toNat_lt
    rw [length_feasBytes_replicate]
    omega
  have hfour := @given_leftList_apply l e s data hloses hreads hgiven hcopy 0 (by decide)
    (hloses.1.symm ▸ hfits) 4
    (getElem?_batch hlevel hreads fun _ _ _ => getElem?_recordWritten_noNames _ _ _ hreads.room)
  have hzero := @given_leftList_apply l e s data hloses hreads hgiven hcopy k hk
    (hloses.1.symm ▸ hfits.crowded hcrowded) 0
    (getElem?_batch hlevel hreads fun _ _ _ =>
      getElem?_recordWritten_crowded _ _ _ hreads.room hcrowded)
  rw [h _ _ (agreeFrom_leftList _ (4 + 2 * k)), hzero] at hfour
  exact absurd hfour (by decide)

/-- A call that has lost its list and looks at what is left in the buffer. -/
theorem ignores_of_loses_iff (hgiveUp : e.GivesUp)
    (hkernel : signalCode l.stub .undo ≠ .ERROR_EA_LIST_INCONSISTENT) :
    Ignores 65536 (e.data.given s) ↔ l.stub.releaseSem ≠ .NO_ERROR ∧
      ¬ (e.CanCopy ∧ data.NextFits (noNames true) e.usLevel (e.handed s).fsFlags
        (e.handed s).cbData.toNat) := by
  constructor
  · intro h
    refine ⟨fun hrelease => ?_, fun ⟨hcopy, hfits⟩ => ?_⟩
    · exact not_ignores_of_released hloses hreads hgiven hgiveUp hkernel hrelease h
    · exact not_ignores_of_copied hloses hreads hgiven hcopy hfits h
  · rintro ⟨hrelease, hhidden⟩
    exact ignores_of_hidden hloses hgiven hgiveUp hrelease hhidden

end Lost

/-- What the daemon writes covers what the call copies back, when it is answered and its search is
found. -/
def Covered (e : FindEntry l.stub) (s : StubState Daemon.State) : Prop :=
  e.data.Answered s → ∀ call data, Daemon.callOf (e.handed s).rq = some call →
    s.daemon.searched l.daemonEnv (e.handed s) call = some data → e.Covers s data

/-- A search gives nothing away exactly when it is covered. -/
theorem hides_iff (hgiveUp : e.GivesUp)
    (hkernel : signalCode l.stub .undo ≠ .ERROR_EA_LIST_INCONSISTENT)
    (husable : e.data.Answered s → Daemon.Usable s.daemon.core
      ⟨call, e.handed s, s.pFSData, l.daemonEnv⟩)
    (hcall : Daemon.callOf (e.handed s).rq = some call) : Hides e.body s ↔ e.Covered s := by
  rw [show e.body = e.data.body from rfl, e.data.hides_iff s]
  constructor
  · intro hignores hanswered call' data hcall' hsearched
    obtain rfl := Option.some.inj (hcall.symm.trans hcall')
    obtain ⟨hgiven, -⟩ := given_eq hcall (husable hanswered)
    refine ⟨fun hloses hreads => ?_, fun hkeeps => ?_⟩
    · exact (ignores_of_loses_iff hloses hreads (hgiven data hsearched) hgiveUp hkernel).mp
        (hignores hanswered)
    · exact (ignores_of_keeps hanswered.1 hkeeps (hgiven data hsearched)).mp (hignores hanswered)
  · intro hcovered hanswered
    obtain ⟨hgiven, hnothing⟩ := given_eq hcall (husable hanswered)
    cases hsearched : s.daemon.searched l.daemonEnv (e.handed s) call with
    | none =>
      obtain ⟨rc, hconst⟩ := hnothing hsearched
      rw [ignores_congr hconst]
      exact .const _ _
    | some data =>
      have hcovers := hcovered hanswered call data hcall hsearched
      by_cases hloses : e.LosesList s
      · by_cases hreads : data.ReadsGeas (e.handed s)
        · exact (ignores_of_loses_iff hloses hreads (hgiven data hsearched) hgiveUp hkernel).mpr
            (hcovers.lost hloses hreads)
        · exact ignores_of_unread hloses hreads (hgiven data hsearched)
      · exact (ignores_of_keeps hanswered.1 hloses (hgiven data hsearched)).mpr
          (hcovers.kept hloses)

end Searches

end FindEntry

/-! ### Queries -/

namespace InfoEntry

section Queries

variable {l : Link} (e : InfoEntry l.stub) (s : StubState Daemon.State)

/-- The request that is handed over. -/
def handed : Request := e.request s.pRequest

/-- The data buffer that is handed over, when it held `m`. -/
def filled (m : Memory) : Memory :=
  infoBuffer l.stub s.caller e.fsFlag e.usLevel e.cbData e.pData m

/-- What `copyFileInfoBufPost` returns and leaves of the caller's memory, for the answer `m`. -/
def left (m : Memory) : ApiRet × Memory :=
  infoLeft l.stub e.fsFlag e.usLevel e.cbData e.pData (e.handed s).oError s.caller m

/-- The call of `copyEAOP` with which a level 3 or 4 query gives its FEA list. -/
def eaop : EaopCall Daemon.State :=
  if e.usLevel = 3 then
    postCall l.stub e.pData (CEA_BUF_TO_FEAS ||| CEA_SET_OERROR) (e.handed s).oError
  else postCall l.stub e.pData CEA_BUF_TO_FEAS 0

/-- The daemon answers with the code and the data buffer of `answer`. -/
def AnsweredWith (answer : Memory → ApiRet × Memory) : Prop :=
  ∀ m, e.data.given s m = (exitCode l.stub
    (if (answer m).1 ≠ .NO_ERROR then (answer m).1 else (e.left s (answer m).2).1),
    (e.left s (answer m).2).2)

/-- A level 3 query hands its GEA list over. -/
def HandsList : Prop :=
  geaListError l.stub s.caller e.pData = .NO_ERROR ∧
    s.caller.le32 (s.caller.le32 e.pData) ≠ 65536

variable {e s} {call : Daemon.Call}

/-- What a query gives back. -/
theorem given_eq (hcall : Daemon.callOf (e.handed s).rq = some call)
    (husable : Daemon.Usable s.daemon.core ⟨call, e.handed s, s.pFSData, l.daemonEnv⟩) :
    e.AnsweredWith s fun m => s.daemon.answer l.daemonEnv (e.handed s) call (e.filled s m) := by
  intro m
  have hquery : Daemon.IsQuery call := by
    have hrq : (e.handed s).rq = .FSRQ_FILEINFO ∨ (e.handed s).rq = .FSRQ_PATHINFO :=
      e.rq s.pRequest
    rcases hrq with hrq | hrq
    · rw [hrq] at hcall
      exact Or.inl (Option.some.inj hcall).symm
    · rw [hrq] at hcall
      exact Or.inr (Option.some.inj hcall).symm
  have hreplies := @Daemon.query_replies s.daemon (e.handed s) (e.filled s m) l.daemonEnv call
    hquery
    ⟨husable.ready, husable.ucsLevel⟩
  obtain ⟨q, hrc, herror, hgiven⟩ :=
    @DataEntry.given_of_replies l s call _ m _ e.data hcall hreplies
  rw [hgiven]
  change e.gives s.caller q _ = _
  rw [gives, hrc, herror]
  rfl

section Answers

variable (call s) (entry : IsoDirEntry) (m : Memory)

theorem answer_of_none (h : s.daemon.queried l.daemonEnv (e.handed s) call = none) :
    s.daemon.answer l.daemonEnv (e.handed s) call m = (Daemon.pathError (e.handed s), m) := by
  rw [Daemon.State.answer, h]
  rfl

theorem answer_of_some {entry : IsoDirEntry}
    (h : s.daemon.queried l.daemonEnv (e.handed s) call = some entry) :
    s.daemon.answer l.daemonEnv (e.handed s) call m =
      doFileInfo e.fsFlag e.usLevel e.cbData l.daemonEnv.stack m entry := by
  rw [Daemon.State.answer, h, Option.elim_some]
  congr 1
  · exact e.flag s.pRequest
  · exact e.level s.pRequest
  · exact e.size s.pRequest

end Answers

/-- A query without a list hands the data buffer over as it is. -/
theorem filled_of_ne (hget : e.fsFlag &&& FI_SET = 0) (hlevel : e.usLevel ≠ 3)
    (m : Memory) : e.filled s m = m := by
  have hin : infoIn s.caller e.fsFlag e.usLevel e.cbData e.pData = [] := by
    rw [infoIn, if_neg (not_not.mpr hget), if_neg hlevel]
  rw [filled, infoBuffer, hin]
  split
  · exact blit_nil m 0
  · rfl

/-- So does a query whose list is not handed over. -/
theorem filled_of_not_handsList (hget : e.fsFlag &&& FI_SET = 0)
    (hlevel : e.usLevel = 3) (hlist : ¬ e.HandsList s) (m : Memory) :
    e.filled s m = m := by
  rw [filled, infoBuffer, infoError, infoIn, if_neg (not_not.mpr hget), if_pos hlevel,
    if_neg (not_not.mpr hget), if_pos hlevel]
  split
  · next herror =>
    have hfull : s.caller.le32 (s.caller.le32 e.pData) = 65536 := by
      by_contra hfull
      exact hlist ⟨herror, hfull⟩
    rw [listIn_of_full hfull]
    exact blit_nil m 0
  · rfl

/-- A list that is handed over replaces what was left in the data buffer. -/
theorem filled_of_handsList (hget : e.fsFlag &&& FI_SET = 0)
    (hlevel : e.usLevel = 3) (hlist : e.HandsList s) :
    ∃ list, ListBytes list ∧ ∀ m, e.filled s m = m.blit 0 list := by
  obtain ⟨hle, hle'⟩ := bounds_of_geaListError hlist.1
  refine ⟨_, listBytes_listIn hle (Nat.lt_of_le_of_ne hle' hlist.2), fun m => ?_⟩
  rw [filled, infoBuffer, infoError, infoIn, if_neg (not_not.mpr hget), if_pos hlevel,
    if_neg (not_not.mpr hget), if_pos hlevel, if_pos hlist.1]

/-! ### The levels -/

/-- What is given back depends on the code and on what `copyFileInfoBufPost` leaves. -/
theorem ignores_given {answer : Memory → ApiRet × Memory}
    (hgiven : e.AnsweredWith s answer)
    (hcode : Ignores 65536 fun m => (answer m).1)
    (hleft : Ignores 65536 fun m => e.left s (answer m).2) : Ignores 65536 (e.data.given s) := by
  rw [ignores_congr hgiven]
  exact (hcode.pair hleft).map fun r =>
    (exitCode l.stub (if r.1 ≠ .NO_ERROR then r.1 else r.2.1), r.2.2)

/-- Leftovers that leave different memories are given away. -/
theorem not_ignores_given {answer : Memory → ApiRet × Memory}
    (hgiven : e.AnsweredWith s answer)
    {m m' : Memory} (hagree : AgreeFrom 65536 m m')
    (hne : (e.left s (answer m).2).2 ≠ (e.left s (answer m').2).2) :
    ¬ Ignores 65536 (e.data.given s) := by
  intro h
  have heq := h m m' hagree
  rw [hgiven, hgiven] at heq
  exact hne (Prod.ext_iff.mp heq).2

/-- Where information is set, nothing of the data buffer is given. -/
theorem left_of_set (hset : e.fsFlag &&& FI_SET ≠ 0) (m m' : Memory) :
    e.left s m = e.left s m' := by
  rw [left, left, infoLeft, infoLeft, if_pos hset, if_pos hset]
  have hgives : ¬ (postCall l.stub e.pData CEA_SET_OERROR (e.handed s).oError).GivesFeas :=
    not_not.mpr (show CEA_SET_OERROR &&& CEA_BUF_TO_FEAS = 0 by decide)
  split
  · exact EaopCall.left_of_not_discloses _ (fun h => hgives h.gives) m m'
  · rfl

theorem left_of_eaop (hget : e.fsFlag &&& FI_SET = 0) (hlevel : e.usLevel = 3 ∨ e.usLevel = 4)
    (m : Memory) : e.left s m = (e.eaop s).left s.caller m := by
  rw [left, infoLeft, eaop, if_neg (not_not.mpr hget)]
  by_cases heas : e.usLevel = 3
  · rw [if_pos heas, if_pos heas]
  · rw [if_neg heas, if_neg heas, if_pos (hlevel.resolve_left heas)]

theorem left_of_data (hget : e.fsFlag &&& FI_SET = 0) (heas : e.usLevel ≠ 3)
    (hall : e.usLevel ≠ 4) (m : Memory) : e.left s m =
      if l.stub.probe .dataWrite = .NO_ERROR then
        (.NO_ERROR, s.caller.blit e.pData (m.slice 0 e.cbData.toNat))
      else (exitCode l.stub .ERROR_INVALID_PARAMETER, s.caller) := by
  rw [left, infoLeft, if_neg (not_not.mpr hget), if_neg heas, if_neg hall]

/-- A query whose answer the daemon does not write gives away what an FEA list shows of the
leftovers. -/
theorem ignores_unwritten_iff {answer : Memory → ApiRet × Memory} {rc : ApiRet}
    (hgiven : e.AnsweredWith s answer)
    (hleft : ∀ m, e.left s m = (e.eaop s).left s.caller m) (hanswer : ∀ m, answer m = (rc, m)) :
    Ignores 65536 (e.data.given s) ↔ ¬ (e.eaop s).Discloses s.caller := by
  constructor
  · intro h hdiscloses
    refine not_ignores_given hgiven (agreeFrom_leftList 1 2) ?_ h
    rw [hanswer, hanswer, hleft, hleft]
    exact hdiscloses.left_ne (le32_leftList (by decide)) (le32_leftList (by decide)) (by decide)
      (by decide) (by decide)
  · intro hnot
    refine ignores_given hgiven (fun m m' _ => ?_) fun m m' _ => ?_
    · dsimp only
      rw [hanswer, hanswer]
    · dsimp only
      rw [hleft, hleft]
      exact (e.eaop s).left_of_not_discloses hnot _ _

/-- A query whose answer the daemon writes gives nothing away. -/
theorem ignores_of_written {answer : Memory → ApiRet × Memory} {rc : ApiRet}
    (hgiven : e.AnsweredWith s answer)
    (hleft : ∀ m, e.left s m = (e.eaop s).left s.caller m) {before list : List UInt8}
    (hbefore : before.length ≤ 65536) (hlist : ListBytes list)
    (hanswer : ∀ m, answer m = (rc, (m.blit 0 before).blit 0 list)) :
    Ignores 65536 (e.data.given s) := by
  refine ignores_given hgiven (fun m m' _ => ?_) fun m m' hm => ?_
  · dsimp only
    rw [hanswer, hanswer]
  · dsimp only
    rw [hleft, hleft, hanswer, hanswer]
    refine (e.eaop s).left_ignores hlist s.caller _ _ ?_
    exact ((agreeFrom_blit hbefore m).symm.trans hm).trans (agreeFrom_blit hbefore m')

/-- A level 3 query whose list is lost answers what is left in the buffer. -/
theorem ignores_lost_iff {answer : Memory → ApiRet × Memory}
    (hgiven : e.AnsweredWith s answer)
    (hleft : ∀ m, e.left s m = (e.eaop s).left s.caller m)
    (hanswer : ∀ m, answer m = queryEAs (copyGeas l.daemonEnv.stack m FIL_QUERYEASFROMLIST) m) :
    Ignores 65536 (e.data.given s) ↔
      ¬ (e.eaop s).Discloses s.caller ∧ l.stub.releaseSem ≠ .NO_ERROR := by
  have hfour := @queryEAs_leftList 0 (by decide) l.daemonEnv.stack
  have hsix := @queryEAs_leftList 1 (by decide) l.daemonEnv.stack
  constructor
  · intro h
    refine ⟨fun hdiscloses => ?_, fun hrelease => ?_⟩
    · -- a list without names and one with an empty name are answered with different lists
      refine not_ignores_given hgiven (agreeFrom_leftList 4 6) ?_ h
      rw [hanswer, hanswer, hleft, hleft]
      exact hdiscloses.left_ne hfour.2 hsix.2 (by decide) (by decide) (by decide)
    · -- a list without names and one with half a name are answered with different codes
      have heq := (Prod.ext_iff.mp (h _ _ (agreeFrom_leftList 4 5))).1
      rw [hgiven, hgiven, hanswer, hanswer, queryEAs_leftList_malformed, hfour.1,
        if_neg (not_not.mpr rfl), if_pos (by decide), exitCode, exitCode,
        if_neg (not_not.mpr hrelease), if_neg (not_not.mpr hrelease), hleft] at heq
      rcases (e.eaop s).left_code s.caller
          (queryEAs (copyGeas l.daemonEnv.stack (leftList 4) FIL_QUERYEASFROMLIST) (leftList 4)).2
        with hcode | hcode
      · have hsame : ApiRet.NO_ERROR = .ERROR_EA_LIST_INCONSISTENT := hcode.symm.trans heq
        cases hsame
      · have hsame : ApiRet.ERROR_INVALID_PARAMETER = .ERROR_EA_LIST_INCONSISTENT :=
          hcode.symm.trans heq
        cases hsame
  · rintro ⟨hnot, hrelease⟩
    have hconst (m : Memory) : e.data.given s m =
        (l.stub.releaseSem, ((e.eaop s).left s.caller zeros).2) := by
      rw [hgiven, hleft, (e.eaop s).left_of_not_discloses hnot _ zeros, exitCode, if_pos hrelease]
    rw [ignores_congr hconst]
    exact .const _ _

/-- A query of another level that the daemon does not answer gives the leftovers themselves. -/
theorem ignores_uncopied_iff {answer : Memory → ApiRet × Memory} {rc : ApiRet}
    (hgiven : e.AnsweredWith s answer)
    (hget : e.fsFlag &&& FI_SET = 0) (heas : e.usLevel ≠ 3) (hall : e.usLevel ≠ 4)
    (hanswer : ∀ m, answer m = (rc, m)) : Ignores 65536 (e.data.given s) ↔
      (l.stub.probe .dataWrite = .NO_ERROR → e.cbData = 0) := by
  by_cases hwrite : l.stub.probe .dataWrite = .NO_ERROR
  · have hleft (m : Memory) : e.left s m =
        (.NO_ERROR, s.caller.blit e.pData (m.slice 0 e.cbData.toNat)) := by
      rw [left_of_data hget heas hall, if_pos hwrite]
    have hconst (m : Memory) : e.data.given s m =
        (exitCode l.stub (if rc ≠ .NO_ERROR then rc else .NO_ERROR),
          s.caller.blit e.pData ((m.blit 0 []).slice 0 e.cbData.toNat)) := by
      rw [hgiven, hanswer, hleft, blit_nil]
    rw [ignores_congr hconst, ignores_const_pair_iff,
      ignores_copy_iff (Nat.le_of_lt e.cbData.toNat_lt), imp_iff_right hwrite, List.length_nil,
      Nat.le_zero, ← UInt16.toNat_inj]
    rfl
  · refine iff_of_true (ignores_given hgiven (fun m m' _ => ?_) fun m m' _ => ?_)
      fun h => absurd h hwrite
    · dsimp only
      rw [hanswer, hanswer]
    · dsimp only
      rw [left_of_data hget heas hall, left_of_data hget heas hall, if_neg hwrite, if_neg hwrite]

/-- A level 1 or 2 query of an entry gives nothing away. -/
theorem ignores_of_standard {answer : Memory → ApiRet × Memory} {entry : IsoDirEntry}
    (hgiven : e.AnsweredWith s answer)
    (hget : e.fsFlag &&& FI_SET = 0) (hlevel : e.usLevel = 1 ∨ e.usLevel = 2)
    (hanswer : ∀ m, answer m =
      doFileInfo e.fsFlag e.usLevel e.cbData l.daemonEnv.stack m entry) :
    Ignores 65536 (e.data.given s) := by
  have heas : e.usLevel ≠ 3 := by
    rcases hlevel with hlevel | hlevel <;> rw [hlevel] <;> decide
  have hall : e.usLevel ≠ 4 := by
    rcases hlevel with hlevel | hlevel <;> rw [hlevel] <;> decide
  have hsame (m m' : Memory) := @doFileInfo_standard e.fsFlag e.usLevel e.cbData
    l.daemonEnv.stack entry hget hlevel m m'
  refine ignores_given hgiven (fun m m' _ => ?_) fun m m' _ => ?_
  · dsimp only
    rw [hanswer, hanswer]
    exact (hsame m m').1
  · dsimp only
    rw [left_of_data hget heas hall, left_of_data hget heas hall, hanswer, hanswer, (hsame m m').2]

/-! ### All levels -/

/-- A query about `found` gives back only what has been written for it. -/
structure Covers (e : InfoEntry l.stub) (s : StubState Daemon.State) (found : Option IsoDirEntry) :
    Prop where
  fromList : e.usLevel = 3 → e.HandsList s ∨ ¬ (e.eaop s).Discloses s.caller ∧
    (found ≠ none → l.stub.releaseSem ≠ .NO_ERROR)
  allEas : e.usLevel = 4 → (e.eaop s).Discloses s.caller → found ≠ none
  data : e.usLevel ≠ 3 → e.usLevel ≠ 4 → l.stub.probe .dataWrite = .NO_ERROR → e.cbData ≠ 0 →
    found ≠ none ∧ (e.usLevel = 1 ∨ e.usLevel = 2)

/-- At level 3 nothing but the list counts. -/
theorem covers_iff_of_fromList {found : Option IsoDirEntry} (hlevel : e.usLevel = 3) :
    e.Covers s found ↔ e.HandsList s ∨ ¬ (e.eaop s).Discloses s.caller ∧
      (found ≠ none → l.stub.releaseSem ≠ .NO_ERROR) := by
  have hall : e.usLevel ≠ 4 := by
    rw [hlevel]
    decide
  exact ⟨fun h => h.fromList hlevel,
    fun h => ⟨fun _ => h, fun h4 => absurd h4 hall, fun h3 => absurd hlevel h3⟩⟩

theorem covers_iff_of_allEas {found : Option IsoDirEntry} (hlevel : e.usLevel = 4) :
    e.Covers s found ↔ ((e.eaop s).Discloses s.caller → found ≠ none) := by
  have heas : e.usLevel ≠ 3 := by
    rw [hlevel]
    decide
  exact ⟨fun h => h.allEas hlevel,
    fun h => ⟨fun h3 => absurd h3 heas, fun _ => h, fun _ h4 => absurd hlevel h4⟩⟩

theorem covers_iff_of_data {found : Option IsoDirEntry} (heas : e.usLevel ≠ 3)
    (hall : e.usLevel ≠ 4) : e.Covers s found ↔
      (l.stub.probe .dataWrite = .NO_ERROR → e.cbData ≠ 0 →
        found ≠ none ∧ (e.usLevel = 1 ∨ e.usLevel = 2)) :=
  ⟨fun h => h.data heas hall,
    fun h => ⟨fun h3 => absurd h3 heas, fun h4 => absurd h4 hall, fun _ _ => h⟩⟩

/-- A query that leads to no entry. -/
theorem ignores_unanswered_iff {rc : ApiRet} (hget : e.fsFlag &&& FI_SET = 0)
    (hgiven : e.AnsweredWith s fun m => (rc, e.filled s m)) :
    Ignores 65536 (e.data.given s) ↔ e.Covers s none := by
  by_cases heas : e.usLevel = 3
  · rw [covers_iff_of_fromList heas]
    by_cases hlist : e.HandsList s
    · obtain ⟨list, hbytes, hfilled⟩ := filled_of_handsList hget heas hlist
      have hwritten (m : Memory) : (rc, e.filled s m) = (rc, (m.blit 0 []).blit 0 list) := by
        rw [hfilled, blit_nil]
      exact iff_of_true (ignores_of_written hgiven (left_of_eaop hget (Or.inl heas))
        (Nat.zero_le _) hbytes hwritten) (Or.inl hlist)
    · have hsame (m : Memory) : (rc, e.filled s m) = (rc, m) := by
        rw [filled_of_not_handsList hget heas hlist]
      rw [ignores_unwritten_iff hgiven (left_of_eaop hget (Or.inl heas)) hsame]
      exact ⟨fun h => Or.inr ⟨h, fun hne => absurd rfl hne⟩, fun h => (h.resolve_left hlist).1⟩
  · have hsame (m : Memory) : (rc, e.filled s m) = (rc, m) := by
      rw [filled_of_ne hget heas]
    by_cases hall : e.usLevel = 4
    · rw [covers_iff_of_allEas hall,
        ignores_unwritten_iff hgiven (left_of_eaop hget (Or.inr hall)) hsame]
      exact ⟨fun h hdiscloses => absurd hdiscloses h, fun h hdiscloses => h hdiscloses rfl⟩
    · rw [covers_iff_of_data heas hall, ignores_uncopied_iff hgiven hget heas hall hsame]
      refine forall_congr' fun _ => ⟨fun h hne => absurd h hne, fun h => ?_⟩
      by_contra hne
      exact (h hne).1 rfl

/-- A query about an entry. -/
theorem ignores_answered_iff {entry : IsoDirEntry} (hget : e.fsFlag &&& FI_SET = 0)
    (hgiven : e.AnsweredWith s fun m =>
      doFileInfo e.fsFlag e.usLevel e.cbData l.daemonEnv.stack (e.filled s m) entry) :
    Ignores 65536 (e.data.given s) ↔ e.Covers s (some entry) := by
  have hsome : some entry ≠ none := Option.some_ne_none entry
  by_cases heas : e.usLevel = 3
  · have hlisted (m : Memory) :
        doFileInfo e.fsFlag e.usLevel e.cbData l.daemonEnv.stack (e.filled s m) entry =
          queryEAs (copyGeas l.daemonEnv.stack (e.filled s m) FIL_QUERYEASFROMLIST)
            (e.filled s m) := by
      rw [heas]
      exact doFileInfo_listed hget
    rw [covers_iff_of_fromList heas]
    by_cases hlist : e.HandsList s
    · obtain ⟨list, hbytes, hfilled⟩ := filled_of_handsList hget heas hlist
      have hwritten (m : Memory) :
          doFileInfo e.fsFlag e.usLevel e.cbData l.daemonEnv.stack (e.filled s m) entry =
            queryEAs (copyGeas l.daemonEnv.stack (zeros.blit 0 list) FIL_QUERYEASFROMLIST)
              (m.blit 0 list) := by
        rw [hlisted, hfilled, copyGeas_blit hbytes _ _ m zeros]
      simp only [queryEAs_eq] at hwritten
      exact iff_of_true (ignores_of_written hgiven (left_of_eaop hget (Or.inl heas))
        hbytes.size (feaListWritten_listBytes _) hwritten) (Or.inl hlist)
    · have hlost (m : Memory) :
          doFileInfo e.fsFlag e.usLevel e.cbData l.daemonEnv.stack (e.filled s m) entry =
            queryEAs (copyGeas l.daemonEnv.stack m FIL_QUERYEASFROMLIST) m := by
        rw [hlisted, filled_of_not_handsList hget heas hlist]
      rw [ignores_lost_iff hgiven (left_of_eaop hget (Or.inl heas)) hlost]
      exact ⟨fun h => Or.inr ⟨h.1, fun _ => h.2⟩,
        fun h => (h.resolve_left hlist).imp_right fun hrelease => hrelease hsome⟩
  · by_cases hall : e.usLevel = 4
    · rw [covers_iff_of_allEas hall]
      have hwritten (m : Memory) :
          doFileInfo e.fsFlag e.usLevel e.cbData l.daemonEnv.stack (e.filled s m) entry =
            ((feaListWritten (askedNames none) eaRoom).1,
              (m.blit 0 []).blit 0 (feaListWritten (askedNames none) eaRoom).2) := by
        rw [filled_of_ne hget heas, hall, blit_nil, ← queryEAs_eq]
        exact doFileInfo_all hget
      exact iff_of_true (ignores_of_written hgiven (left_of_eaop hget (Or.inr hall))
        (Nat.zero_le _) (feaListWritten_listBytes _) hwritten) fun _ => hsome
    · rw [covers_iff_of_data heas hall]
      by_cases hstandard : e.usLevel = 1 ∨ e.usLevel = 2
      · have hsame (m : Memory) :
            doFileInfo e.fsFlag e.usLevel e.cbData l.daemonEnv.stack (e.filled s m) entry =
              doFileInfo e.fsFlag e.usLevel e.cbData l.daemonEnv.stack m entry := by
          rw [filled_of_ne hget heas]
        exact iff_of_true (ignores_of_standard hgiven hget hstandard hsame)
          fun _ _ => ⟨hsome, hstandard⟩
      · have hunknown (m : Memory) :
            doFileInfo e.fsFlag e.usLevel e.cbData l.daemonEnv.stack (e.filled s m) entry =
              (.ERROR_NOT_SUPPORTED, m) := by
          rw [filled_of_ne hget heas]
          exact doFileInfo_unknown hget hstandard heas hall
        rw [ignores_uncopied_iff hgiven hget heas hall hunknown]
        refine forall_congr' fun _ => ⟨fun h hne => absurd h hne, fun h => ?_⟩
        by_contra hne
        exact hstandard (h hne).2

/-- A query that is answered ignores the leftovers exactly when it is covered. -/
theorem ignores_iff (hget : e.fsFlag &&& FI_SET = 0)
    (hgiven : e.AnsweredWith s fun m =>
      s.daemon.answer l.daemonEnv (e.handed s) call (e.filled s m)) :
    Ignores 65536 (e.data.given s) ↔
      e.Covers s (s.daemon.queried l.daemonEnv (e.handed s) call) := by
  cases hfound : s.daemon.queried l.daemonEnv (e.handed s) call with
  | none =>
    rw [funext fun m => answer_of_none s call (e.filled s m) hfound] at hgiven
    exact ignores_unanswered_iff hget hgiven
  | some entry =>
    rw [funext fun m => answer_of_some s call (e.filled s m) hfound] at hgiven
    exact ignores_answered_iff hget hgiven

/-- Information that is set gives nothing away. -/
theorem ignores_of_set (hset : e.fsFlag &&& FI_SET ≠ 0)
    (hgiven : e.AnsweredWith s fun m =>
      s.daemon.answer l.daemonEnv (e.handed s) call (e.filled s m)) :
    Ignores 65536 (e.data.given s) := by
  refine ignores_given hgiven (fun m m' _ => ?_) fun m m' _ => left_of_set hset _ _
  dsimp only
  cases hfound : s.daemon.queried l.daemonEnv (e.handed s) call with
  | none => rw [answer_of_none s _ _ hfound, answer_of_none s _ _ hfound]
  | some entry =>
    rw [answer_of_some s _ _ hfound, answer_of_some s _ _ hfound, doFileInfo_set hset,
      doFileInfo_set hset]

/-- What the daemon writes covers what the query copies back, when it is answered. -/
def Covered (e : InfoEntry l.stub) (s : StubState Daemon.State) : Prop :=
  e.data.Answered s → e.fsFlag &&& FI_SET = 0 → ∀ call, Daemon.callOf (e.handed s).rq = some call →
    e.Covers s (s.daemon.queried l.daemonEnv (e.handed s) call)

/-- A query gives nothing away exactly when it is covered. -/
theorem hides_iff (husable : e.data.Answered s → Daemon.Usable s.daemon.core
      ⟨call, e.handed s, s.pFSData, l.daemonEnv⟩)
    (hcall : Daemon.callOf (e.handed s).rq = some call) : Hides e.body s ↔ e.Covered s := by
  rw [show e.body = e.data.body from rfl, e.data.hides_iff s, Covered]
  refine forall_congr' fun hanswered => ?_
  have hgiven := given_eq hcall (husable hanswered)
  by_cases hget : e.fsFlag &&& FI_SET = 0
  · rw [imp_iff_right hget, ignores_iff hget hgiven]
    constructor
    · intro h call' hcall'
      obtain rfl := Option.some.inj (hcall.symm.trans hcall')
      exact h
    · intro h
      exact h call hcall
  · exact iff_of_true (ignores_of_set hget hgiven) fun h => absurd h hget

end Queries

end InfoEntry

/-! ### The calls -/

section Calls

variable (l : Link) (s : StubState Daemon.State) (call : StubCall)

/-- The entry of a call that copies result data back. -/
def StubCall.dataEntry (env : StubEnv Daemon.State) : Option (DataEntry env) :=
  (call.findEntry env).elim ((call.infoEntry env).map InfoEntry.data) fun e => some e.data

/-- What the daemon writes over the data buffer covers what the call copies back. -/
def StubCall.Covered : Prop :=
  (∀ e, call.findEntry l.stub = some e → e.Covered s) ∧
    ∀ e, call.infoEntry l.stub = some e → e.Covered s

variable {l s call}

/-- The objects that the request uses are there when the daemon gets it. -/
def DataEntry.Meets (e : DataEntry l.stub) (s : StubState Daemon.State) : Prop :=
  e.Answered s → ∀ call, Daemon.callOf (e.request s.pRequest).rq = some call →
    Daemon.Usable s.daemon.core ⟨call, e.request s.pRequest, s.pFSData, l.daemonEnv⟩

theorem FindEntry.exists_call (e : FindEntry l.stub) (s : StubState Daemon.State) :
    ∃ call, Daemon.callOf (e.handed s).rq = some call := by
  have hrq : (e.handed s).rq = .FSRQ_FINDFIRST ∨ (e.handed s).rq = .FSRQ_FINDNEXT ∨
    (e.handed s).rq = .FSRQ_FINDFROMNAME := e.rq s.pRequest
  rcases hrq with hrq | hrq | hrq
  · exact ⟨.findFirst, congrArg Daemon.callOf hrq⟩
  · exact ⟨.findNext, congrArg Daemon.callOf hrq⟩
  · exact ⟨.findFromName, congrArg Daemon.callOf hrq⟩

theorem InfoEntry.exists_call (e : InfoEntry l.stub) (s : StubState Daemon.State) :
    ∃ call, Daemon.callOf (e.handed s).rq = some call := by
  have hrq : (e.handed s).rq = .FSRQ_FILEINFO ∨ (e.handed s).rq = .FSRQ_PATHINFO :=
    e.rq s.pRequest
  rcases hrq with hrq | hrq
  · exact ⟨.fileInfo, congrArg Daemon.callOf hrq⟩
  · exact ⟨.pathInfo, congrArg Daemon.callOf hrq⟩

/-- A call on information is no search. -/
theorem findEntry_of_infoEntry {env : StubEnv Daemon.State} {e : InfoEntry env}
    (h : call.infoEntry env = some e) : call.findEntry env = none := by
  cases call <;> first | rfl | cases h

theorem givesUp_of_findEntry {e : FindEntry l.stub} (h : call.findEntry l.stub = some e) :
    e.GivesUp := by
  intro rc
  cases call with
  | fsFindFirst =>
    cases h
    change undoCode l.stub rc = _ ∨ undoCode l.stub rc = _
    rw [undoCode]
    split
    · exact Or.inr rfl
    · exact Or.inl rfl
  | fsFindNext =>
    cases h
    exact Or.inl rfl
  | fsFindFromName =>
    cases h
    exact Or.inl rfl
  | _ => cases h

/-- A call gives nothing away of what was left in the data buffer exactly when what the daemon
writes covers what is copied back. -/
theorem leftovers_hidden_iff {e : DataEntry l.stub} (he : call.dataEntry l.stub = some e)
    (hmeets : e.Meets s) (hkernel : signalCode l.stub .undo ≠ .ERROR_EA_LIST_INCONSISTENT) :
    Hides (call.body l.stub) s ↔ call.Covered l s := by
  rw [StubCall.dataEntry] at he
  cases hfind : call.findEntry l.stub with
  | some f =>
    rw [hfind] at he
    obtain rfl := Option.some.inj he
    obtain ⟨dcall, hdcall⟩ := f.exists_call s
    have hhides := FindEntry.hides_iff (givesUp_of_findEntry hfind) hkernel
      (fun hanswered => hmeets hanswered dcall hdcall) hdcall
    have hinfo (e : InfoEntry l.stub) : call.infoEntry l.stub ≠ some e := fun h => by
      rw [findEntry_of_infoEntry h] at hfind
      cases hfind
    rw [body_of_findEntry hfind, hhides]
    constructor
    · intro h
      refine ⟨fun f' hf' => ?_, fun e h => absurd h (hinfo e)⟩
      obtain rfl := Option.some.inj (hfind.symm.trans hf')
      exact h
    · intro h
      exact h.1 f hfind
  | none =>
    rw [hfind] at he
    obtain ⟨i, hi, rfl⟩ := Option.map_eq_some_iff.mp he
    obtain ⟨dcall, hdcall⟩ := i.exists_call s
    have hhides := i.hides_iff (fun hanswered => hmeets hanswered dcall hdcall) hdcall
    rw [body_of_infoEntry hi, hhides]
    constructor
    · intro h
      refine ⟨fun f hf => ?_, fun i' hi' => ?_⟩
      · cases hfind.symm.trans hf
      · obtain rfl := Option.some.inj (hi.symm.trans hi')
        exact h
    · intro h
      exact h.2 i hi

end Calls

/-- A level 1 query by the path `E:/c`. -/
def pathQuery (c : UInt8) : StubCall := .fsPathInfo 0 default [] [0x45, 0x3a, 0x2f, c] 0 1 0 24

section Sample

variable {d : Daemon.State} {node : VolNode} {c : UInt8} {e : InfoEntry jolietLink.stub}

theorem infoEntry_pathQuery (he : (pathQuery c).infoEntry jolietLink.stub = some e) :
    e = pathInfoEntry jolietLink.stub 0 default [] [0x45, 0x3a, 0x2f, c] 0 1 0 24 :=
  (Option.some.inj he).symm

/-- The daemon is asked about the entry that the walk along the path finds. -/
theorem queried_pathQuery (hnode : d.core.volumes 1 = some node)
    (hvol : node.vol.toVolData = jolietVolume) {w : Walk (Option IsoDirEntry)}
    (hwalk : isoQueryIsoEntryFromPath jolietVolume Memory.zeros 0 [0x2f, c] = some w) :
    (startWith d).daemon.queried jolietLink.daemonEnv
      ((pathInfoEntry jolietLink.stub 0 default [] [0x45, 0x3a, 0x2f, c] 0 1 0 24).handed
        (startWith d)) .pathInfo = w.result := by
  have hvolume : d.server.volumes.objects 1 = some node := hnode
  rw [Daemon.State.queried, if_neg]
  · change (d.server.volumes.objects 1).bind (fun node => (isoQueryIsoEntryFromPath
      node.vol.toVolData Memory.zeros 0 [0x2f, c]).bind fun w => w.result) = w.result
    rw [hvolume, Option.bind_some, hvol, hwalk, Option.bind_some]
  · have hgood : Daemon.badPath [0x45, 0x3a, 0x2f, c] = false := rfl
    change ¬ Daemon.badPath [0x45, 0x3a, 0x2f, c] = true
    rw [hgood]
    exact Bool.false_ne_true

/-- The volume of the query is there. -/
theorem meets_pathQuery (hnode : d.core.volumes 1 = some node)
    (hvol : node.vol.toVolData = jolietVolume) :
    (pathInfoEntry jolietLink.stub 0 default [] [0x45, 0x3a, 0x2f, c] 0 1 0 24).data.Meets
      (startWith d) := by
  intro _ call hcall
  obtain rfl : Daemon.Call.pathInfo = call := Option.some.inj hcall
  refine ⟨⟨node, hnode⟩, fun node' hnode' => ?_⟩
  obtain rfl := Option.some.inj (hnode.symm.trans hnode')
  rw [hvol]
  exact Nat.le_refl 3

end Sample

/-- A query about the file `A` gives nothing away. -/
theorem leftovers_hidden_iff_fileA :
    ∃ d, Hides ((pathQuery 0x41).body jolietLink.stub) (startWith d) := by
  obtain ⟨sys, node, -, -, hnode, hvol⟩ := Daemon.next_attachRequest
  have hkernel : signalCode jolietLink.stub .undo ≠ .ERROR_EA_LIST_INCONSISTENT :=
    show ApiRet.NO_ERROR ≠ .ERROR_EA_LIST_INCONSISTENT by decide
  refine ⟨sys.daemon,
    (leftovers_hidden_iff rfl (meets_pathQuery hnode hvol) hkernel).mpr ⟨nofun, ?_⟩⟩
  intro e he _ _ call hcall
  obtain rfl := infoEntry_pathQuery he
  obtain rfl : Daemon.Call.pathInfo = call := Option.some.inj hcall
  rw [queried_pathQuery hnode hvol isoQueryIsoEntryFromPath_jolietVolume]
  exact ⟨fun h => absurd h (by decide), fun h => absurd h (by decide),
    fun _ _ _ _ => ⟨Option.some_ne_none _, Or.inl rfl⟩⟩

/-- A query about a file that is not there gives its caller what was left in the data buffer. -/
theorem leftovers_given_away : ¬ ∀ (l : Link) (s : StubState Daemon.State) (call : StubCall)
    (e : DataEntry l.stub), call.dataEntry l.stub = some e → e.Meets s →
      signalCode l.stub .undo ≠ .ERROR_EA_LIST_INCONSISTENT → Hides (call.body l.stub) s := by
  intro h
  obtain ⟨sys, node, -, -, hnode, hvol⟩ := Daemon.next_attachRequest
  have hmeets := @meets_pathQuery sys.daemon node 0x58 hnode hvol
  have hhides := h jolietLink (startWith sys.daemon) (pathQuery 0x58) _ rfl hmeets
    (show ApiRet.NO_ERROR ≠ .ERROR_EA_LIST_INCONSISTENT by decide)
  have hanswered : (pathInfoEntry jolietLink.stub 0 default [] [0x45, 0x3a, 0x2f, 0x58] 0 1 0
      24).data.Answered (startWith sys.daemon) :=
    ⟨⟨rfl, show 4 < CCHMAXPATH by decide⟩, rfl⟩
  have hcovered := (InfoEntry.hides_iff (fun _ => hmeets hanswered .pathInfo rfl) rfl).mp
    (body_of_infoEntry (rfl : (pathQuery 0x58).infoEntry jolietLink.stub = _) ▸ hhides)
  obtain ⟨w, hwalk, hnone⟩ := isoQueryIsoEntryFromPath_jolietVolume_none
  have hcovers := hcovered hanswered rfl .pathInfo rfl
  rw [queried_pathQuery hnode hvol hwalk, hnone] at hcovers
  have hlevel := hcovers.data (show (1 : UInt16) ≠ 3 by decide) (show (1 : UInt16) ≠ 4 by decide)
    rfl (show (24 : UInt16) ≠ 0 by decide)
  exact hlevel.1 rfl

end Stub

end Isofs
