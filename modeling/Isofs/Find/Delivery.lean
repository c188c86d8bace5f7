import Isofs.Find.Search

/-!
# A search delivers every matching entry once

The entries that a search has still to deliver are the matching ones from its cursor on. A
call takes what it delivers from the front of them and leaves the rest, whatever its buffer,
its level and its GEA list are.
-/

namespace Isofs

/-! ### The entries still to be delivered -/

/-- The entry satisfies the criteria of the search. -/
def SearchData.wants (s : SearchData) (pEntry : IsoDirEntry) : Bool :=
  entryMatches s pEntry && fileMatches2 s pEntry

/-- The places of the matching entries from the cursor on. -/
def SearchData.remaining (s : SearchData) : List ℕ :=
  (s.pFirstInIsoDir.drop s.pIsoNext).findIdxs s.wants s.pIsoNext

theorem wants_iff {s : SearchData} {pEntry : IsoDirEntry} :
    s.wants pEntry = true ↔ entryMatches s pEntry ∧ fileMatches2 s pEntry := by
  rw [SearchData.wants, Bool.and_eq_true]

theorem entryMatches_strupr (s : SearchData) (pEntry : IsoDirEntry) :
    entryMatches s pEntry.strupr = entryMatches s pEntry := by
  have hnon83 : hasNon83Name pEntry.strupr.chrName = hasNon83Name pEntry.chrName :=
    hasNon83Name_strupr pEntry.chrName
  have hname : nameMatches s.szName pEntry.strupr.chrName = nameMatches s.szName pEntry.chrName :=
    nameMatches_strupr s.szName pEntry.chrName
  have hflags : pEntry.strupr.flFlags = pEntry.flFlags := rfl
  unfold entryMatches
  rw [hnon83, hname, hflags]

/-- An entry that has been stored in upper case is still a match. -/
theorem wants_storedEntry (s : SearchData) (pEntry : IsoDirEntry) :
    s.wants (s.storedEntry pEntry) = s.wants pEntry := by
  rw [SearchData.storedEntry]
  split
  · rw [SearchData.wants, entryMatches_strupr]
    rfl
  · rfl

theorem remaining_of_none {s : SearchData} (h : s.pEntryAt? = none) : s.remaining = [] := by
  have hlen : s.pFirstInIsoDir.length ≤ s.pIsoNext := List.getElem?_eq_none_iff.mp h
  rw [SearchData.remaining, List.drop_eq_nil_of_le hlen, List.findIdxs_nil]

/-- The entry at the cursor comes first, if it matches. -/
theorem remaining_of_some {s : SearchData} {pEntry : IsoDirEntry} (h : s.pEntryAt? = some pEntry) :
    s.remaining = if s.wants pEntry then s.pIsoNext :: (advanceSearch s).remaining
      else (advanceSearch s).remaining := by
  obtain ⟨hlt, hget⟩ := List.getElem?_eq_some_iff.mp h
  rw [SearchData.remaining, List.drop_eq_getElem_cons hlt, List.findIdxs_cons, hget]
  rfl

theorem pEntryAt?_setEntry {s : SearchData} {pEntry : IsoDirEntry} (h : s.pEntryAt? = some pEntry)
    (pEntry' : IsoDirEntry) : (s.setEntry pEntry').pEntryAt? = some pEntry' := by
  simp only [SearchData.pEntryAt?, SearchData.setEntry]
  rw [List.getElem?_set_self (SearchData.cursor_lt h)]

theorem remaining_advance_setEntry (s : SearchData) (pEntry : IsoDirEntry) :
    (advanceSearch (s.setEntry pEntry)).remaining = (advanceSearch s).remaining := by
  have hdrop : (s.pFirstInIsoDir.set s.pIsoNext pEntry).drop (s.pIsoNext + 1) =
      s.pFirstInIsoDir.drop (s.pIsoNext + 1) := List.drop_set_of_lt (Nat.lt_succ_self _)
  show ((s.pFirstInIsoDir.set s.pIsoNext pEntry).drop (s.pIsoNext + 1)).findIdxs s.wants _ = _
  rw [hdrop]
  rfl

/-- Storing an entry changes it, but not whether it is still to be delivered. -/
theorem remaining_setEntry {s : SearchData} {pEntry : IsoDirEntry} (h : s.pEntryAt? = some pEntry) :
    (s.setEntry (s.storedEntry pEntry)).remaining = s.remaining := by
  have hwants : (s.setEntry (s.storedEntry pEntry)).wants (s.storedEntry pEntry) =
      s.wants pEntry := wants_storedEntry s pEntry
  rw [remaining_of_some (pEntryAt?_setEntry h _), remaining_of_some h, hwants,
    remaining_advance_setEntry]
  rfl

/-! ### One entry -/

/-- What `storeNextFileInfo` does to a search: it stores the next matching entry and goes behind
it, or it fails to and stays there, or there is none. -/
inductive NextOutcome (pgeas : Option Memory) (ulLevel : UInt16) (s : SearchData) :
    ApiRet → SearchData → Prop where
  | stored {s' : SearchData} (hcode : RecordCode pgeas ulLevel .NO_ERROR)
      (hnext : s.remaining = (s'.pIsoNext - 1) :: s'.remaining) :
      NextOutcome pgeas ulLevel s .NO_ERROR s'
  | failed {rc : ApiRet} {s' : SearchData} (hrc : rc ≠ .NO_ERROR)
      (hcode : RecordCode pgeas ulLevel rc) (hsame : s.remaining = s'.remaining)
      (hcursor : s'.remaining = s'.pIsoNext :: (advanceSearch s').remaining) :
      NextOutcome pgeas ulLevel s rc s'
  | exhausted {s' : SearchData} (hnone : s.remaining = []) (hnone' : s'.remaining = []) :
      NextOutcome pgeas ulLevel s .ERROR_NO_MORE_FILES s'

theorem NextOutcome.of_remaining_eq {pgeas : Option Memory} {ulLevel : UInt16}
    {s t s' : SearchData} {rc : ApiRet} (h : NextOutcome pgeas ulLevel t rc s')
    (hrem : s.remaining = t.remaining) : NextOutcome pgeas ulLevel s rc s' := by
  cases h with
  | stored hcode hnext => exact .stored hcode (hrem.trans hnext)
  | failed hrc hcode hsame hcursor => exact .failed hrc hcode (hrem.trans hsame) hcursor
  | exhausted hnone hnone' => exact .exhausted (hrem.trans hnone) hnone'

/-- The code of storing the entry at the cursor. -/
theorem storedEntry_code (pgeas : Option Memory) (ulLevel flFlags : UInt16) (iNext : ℤ)
    (pEntry : IsoDirEntry) {buf buf' : OutBuf} {rc : ApiRet}
    (h : (storeFileInfo pgeas (some pEntry.chrName) ulLevel flFlags iNext pEntry).run buf =
      (rc, buf')) : RecordCode pgeas ulLevel rc := by
  have hname : pEntry.chrName.length ≤ 255 := Nat.le_of_lt_succ pEntry.chrName_length_lt
  have hcode := storeFileInfo_code pgeas hname ulLevel flFlags iNext pEntry buf
  rwa [h] at hcode

theorem storeNextFileInfo_outcome (pgeas : Option Memory) (ulLevel flFlags : UInt16)
    (s : SearchData) (buf : OutBuf) :
    NextOutcome pgeas ulLevel s (storeNextFileInfo pgeas ulLevel flFlags s buf).1
      (storeNextFileInfo pgeas ulLevel flFlags s buf).2.1 := by
  -- along the entries that the cursor passes
  fun_induction storeNextFileInfo pgeas ulLevel flFlags s buf with
  | case1 s hnone => exact .exhausted (remaining_of_none hnone) (remaining_of_none hnone)
  | case2 s pEntry hsome hmatch pEntry' rc buf' hstore s' hrc =>
    have hwants : s'.wants pEntry' = true :=
      (wants_storedEntry s pEntry).trans (wants_iff.mpr hmatch)
    refine .failed hrc (storedEntry_code pgeas ulLevel flFlags s.iNext pEntry' hstore)
      (remaining_setEntry hsome).symm ?_
    rw [remaining_of_some (pEntryAt?_setEntry hsome _), if_pos hwants]
  | case3 s pEntry hsome hmatch pEntry' rc buf' hstore s' hrc =>
    have hcode := storedEntry_code pgeas ulLevel flFlags s.iNext pEntry' hstore
    rw [not_not.mp hrc] at hcode
    refine .stored hcode ?_
    rw [remaining_of_some hsome, if_pos (wants_iff.mpr hmatch), remaining_advance_setEntry]
    rfl
  | case4 s pEntry hsome hmatch ih =>
    refine ih.of_remaining_eq ?_
    rw [remaining_of_some hsome, if_neg (mt wants_iff.mp hmatch)]

/-! ### One call -/

/-- What the loop of `storeDirContents` does: it takes the entries it stores from the front of
the remaining ones, and stops at the end or at the entry that it fails to store. -/
structure BatchOutcome (pgeas : Option Memory) (ulLevel : UInt16) (cLeft : ℕ) (s : SearchData)
    (r : StoredEntries) : Prop where
  split : s.remaining = r.stored ++ r.search.remaining
  length_le : r.stored.length ≤ cLeft
  stored_code : r.stored ≠ [] → RecordCode pgeas ulLevel .NO_ERROR
  stop : r.rc ≠ .NO_ERROR →
    (r.rc = .ERROR_NO_MORE_FILES ∧ r.search.remaining = []) ∨
      (RecordCode pgeas ulLevel r.rc ∧
        r.search.remaining = r.search.pIsoNext :: (advanceSearch r.search).remaining)

theorem storeEntries_outcome (pgeas : Option Memory) (ulLevel flFlags : UInt16) (cLeft : ℕ)
    (s : SearchData) (buf : OutBuf) :
    BatchOutcome pgeas ulLevel cLeft s (storeEntries pgeas ulLevel flFlags cLeft s buf) := by
  induction cLeft generalizing s buf with
  | zero => exact ⟨rfl, Nat.le_refl 0, fun h => absurd rfl h, fun h => absurd rfl h⟩
  | succ cLeft ih =>
    have hnext := storeNextFileInfo_outcome pgeas ulLevel flFlags s buf
    rw [storeEntries]
    generalize storeNextFileInfo pgeas ulLevel flFlags s buf = next at hnext ⊢
    obtain ⟨rc, s', buf'⟩ := next
    dsimp only at hnext
    cases hnext with
    | stored hcode hnext =>
      obtain ⟨hsplit, hlength, -, hstop⟩ := ih s' buf'
      refine ⟨?_, Nat.succ_le_succ hlength, fun _ => hcode, hstop⟩
      rw [hnext, hsplit]
      rfl
    | failed hrc hcode hsame hcursor =>
      simp only [if_pos hrc]
      exact ⟨hsame, Nat.zero_le _, fun h => absurd rfl h, fun _ => Or.inr ⟨hcode, hcursor⟩⟩
    | exhausted hnone hnone' =>
      exact ⟨hnone.trans hnone'.symm, Nat.zero_le _, fun h => absurd rfl h,
        fun _ => Or.inl ⟨rfl, hnone'⟩⟩

/-- A GEA list that one entry was stored with is not found inconsistent at another. -/
theorem endsBatch_of_code {pgeas : Option Memory} {ulLevel : UInt16} {rc : ApiRet}
    (hok : RecordCode pgeas ulLevel .NO_ERROR) (hcode : RecordCode pgeas ulLevel rc)
    (hrc : rc ≠ .NO_ERROR) : endsBatch rc = true := by
  rcases hcode with ⟨h, -⟩ | rfl | rfl | ⟨-, hlevel, m, hm, hlist⟩
  · exact absurd h hrc
  · rfl
  · rfl
  · rcases hok with ⟨-, hok⟩ | h | h | ⟨h, -⟩
    · exact absurd (hok hlevel m hm) hlist
    all_goals cases h

/-- What a call does to the entries that remain. -/
structure Delivers (s : SearchData) (r : FindReply) : Prop where
  split : s.remaining = r.delivered ++ r.search.remaining
  count : r.rc = .NO_ERROR ∨ r.rc = .ERROR_EAS_DIDNT_FIT → r.delivered.length = r.cMatch.toNat
  none : r.rc ≠ .NO_ERROR → r.rc ≠ .ERROR_EAS_DIDNT_FIT → r.delivered = []
  exhausted : r.rc = .ERROR_NO_MORE_FILES → s.remaining = []

theorem finishBatch_delivers {pgeas : Option Memory} {ulLevel : UInt16} {cMatch : UInt16}
    {s : SearchData} {r : StoredEntries} (h : BatchOutcome pgeas ulLevel cMatch.toNat s r) :
    Delivers s (finishBatch r) := by
  obtain ⟨hsplit, hlength, hstored, hstop⟩ := h
  have hmatch := cMatch.toNat_lt
  rw [finishBatch]
  split
  · next hok =>
    refine ⟨hsplit, fun _ => ?_, fun h => absurd rfl h, nofun⟩
    rw [UInt16.toNat_ofNat', Nat.mod_eq_of_lt (by omega)]
  · next hbad =>
    obtain ⟨hrc, hempty⟩ := not_or.mp hbad
    -- the loop has stopped at its first entry
    have hnil : r.stored = [] := by
      by_contra hne
      refine hempty ⟨hne, ?_⟩
      rcases hstop hrc with ⟨h, -⟩ | ⟨hcode, -⟩
      · rw [h]
        rfl
      · exact endsBatch_of_code (hstored hne) hcode hrc
    rw [hnil, List.nil_append] at hsplit
    split
    · next heas =>
      refine ⟨?_, fun _ => rfl, fun _ h => absurd heas h, fun h => absurd (heas.symm.trans h) nofun⟩
      rcases hstop hrc with ⟨h, -⟩ | ⟨-, hcursor⟩
      · exact absurd (heas.symm.trans h) nofun
      · rw [hsplit, hcursor]
        rfl
    · next heas =>
      refine ⟨hsplit, fun h => ?_, fun _ _ => rfl, fun h => ?_⟩
      · rcases h with h | h
        · exact absurd h hrc
        · exact absurd h heas
      · rcases hstop hrc with ⟨-, hnone⟩ | ⟨hcode, -⟩
        · exact hsplit.trans hnone
        · rcases hcode with ⟨h', -⟩ | h' | h' | ⟨h', -⟩
          all_goals exact absurd (h.symm.trans h') nofun

theorem Delivers.invalid (s : SearchData) (cMatch : UInt16) (pData : Memory) :
    Delivers s ⟨.ERROR_INVALID_PARAMETER, cMatch, s, pData, []⟩ :=
  ⟨rfl, fun h => h.elim nofun nofun, fun _ _ => rfl, nofun⟩

theorem storeDirContents_delivers (s : SearchData) (pgeas : Option Memory) (pData : Memory)
    (cbData ulLevel cMatch flFlags : UInt16) :
    Delivers s (storeDirContents s pgeas pData cbData ulLevel cMatch flFlags) := by
  rw [storeDirContents]
  split
  · exact .invalid ..
  · exact finishBatch_delivers (storeEntries_outcome ..)

theorem storeMatches_delivers (stack : Memory) (s : SearchData) (pData : Memory) (p : Request) :
    Delivers s (storeMatches stack s pData p) :=
  storeDirContents_delivers ..

theorem fsFindNext_delivers (stack : Memory) (s : SearchData) (pData : Memory) (p : Request) :
    Delivers s (fsFindNext stack s pData p) :=
  storeMatches_delivers ..

theorem fsFindFromName_delivers (stack : Memory) (s : SearchData) (pData : Memory) (p : Request) :
    Delivers s (fsFindFromName stack s pData p) := by
  rw [fsFindFromName]
  split
  · exact .invalid ..
  · exact storeMatches_delivers ..

/-! ### All calls on a search -/

/-- The two requests that go on with a search. -/
inductive FindKind where
  | next
  | fromName
  deriving DecidableEq, Repr

/-- A call that goes on with a search, with the data buffer and the stack that it meets. -/
structure FindCall where
  kind : FindKind
  stack : Memory
  pData : Memory
  request : Request

/-- Go on with a search. -/
def continueSearch (s : SearchData) (call : FindCall) : FindReply :=
  match call.kind with
  | .next => fsFindNext call.stack s call.pData call.request
  | .fromName => fsFindFromName call.stack s call.pData call.request

/-- The code of a call, its `*pcMatch` and the places of the entries it delivers. -/
structure CallResult where
  rc : ApiRet
  cMatch : UInt16
  delivered : List ℕ

def FindReply.result (r : FindReply) : CallResult := ⟨r.rc, r.cMatch, r.delivered⟩

def FindFirstReply.result (r : FindFirstReply) : CallResult := ⟨r.rc, r.cMatch, r.delivered⟩

/-- The results of further calls. -/
def continued (s : SearchData) : List FindCall → List CallResult
  | [] => []
  | call :: calls =>
    (continueSearch s call).result :: continued (continueSearch s call).search calls

/-- The results of `fsFindFirst` and of further calls while its search is open. -/
def searchRun (env : FindEnv) (node : VolNode) (pos : ℕ) (pData : Memory) (pfindfirst : Request)
    (calls : List FindCall) : List CallResult :=
  match fsFindFirst env node pos pData pfindfirst with
  | none => []
  | some r =>
    r.result ::
      match r.search with
      | none => []
      | some s => continued s calls

/-- The entries of the directory that is searched; none if there is no such directory. -/
def searchedEntries (env : FindEnv) (node : VolNode) (pos : ℕ) (pfindfirst : Request) :
    List IsoDirEntry :=
  match searchedDir node.vol.toVolData env.sectorStack pos
      (splitPath (pfindfirst.szName.drop 2)).1 with
  | some (.ok entries, _) => entries
  | _ => []

/-- The places of the searched entries that match. -/
def matchingPlaces (env : FindEnv) (node : VolNode) (pos : ℕ) (pfindfirst : Request) : List ℕ :=
  let entries := searchedEntries env node pos pfindfirst
  entries.findIdxs (newSearch env pfindfirst entries).wants

/-- The places delivered by some calls, in order. -/
def deliveredBy (run : List CallResult) : List ℕ := run.flatMap (·.delivered)

theorem continueSearch_delivers (s : SearchData) (call : FindCall) :
    Delivers s (continueSearch s call) := by
  rw [continueSearch]
  split
  · exact fsFindNext_delivers ..
  · exact fsFindFromName_delivers ..

/-- What a run delivers is the front of what remains. -/
theorem deliveredBy_continued (s : SearchData) (calls : List FindCall) :
    deliveredBy (continued s calls) <+: s.remaining := by
  induction calls generalizing s with
  | nil => exact List.nil_prefix
  | cons call calls ih =>
    obtain ⟨rest, hrest⟩ := ih (continueSearch s call).search
    refine ⟨rest, ?_⟩
    rw [(continueSearch_delivers s call).split, ← hrest, ← List.append_assoc]
    rfl

/-- Each call of a run meets what the calls before it have left. -/
theorem continued_split {s : SearchData} {calls : List FindCall} {pre post : List CallResult}
    {call : CallResult} (h : continued s calls = pre ++ call :: post) :
    ∃ t r, Delivers t r ∧ r.result = call ∧ s.remaining = deliveredBy pre ++ t.remaining := by
  induction calls generalizing s pre with
  | nil => exact absurd h.symm (List.append_ne_nil_of_right_ne_nil _ (List.cons_ne_nil _ _))
  | cons c calls ih =>
    have hc := continueSearch_delivers s c
    cases pre with
    | nil =>
      obtain ⟨hcall, -⟩ := List.cons.inj h
      exact ⟨s, _, hc, hcall, rfl⟩
    | cons d pre =>
      obtain ⟨rfl, hrest⟩ := List.cons.inj h
      obtain ⟨t, r, hr, hcall, hrem⟩ := ih hrest
      refine ⟨t, r, hr, hcall, ?_⟩
      rw [hc.split, hrem, ← List.append_assoc]
      rfl

/-- What a result says when the calls before it have delivered `before`. -/
structure ExactCall (matching before : List ℕ) (call : CallResult) : Prop where
  count : call.rc = .NO_ERROR ∨ call.rc = .ERROR_EAS_DIDNT_FIT →
    call.delivered.length = call.cMatch.toNat
  none : call.rc ≠ .NO_ERROR → call.rc ≠ .ERROR_EAS_DIDNT_FIT → call.delivered = []
  exhausted : call.rc = .ERROR_NO_MORE_FILES → before = matching

theorem Delivers.exactCall {s : SearchData} {r : FindReply} (h : Delivers s r)
    {matching before : List ℕ} (hrem : matching = before ++ s.remaining) :
    ExactCall matching before r.result := by
  refine ⟨h.count, h.none, fun hrc => ?_⟩
  rw [hrem, h.exhausted hrc, List.append_nil]

/-- A request that is refused before anything is stored. -/
theorem Delivers.refused {s : SearchData} {rc : ApiRet} (hok : rc ≠ .NO_ERROR)
    (heas : rc ≠ .ERROR_EAS_DIDNT_FIT) (hmore : rc ≠ .ERROR_NO_MORE_FILES) (cMatch : UInt16)
    (pData : Memory) : Delivers s ⟨rc, cMatch, s, pData, []⟩ :=
  ⟨rfl, fun h => (h.elim hok heas).elim, fun _ _ => rfl, fun h => absurd h hmore⟩

/-- The first call takes what it delivers from the search it sets up, and leaves it open only
as a successful call does. -/
def Opens (s : SearchData) (r : FindFirstReply) : Prop :=
  ∃ r', Delivers s r' ∧ r.result = r'.result ∧ ∀ t ∈ r.search, t = r'.search

theorem opens_findFirstFails {s : SearchData} {rc : ApiRet} (hok : rc ≠ .NO_ERROR)
    (heas : rc ≠ .ERROR_EAS_DIDNT_FIT) (hmore : rc ≠ .ERROR_NO_MORE_FILES) (node : VolNode)
    (pData : Memory) (pfindfirst : Request) (pos : ℕ) :
    Opens s (findFirstFails rc node pData pfindfirst pos) :=
  ⟨_, .refused hok heas hmore pfindfirst.cMatch pData, rfl, nofun⟩

theorem opens_findFirstIn (env : FindEnv) (node : VolNode) (pData : Memory) (pfindfirst : Request)
    (entries : List IsoDirEntry) (pos : ℕ) :
    Opens (newSearch env pfindfirst entries)
      (findFirstIn env node pData pfindfirst entries pos) := by
  rw [findFirstIn]
  split
  · exact opens_findFirstFails (by decide) (by decide) (by decide) ..
  · refine ⟨storeMatches env.stack (newSearch env pfindfirst entries) pData pfindfirst,
      storeMatches_delivers .., ?_⟩
    dsimp only
    split
    · exact ⟨rfl, nofun⟩
    · refine ⟨rfl, ?_⟩
      rintro s ⟨⟩
      rfl

theorem checkFindFirst_ne (env : FindEnv) (pfindfirst : Request) :
    checkFindFirst env pfindfirst ≠ .ERROR_EAS_DIDNT_FIT ∧
      checkFindFirst env pfindfirst ≠ .ERROR_NO_MORE_FILES := by
  rw [checkFindFirst]
  split_ifs <;> exact ⟨nofun, nofun⟩

theorem searchedDir_error {vol : VolData} {stack : Memory} {pos pos' : ℕ} {szDir : List UInt8}
    {rc : ApiRet} (h : searchedDir vol stack pos szDir = some (.error rc, pos')) :
    rc = .ERROR_PATH_NOT_FOUND := by
  rw [searchedDir] at h
  split at h
  · split at h
    · cases h
    · cases h
      rfl
    · split at h
      · obtain ⟨_, -, heq⟩ := Option.map_eq_some_iff.mp h
        cases heq
      · cases h
        rfl
  · obtain ⟨_, -, heq⟩ := Option.map_eq_some_iff.mp h
    cases heq

theorem opens_fsFindFirst {env : FindEnv} {node : VolNode} {pos : ℕ} {pData : Memory}
    {pfindfirst : Request} {r : FindFirstReply}
    (h : fsFindFirst env node pos pData pfindfirst = some r) :
    Opens (newSearch env pfindfirst (searchedEntries env node pos pfindfirst)) r := by
  rw [fsFindFirst] at h
  dsimp only at h
  split at h
  · next hrc =>
    obtain rfl := Option.some.inj h
    obtain ⟨heas, hmore⟩ := checkFindFirst_ne env pfindfirst
    exact opens_findFirstFails hrc heas hmore ..
  · split at h
    · cases h
    · next hdir =>
      obtain rfl := Option.some.inj h
      obtain rfl := searchedDir_error hdir
      exact opens_findFirstFails (by decide) (by decide) (by decide) ..
    · next hdir =>
      obtain rfl := Option.some.inj h
      rw [searchedEntries, hdir]
      exact opens_findFirstIn ..

theorem remaining_newSearch (env : FindEnv) (pfindfirst : Request) (entries : List IsoDirEntry) :
    (newSearch env pfindfirst entries).remaining =
      entries.findIdxs (newSearch env pfindfirst entries).wants := rfl

/-- The results of a first call and of those that follow it. -/
theorem exactCall_of_split {s : SearchData} {r : FindReply} (h : Delivers s r)
    {calls : List FindCall} {pre post : List CallResult} {call : CallResult}
    (hrun : r.result :: continued r.search calls = pre ++ call :: post) :
    ExactCall s.remaining (deliveredBy pre) call := by
  cases pre with
  | nil =>
    obtain ⟨rfl, -⟩ := List.cons.inj hrun
    exact h.exactCall rfl
  | cons first pre =>
    obtain ⟨rfl, hrest⟩ := List.cons.inj hrun
    obtain ⟨t, r', hr', rfl, hrem⟩ := continued_split hrest
    refine hr'.exactCall ?_
    rw [h.split, hrem, ← List.append_assoc]
    rfl

theorem deliveredBy_cons_continued {s : SearchData} {r : FindReply} (h : Delivers s r)
    (calls : List FindCall) :
    deliveredBy (r.result :: continued r.search calls) <+: s.remaining := by
  rw [h.split]
  exact (List.prefix_append_right_inj _).mpr (deliveredBy_continued r.search calls)

/-- A run is empty, or it is a first call with those that follow it. -/
theorem searchRun_cases (env : FindEnv) (node : VolNode) (pos : ℕ) (pData : Memory)
    (pfindfirst : Request) (calls : List FindCall) :
    searchRun env node pos pData pfindfirst calls = [] ∨
      ∃ r calls', Delivers (newSearch env pfindfirst (searchedEntries env node pos pfindfirst)) r ∧
        searchRun env node pos pData pfindfirst calls = r.result :: continued r.search calls' := by
  rw [searchRun]
  split
  · exact Or.inl rfl
  · next r hr =>
    obtain ⟨r', hdel, hresult, hsearch⟩ := opens_fsFindFirst hr
    rw [hresult]
    split
    · exact Or.inr ⟨r', [], hdel, rfl⟩
    · next s hs =>
      obtain rfl := hsearch s hs
      exact Or.inr ⟨r', calls, hdel, rfl⟩

/-- A search loses and repeats nothing. What its calls deliver is the front of the list of
matching entries; each call delivers `*pcMatch` entries or, when it fails, none; a call that
finds no more files comes when the whole list has been delivered; and a call for which the
buffer is too small leaves the same entries to be delivered. -/
theorem search_delivers_each_match_once (env : FindEnv) (node : VolNode) (pos : ℕ)
    (pData : Memory) (pfindfirst : Request) (calls : List FindCall) :
    let run := searchRun env node pos pData pfindfirst calls
    let matching := matchingPlaces env node pos pfindfirst
    deliveredBy run <+: matching ∧
      (∀ pre call post, run = pre ++ call :: post →
        ExactCall matching (deliveredBy pre) call) ∧
      ∀ s call, (continueSearch s call).rc = .ERROR_BUFFER_OVERFLOW →
        (continueSearch s call).delivered = [] ∧
          (continueSearch s call).search.remaining = s.remaining := by
  intro run matching
  refine ⟨?_, ?_, ?_⟩
  · rcases searchRun_cases env node pos pData pfindfirst calls with h | ⟨r, calls', hdel, h⟩
    · show deliveredBy (searchRun ..) <+: _
      rw [h]
      exact List.nil_prefix
    · show deliveredBy (searchRun ..) <+: _
      rw [h]
      exact deliveredBy_cons_continued hdel calls'
  · intro pre call post hrun
    rcases searchRun_cases env node pos pData pfindfirst calls with h | ⟨r, calls', hdel, h⟩
    · have hnil : pre ++ call :: post = [] := hrun.symm.trans h
      simp at hnil
    · exact exactCall_of_split hdel (h.symm.trans hrun)
  · intro s call hrc
    have h := continueSearch_delivers s call
    have hnone := h.none (hrc ▸ nofun) (hrc ▸ nofun)
    exact ⟨hnone, by rw [h.split, hnone, List.nil_append]⟩

end Isofs
