import Mathlib.Data.List.Flatten
import Isofs.Find.First
import Isofs.Find.Records
import Isofs.Path.Agreement

/-!
# The positions that a search reports

With `FF_GETPOS` every record gives the position of its entry, which `fsFindFromName` gets back
from the caller. A position is the place of the entry in the directory, counted from a number that
a search keeps, and `fsFindFromName` goes on behind the entry that was delivered last.
-/

namespace Isofs

/-! ### What a caller sees -/

/-- A call that goes on with a search as its caller sees it: the request, the code, `*pcMatch` and
the data buffer. As a ghost it holds the places of the entries delivered. -/
structure Answer where
  request : Request
  rc : ApiRet
  cMatch : UInt16
  pData : Memory
  delivered : List ℕ

def FindReply.answer (r : FindReply) (p : Request) : Answer :=
  ⟨p, r.rc, r.cMatch, r.pData, r.delivered⟩

def FindFirstReply.answer (r : FindFirstReply) (p : Request) : Answer :=
  ⟨p, r.rc, r.cMatch, r.pData, r.delivered⟩

/-- The level of the records in the data buffer. -/
def Answer.level (a : Answer) : UInt16 :=
  if a.rc = .ERROR_EAS_DIDNT_FIT then FIL_QUERYEASIZE else a.request.usLevel

/-- The positions that the caller reads in the records. -/
def Answer.positions (a : Answer) : List ℕ :=
  if Stores a.rc then
    match parseRecords a.level a.request.fsFlags a.pData a.cMatch.toNat 0 with
    | none => []
    | some (records, _) => records.filterMap (·.position)
  else []

/-- Some answer gives the position `p` for the entry at `place`. -/
def Reported (answers : List Answer) (place p : ℕ) : Prop :=
  ∃ a ∈ answers, (place, p) ∈ a.delivered.zip a.positions

/-- An answer goes on with `rest`, the places that are left: it takes the first of them, unless it
fails, and it finds no more files only when none is left. -/
structure Continues (rest : List ℕ) (a : Answer) : Prop where
  front : a.delivered <+: rest
  some : Stores a.rc → a.delivered ≠ []
  exhausted : a.rc = .ERROR_NO_MORE_FILES → rest = []

/-! ### Runs -/

/-- A search: its `fsFindFirst` and the calls that go on with it. -/
structure SearchRun where
  env : FindEnv
  node : VolNode
  pos : ℕ
  pData : Memory
  pfindfirst : Request
  calls : List FindCall

/-- The answers to further calls, and the search that they leave. -/
def goOn (s : SearchData) : List FindCall → List Answer × SearchData
  | [] => ([], s)
  | call :: calls =>
    let r := continueSearch s call
    (r.answer call.request :: (goOn r.search calls).1, (goOn r.search calls).2)

namespace SearchRun

/-- The answers of a search that is opened, and what it is left as. -/
def outcome (run : SearchRun) : Option (List Answer × SearchData) :=
  (fsFindFirst run.env run.node run.pos run.pData run.pfindfirst).bind fun r =>
    r.search.map fun s =>
      (r.answer run.pfindfirst :: (goOn s run.calls).1, (goOn s run.calls).2)

/-- The entries of the directory. -/
def entries (run : SearchRun) : List IsoDirEntry :=
  searchedEntries run.env run.node run.pos run.pfindfirst

/-- The places of those that match. -/
def matching (run : SearchRun) : List ℕ :=
  matchingPlaces run.env run.node run.pos run.pfindfirst

/-- The search as it is set up. -/
def opened (run : SearchRun) : SearchData := newSearch run.env run.pfindfirst run.entries

end SearchRun

/-! ### The positions of one call -/

/-- The position of the entry at a place. -/
def SearchData.positionAt (s : SearchData) (place : ℕ) : ℕ :=
  ((s.firstPosition + place) % 2 ^ 32).toNat

theorem SameSearch.positionAt {s t : SearchData} (h : SameSearch s t) :
    t.positionAt = s.positionAt := by
  funext place
  rw [SearchData.positionAt, h.position]
  rfl

/-- The position in a record. -/
theorem position_of_recordAt {s : SearchData} {names : List (List UInt8)}
    {ulLevel flFlags : UInt16} {place : ℕ} {record : FindRecord}
    (h : s.recordAt names ulLevel flFlags place = some record) :
    record.position = if flFlags &&& FF_GETPOS ≠ 0 then some (s.positionAt place) else none := by
  obtain ⟨pEntry, -, rfl⟩ := Option.map_eq_some_iff.mp h
  rfl

theorem positions_of_records {s : SearchData} {names : List (List UInt8)}
    {ulLevel flFlags : UInt16} {records : List FindRecord} {places : List ℕ}
    (h : records.map some = places.map (s.recordAt names ulLevel flFlags)) :
    records.filterMap (·.position) =
      if flFlags &&& FF_GETPOS ≠ 0 then places.map s.positionAt else [] := by
  induction records generalizing places with
  | nil =>
    obtain rfl := List.map_eq_nil_iff.mp h.symm
    split <;> rfl
  | cons record records ih =>
    cases places with
    | nil => cases h
    | cons place places =>
      obtain ⟨hrecord, hrest⟩ := List.cons.inj h
      have hposition := position_of_recordAt hrecord.symm
      have hpositions := ih hrest
      by_cases hflag : flFlags &&& FF_GETPOS ≠ 0
      · rw [if_pos hflag] at hposition hpositions ⊢
        rw [List.filterMap_cons_some hposition, hpositions, List.map_cons]
      · rw [if_neg hflag] at hposition hpositions ⊢
        rw [List.filterMap_cons_none hposition, hpositions]

/-- What a call does to its search. -/
structure Called (s : SearchData) (a : Answer) (t : SearchData) : Prop where
  same : SameSearch s t
  split : s.remaining = a.delivered ++ t.remaining
  positions : a.positions =
    if a.request.fsFlags &&& FF_GETPOS ≠ 0 then a.delivered.map s.positionAt else []
  continues : Continues s.remaining a

theorem Called.invalid (s : SearchData) (p : Request) (cMatch : UInt16) (pData : Memory) :
    Called s ⟨p, .ERROR_INVALID_PARAMETER, cMatch, pData, []⟩ s := by
  have hrc : ¬ Stores .ERROR_INVALID_PARAMETER := by decide
  refine ⟨.refl s, rfl, ?_, ⟨List.nil_prefix, fun h => absurd h hrc, nofun⟩⟩
  rw [Answer.positions, if_neg hrc]
  split <;> rfl

/-- The loop of `storeDirContents` ends without an error when it has stored all it may. -/
theorem length_stored_of_ok {pgeas : Option Memory} {ulLevel flFlags : UInt16} {cLeft : ℕ}
    {s : SearchData} {buf : OutBuf}
    (h : (storeEntries pgeas ulLevel flFlags cLeft s buf).rc = .NO_ERROR) :
    (storeEntries pgeas ulLevel flFlags cLeft s buf).stored.length = cLeft := by
  induction cLeft generalizing s buf with
  | zero => rfl
  | succ cLeft ih =>
    rw [storeEntries] at h ⊢
    generalize storeNextFileInfo pgeas ulLevel flFlags s buf = next at h ⊢
    obtain ⟨rc, s', buf'⟩ := next
    dsimp only at h ⊢
    by_cases hrc : rc = .NO_ERROR
    · rw [if_neg (not_not.mpr hrc)] at h ⊢
      exact congrArg Nat.succ (ih h)
    · rw [if_pos hrc] at h
      exact absurd h hrc

theorem delivered_finishBatch_ne_nil {r : StoredEntries} (hok : r.rc = .NO_ERROR → r.stored ≠ [])
    (h : Stores (finishBatch r).rc) : (finishBatch r).delivered ≠ [] := by
  rw [finishBatch] at h ⊢
  split at h
  · next hrc =>
    rw [if_pos hrc]
    exact hrc.elim hok And.left
  · next hrc =>
    rw [if_neg hrc]
    split at h
    · next heas =>
      rw [if_pos heas]
      exact List.cons_ne_nil _ _
    · next heas => exact absurd h (not_or.mpr ⟨(not_or.mp hrc).1, heas⟩)

theorem sameSearch_finishBatch {s : SearchData} {r : StoredEntries} (h : SameSearch s r.search) :
    SameSearch s (finishBatch r).search := by
  rw [finishBatch]
  split
  · exact h
  · split
    · exact h.trans (.advanceSearch r.search)
    · exact h

theorem positions_of_read {a : Answer} (hrc : Stores a.rc) {records : List FindRecord} {cb : ℕ}
    (h : parseRecords a.level a.request.fsFlags a.pData a.cMatch.toNat 0 = some (records, cb)) :
    a.positions = records.filterMap (·.position) := by
  rw [Answer.positions, if_pos hrc, h]

/-- The positions in the records of a batch. -/
theorem positions_of_decodes {s : SearchData} {names : List (List UInt8)} {pData : Memory}
    {p : Request} {r : FindReply} (hdec : Decodes s names p.cbData p.usLevel p.fsFlags pData r)
    (hdel : Delivers s r) : (r.answer p).positions =
      if p.fsFlags &&& FF_GETPOS ≠ 0 then r.delivered.map s.positionAt else [] := by
  by_cases hok : r.rc = .NO_ERROR
  · obtain ⟨records, cb, -, -, -, hread, hrecords⟩ := hdec.records hok
    have hlevel : (r.answer p).level = p.usLevel := by
      refine if_neg fun heas => ?_
      cases hok.symm.trans heas
    rw [positions_of_read (a := r.answer p) (Or.inl hok) (hlevel ▸ hread)]
    exact positions_of_records hrecords
  by_cases heas : r.rc = .ERROR_EAS_DIDNT_FIT
  · obtain ⟨place, record, cb, -, hdelivered, -, -, -, hread, hrecord⟩ := hdec.easDidntFit heas
    have hlevel : (r.answer p).level = FIL_QUERYEASIZE := if_pos heas
    have hrecords : [record].map some =
        r.delivered.map (s.recordAt names FIL_QUERYEASIZE p.fsFlags) := by
      rw [hdelivered, List.map_singleton, List.map_singleton, hrecord]
    rw [positions_of_read (a := r.answer p) (Or.inr heas) (hlevel ▸ hread)]
    exact positions_of_records hrecords
  · have hrc : ¬ Stores (r.answer p).rc := not_or.mpr ⟨hok, heas⟩
    rw [Answer.positions, if_neg hrc, hdel.none hok heas]
    split <;> rfl

theorem storeMatches_called (stack : Memory) (s : SearchData) (pData : Memory) (p : Request) :
    Called s ((storeMatches stack s pData p).answer p) (storeMatches stack s pData p).search := by
  by_cases hmatch : p.cMatch = 0
  · rw [storeMatches, storeDirContents, if_pos hmatch]
    exact .invalid ..
  have hdec := storeMatches_decodes stack s pData hmatch
  rw [storeMatches, storeDirContents, if_neg hmatch] at hdec ⊢
  have hroom : p.cbData.toNat < 2 ^ 32 := by
    have := p.cbData.toNat_lt
    omega
  have hout := storeEntries_outcome (copyGeas stack pData p.usLevel) p.usLevel p.fsFlags
    p.cMatch.toNat s ⟨pData, 0, p.cbData.toNat⟩
  have hwrote := storeEntries_wrote (copyGeas stack pData p.usLevel) p.usLevel p.fsFlags
    p.cMatch.toNat s ⟨pData, 0, p.cbData.toNat⟩ hroom
  have hdel := finishBatch_delivers hout
  refine ⟨sameSearch_finishBatch hwrote.same, hdel.split,
    positions_of_decodes hdec hdel,
    ⟨⟨_, hdel.split.symm⟩, delivered_finishBatch_ne_nil fun hok hnil => ?_, hdel.exhausted⟩⟩
  -- a loop that ends without an error has stored an entry
  have hlength := length_stored_of_ok hok
  rw [hnil] at hlength
  exact hmatch (UInt16.toNat_inj.mp hlength.symm)

theorem fsFindFromName_called (stack : Memory) (s : SearchData) (pData : Memory) (p : Request) :
    Called s ((fsFindFromName stack s pData p).answer p)
      (fsFindFromName stack s pData p).search := by
  rw [fsFindFromName]
  split
  · exact .invalid ..
  · exact storeMatches_called ..

theorem continueSearch_called (s : SearchData) (call : FindCall) :
    Called s ((continueSearch s call).answer call.request) (continueSearch s call).search := by
  rw [continueSearch]
  split
  · exact storeMatches_called ..
  · exact fsFindFromName_called ..

/-! ### The positions of a run -/

/-- What a run does to its search. -/
structure Ran (s : SearchData) (answers : List Answer) (t : SearchData) : Prop where
  same : SameSearch s t
  split : s.remaining = answers.flatMap (·.delivered) ++ t.remaining
  positions : ∀ a ∈ answers, a.positions =
    if a.request.fsFlags &&& FF_GETPOS ≠ 0 then a.delivered.map s.positionAt else []

theorem Ran.nil (s : SearchData) : Ran s [] s :=
  ⟨.refl s, rfl, fun _ ha => absurd ha List.not_mem_nil⟩

theorem Ran.cons {s t u : SearchData} {a : Answer} {answers : List Answer} (h : Called s a t)
    (hrest : Ran t answers u) : Ran s (a :: answers) u := by
  refine ⟨h.same.trans hrest.same, ?_, ?_⟩
  · rw [h.split, hrest.split, List.flatMap_cons, List.append_assoc]
  · intro b hb
    rcases List.mem_cons.mp hb with rfl | hb
    · exact h.positions
    · rw [← h.same.positionAt]
      exact hrest.positions b hb

theorem goOn_ran (s : SearchData) (calls : List FindCall) :
    Ran s (goOn s calls).1 (goOn s calls).2 := by
  induction calls generalizing s with
  | nil => exact .nil s
  | cons call calls ih => exact .cons (continueSearch_called s call) (ih _)

/-- A search that is opened has stored its first batch. -/
theorem first_of_opened {run : SearchRun} {r : FindFirstReply} {s : SearchData}
    (h : fsFindFirst run.env run.node run.pos run.pData run.pfindfirst = some r)
    (hs : r.search = some s) :
    Called run.opened (r.answer run.pfindfirst) s := by
  have hcalled := storeMatches_called run.env.stack run.opened run.pData run.pfindfirst
  rw [fsFindFirst] at h
  split at h
  · cases h
    cases hs
  dsimp only at h
  split at h
  · cases h
  · cases h
    cases hs
  · next entries pos hdir =>
    have hentries : run.entries = entries := by
      rw [SearchRun.entries, searchedEntries, hdir]
    rw [SearchRun.opened, hentries] at hcalled ⊢
    cases h
    rw [findFirstIn] at hs ⊢
    split at hs
    · cases hs
    -- a failing first batch leaves no search
    · next hne =>
      dsimp only at hs
      rw [if_neg hne]
      split at hs
      · cases hs
      · next hrc =>
        obtain rfl := Option.some.inj hs
        dsimp only
        rw [if_neg hrc]
        exact hcalled

theorem outcome_ran {run : SearchRun} {answers : List Answer} {s : SearchData}
    (h : run.outcome = some (answers, s)) : Ran run.opened answers s := by
  obtain ⟨r, hr, h⟩ := Option.bind_eq_some_iff.mp h
  obtain ⟨t, ht, h⟩ := Option.map_eq_some_iff.mp h
  cases h
  exact .cons (first_of_opened hr ht) (goOn_ran t run.calls)

/-- The places behind the last of some places that increase. -/
theorem filter_lt_getLast {xs ys : List ℕ} {n : ℕ} (h : (xs ++ ys).Pairwise (· < ·))
    (hlast : xs.getLast? = some n) : (xs ++ ys).filter (n < ·) = ys := by
  obtain ⟨zs, rfl⟩ := List.getLast?_eq_some_iff.mp hlast
  obtain ⟨hxs, -, hlt⟩ := List.pairwise_append.mp h
  obtain ⟨-, -, hzs⟩ := List.pairwise_append.mp hxs
  have hbefore : ∀ m ∈ zs ++ [n], ¬ n < m := by
    intro m hm
    rcases List.mem_append.mp hm with hm | hm
    · exact Nat.not_lt_of_gt (hzs m hm n List.mem_cons_self)
    · rw [List.mem_singleton.mp hm]
      exact Nat.lt_irrefl n
  have hbehind : ∀ m ∈ ys, n < m := fun m hm =>
    hlt n (List.mem_append_right zs List.mem_cons_self) m hm
  rw [List.filter_append, List.filter_eq_nil_iff.mpr (by simpa using hbefore), List.nil_append,
    List.filter_eq_self.mpr (by simpa using hbehind)]

/-- The positions of a run are among those of the entries delivered. -/
theorem Ran.positions_sublist {s t : SearchData} {answers : List Answer} (h : Ran s answers t) :
    (answers.flatMap Answer.positions).Sublist
      ((answers.flatMap (·.delivered)).map s.positionAt) := by
  rw [List.map_flatMap]
  refine List.Sublist.flatMap_right answers fun a ha => ?_
  rw [h.positions a ha]
  split
  · exact .refl _
  · exact List.nil_sublist _

theorem positionAt_eq (s : SearchData) (place : ℕ) :
    s.positionAt place = (s.firstPosition.toNat + place) % 2 ^ 32 := by
  have hfirst : 0 ≤ s.firstPosition := Int.emod_nonneg _ (by decide)
  rw [SearchData.positionAt]
  omega

/-- What the positions of a search are good for, when its first entry has the position `first`:
they tell the entries apart and increase, as long as they do not wrap around, and a call that gives
one back goes on behind the entry delivered last. -/
structure Positioned (first : ℕ) (run : SearchRun) (answers : List Answer) (s : SearchData) :
    Prop where
  identify : ∀ a ∈ answers, a.request.fsFlags &&& FF_GETPOS ≠ 0 →
    a.positions = a.delivered.map fun place => (first + place) % 2 ^ 32
  increasing : first + run.entries.length ≤ 2 ^ 32 →
    (answers.flatMap Answer.positions).Pairwise (· < ·)
  resumes : ∀ place, (answers.flatMap (·.delivered)).getLast? = some place →
    ∀ stack pData pfindfromname, Continues (run.matching.filter (place < ·))
      ((fsFindFromName stack s pData pfindfromname).answer pfindfromname)

/-- The positions that a search reports are the places of the entries in the directory, counted
from one number modulo `2 ^ 32`; `fsFindFromName` goes on with the first matching entry behind the
one delivered last, whatever position it is given. -/
theorem positions_identify_entries {run : SearchRun} {answers : List Answer} {s : SearchData}
    (h : run.outcome = some (answers, s)) :
    ∃ first < 2 ^ 32, Positioned first run answers s := by
  have hran := outcome_ran h
  have hsplit : run.matching = answers.flatMap (·.delivered) ++ s.remaining := hran.split
  have hincreasing : run.matching.Pairwise (· < ·) := List.pairwise_findIdxs
  refine ⟨run.opened.firstPosition.toNat, ?_, fun a ha hflag => ?_, fun hwrap => ?_, ?_⟩
  · rw [SearchData.firstPosition]
    omega
  · rw [hran.positions a ha, if_pos hflag]
    exact List.map_congr_left fun place _ => positionAt_eq run.opened place
  · refine List.Pairwise.sublist hran.positions_sublist (List.pairwise_map.mpr ?_)
    rw [hsplit] at hincreasing
    refine List.Pairwise.imp_of_mem ?_ (List.pairwise_append.mp hincreasing).1
    intro i j _ hj hij
    -- both are places of the directory
    have hlt : j < run.entries.length + 0 := by
      refine @List.lt_add_of_mem_findIdxs _ run.entries run.opened.wants 0 j ?_
      show j ∈ run.matching
      rw [hsplit]
      exact List.mem_append_left _ hj
    rw [positionAt_eq, positionAt_eq]
    omega
  · intro place hlast stack pData pfindfromname
    have hcalled := (fsFindFromName_called stack s pData pfindfromname).continues
    rw [hsplit] at hincreasing ⊢
    rwa [filter_lt_getLast hincreasing hlast]

/-! ### A position that is given back -/

/-- A batch whose records all fit takes as many entries as it may. -/
theorem storeMatches_full {stack : Memory} {s : SearchData} {pData : Memory} {p : Request}
    (hmatch : p.cMatch ≠ 0)
    (h : (batchWritten (s.written (askedNames (copyGeas stack pData p.usLevel)) p.usLevel p.fsFlags)
      p.cbData.toNat p.cMatch.toNat s.remaining).1 = .NO_ERROR) :
    (storeMatches stack s pData p).rc = .NO_ERROR ∧
      (storeMatches stack s pData p).delivered.length = p.cMatch.toNat := by
  have hroom : p.cbData.toNat < 2 ^ 32 := by
    have := p.cbData.toNat_lt
    omega
  have hok : (storeEntries (copyGeas stack pData p.usLevel) p.usLevel p.fsFlags p.cMatch.toNat s
      ⟨pData, 0, p.cbData.toNat⟩).rc = .NO_ERROR :=
    (storeEntries_wrote _ _ _ _ _ _ hroom).code.trans h
  rw [storeMatches, storeDirContents, if_neg hmatch, finishBatch, if_pos (Or.inl hok)]
  exact ⟨rfl, length_stored_of_ok hok⟩

/-- A search that has delivered all its entries finds no more files. -/
theorem storeMatches_exhausted {stack : Memory} {s : SearchData} {pData : Memory} {p : Request}
    (hmatch : p.cMatch ≠ 0) (h : s.remaining = []) :
    (storeMatches stack s pData p).rc = .ERROR_NO_MORE_FILES := by
  have hroom : p.cbData.toNat < 2 ^ 32 := by
    have := p.cbData.toNat_lt
    omega
  obtain ⟨cLeft, hleft⟩ : ∃ cLeft, p.cMatch.toNat = cLeft + 1 := by
    refine Nat.exists_eq_succ_of_ne_zero fun hzero => hmatch ?_
    exact UInt16.toNat_inj.mp hzero
  have hcode := (storeEntries_wrote (copyGeas stack pData p.usLevel) p.usLevel p.fsFlags
    p.cMatch.toNat s ⟨pData, 0, p.cbData.toNat⟩ hroom).code
  have hsplit := (storeEntries_outcome (copyGeas stack pData p.usLevel) p.usLevel p.fsFlags
    p.cMatch.toNat s ⟨pData, 0, p.cbData.toNat⟩).split
  rw [h, hleft, batchWritten] at hcode
  rw [h, hleft] at hsplit
  obtain ⟨hnil, -⟩ := List.append_eq_nil_iff.mp hsplit.symm
  rw [storeMatches, storeDirContents, if_neg hmatch, hleft, finishBatch, hcode, hnil]
  rfl

/-- A search whose first batch delivers something is opened. -/
theorem outcome_of_stores {run : SearchRun} {pos : ℕ}
    (hcheck : checkFindFirst run.env run.pfindfirst = .NO_ERROR)
    (hdir : searchedDir run.node.vol.toVolData run.env.sectorStack run.pos
      (splitPath (run.pfindfirst.szName.drop 2)).1 = some (.ok run.entries, pos))
    (hne : run.entries ≠ []) {r : FindReply}
    (hr : storeMatches run.env.stack run.opened run.pData run.pfindfirst = r)
    (hrc : Stores r.rc) : run.outcome =
      some (r.answer run.pfindfirst :: (goOn r.search run.calls).1,
        (goOn r.search run.calls).2) := by
  have hstays : ¬ (r.rc ≠ .NO_ERROR ∧ r.rc ≠ .ERROR_EAS_DIDNT_FIT) :=
    fun h => hrc.elim h.1 h.2
  rw [SearchRun.opened] at hr
  rw [SearchRun.outcome, fsFindFirst, hcheck, if_neg (not_not.mpr rfl)]
  dsimp only
  rw [hdir]
  dsimp only
  rw [findFirstIn, if_neg hne, hr]
  dsimp only
  rw [if_neg hstays]
  rfl

/-- A search for all entries of an image with the file `A` and the directory `B`; its memory holds
`iNext`. -/
def loopRun (iNext : ℤ) : SearchRun where
  env := ⟨true, iNext, Memory.zeros, Memory.zeros⟩
  node :=
    { VolNode.cleared with
      vol := { VolNode.cleared.vol with toVolData := loopVolume.toVolData } }
  pos := 0
  pData := Memory.zeros
  pfindfirst :=
    { (default : Request) with
      szName := [0x45, 0x3a, 0x2f, 0x2a], usLevel := FIL_STANDARD, cMatch := 2, cbData := 300
      fsFlags := FF_GETPOS, fsAttr := 0x10 }
  calls := []

def loopEntries : List IsoDirEntry :=
  [loopEntry .S_IFREG 0x41 (by decide), loopEntry .S_IFDIR 0x42 (by decide)]

theorem searchedDir_loopRun (iNext : ℤ) :
    searchedDir (loopRun iNext).node.vol.toVolData (loopRun iNext).env.sectorStack
      (loopRun iNext).pos (splitPath ((loopRun iNext).pfindfirst.szName.drop 2)).1 =
      some (.ok loopEntries, 2120) := by
  have hsplit : (splitPath ((loopRun iNext).pfindfirst.szName.drop 2)).1 = [] :=
    show (splitPath [0x2f, 0x2a]).1 = [] by decide
  have hsize : rootRecordSize loopVolume.toVolData = 2048 := by decide
  have hcontents : contentsOf loopVolume.toVolData none = (1, 2048) := by
    rw [contentsOf, hsize]
    rfl
  have hget := getDirEntries_loopVolume 0
  rw [hcontents] at hget
  rw [hsplit, searchedDir, if_neg (not_not.mpr rfl)]
  exact congrArg (Option.map _) (hsize ▸ hget)

theorem entries_loopRun (iNext : ℤ) : (loopRun iNext).entries = loopEntries := by
  rw [SearchRun.entries, searchedEntries, searchedDir_loopRun]

theorem opened_loopRun (iNext : ℤ) :
    (loopRun iNext).opened = ⟨[0x2a], 0x10, loopEntries, 0, iNext⟩ := by
  have hname : (splitPath ((loopRun iNext).pfindfirst.szName.drop 2)).2 = [0x2a] :=
    show (splitPath [0x2f, 0x2a]).2 = [0x2a] by decide
  rw [SearchRun.opened, entries_loopRun, newSearch, hname]
  rfl

theorem matching_loopRun (iNext : ℤ) : (loopRun iNext).matching = [0, 1] := by
  show (loopRun iNext).opened.remaining = [0, 1]
  rw [opened_loopRun]
  exact show loopEntries.findIdxs (SearchData.mk [0x2a] 0x10 [] 0 0).wants = [0, 1] by decide

/-- The search delivers both entries at once. -/
theorem outcome_loopRun {iNext : ℤ} (hfits : (batchWritten ((SearchData.mk [0x2a] 0x10 loopEntries 0
      iNext).written ([], true) FIL_STANDARD FF_GETPOS) 300 2 [0, 1]).1 = .NO_ERROR) :
    ∃ a s, (loopRun iNext).outcome = some ([a], s) ∧ a.delivered = [0, 1] ∧ s.remaining = [] ∧
      a.positions = [(iNext % 2 ^ 32).toNat, ((iNext + 1) % 2 ^ 32).toNat] := by
  have hopened := opened_loopRun iNext
  have hremaining : (loopRun iNext).opened.remaining = [0, 1] := matching_loopRun iNext
  obtain ⟨hrc, hlength⟩ := @storeMatches_full Memory.zeros (loopRun iNext).opened Memory.zeros
    (loopRun iNext).pfindfirst (show (2 : UInt16) ≠ 0 by decide) (by
      rw [hremaining, hopened]
      exact hfits)
  have hcalled := storeMatches_called Memory.zeros (loopRun iNext).opened Memory.zeros
    (loopRun iNext).pfindfirst
  generalize hr : storeMatches Memory.zeros (loopRun iNext).opened Memory.zeros
    (loopRun iNext).pfindfirst = r at hrc hlength hcalled
  have hsplit : [0, 1] ++ [] = _ := hremaining.symm.trans hcalled.split
  obtain ⟨hdelivered, hrest⟩ := List.append_inj hsplit hlength.symm
  have hdir := searchedDir_loopRun iNext
  rw [← entries_loopRun iNext] at hdir
  refine ⟨r.answer (loopRun iNext).pfindfirst, r.search, ?_, hdelivered.symm, hrest.symm, ?_⟩
  · refine outcome_of_stores ?_ hdir ?_ hr (Or.inl hrc)
    · exact show checkFindFirst (loopRun 0).env (loopRun 0).pfindfirst = .NO_ERROR by decide
    · rw [entries_loopRun]
      exact List.cons_ne_nil _ _
  · have hflag : (r.answer (loopRun iNext).pfindfirst).request.fsFlags &&& FF_GETPOS ≠ 0 :=
      show FF_GETPOS &&& FF_GETPOS ≠ 0 by decide
    rw [hcalled.positions, if_pos hflag, ← hdelivered, hopened, List.map_cons, List.map_singleton,
      SearchData.positionAt, SearchData.positionAt, SearchData.firstPosition]
    have hzero : ((iNext - (0 : ℕ)) % 2 ^ 32 + (0 : ℕ)) % 2 ^ 32 = iNext % 2 ^ 32 := by omega
    have hone : ((iNext - (0 : ℕ)) % 2 ^ 32 + (1 : ℕ)) % 2 ^ 32 = (iNext + 1) % 2 ^ 32 := by omega
    rw [hzero, hone]

/-- The positions of that search. -/
theorem positions_identify_entries_loopRun : ∃ answers s, (loopRun 0).outcome = some (answers, s) ∧
    ∃ first < 2 ^ 32, Positioned first (loopRun 0) answers s := by
  obtain ⟨a, s, h, -⟩ := @outcome_loopRun 0 (by decide)
  exact ⟨_, s, h, positions_identify_entries h⟩

/-- The first entry of a directory has no fixed position, positions need not increase, and a call
that gives one back need not go on behind its entry. -/
theorem positions_not_resumable :
    (¬ ∃ first, ∀ run answers s, SearchRun.outcome run = some (answers, s) →
      ∀ p, Reported answers 0 p → p = first) ∧
    (¬ ∀ run answers s, SearchRun.outcome run = some (answers, s) →
      (answers.flatMap Answer.positions).Pairwise (· < ·)) ∧
    ¬ ∀ run answers s, SearchRun.outcome run = some (answers, s) →
      ∀ place p, Reported answers place p → ∀ stack pData pfindfromname,
        pfindfromname.ulPosition.toNat = p → Continues (run.matching.filter (place < ·))
          ((fsFindFromName stack s pData pfindfromname).answer pfindfromname) := by
  obtain ⟨a, s, h, hdelivered, hrest, hpositions⟩ := @outcome_loopRun 0 (by decide)
  obtain ⟨b, t, h', hdelivered', -, hpositions'⟩ := @outcome_loopRun (-1) (by decide)
  have hfirst : Reported [a] 0 0 :=
    ⟨a, List.mem_singleton_self a, by rw [hdelivered, hpositions]; decide⟩
  have hfirst' : Reported [b] 0 (2 ^ 32 - 1) :=
    ⟨b, List.mem_singleton_self b, by rw [hdelivered', hpositions']; decide⟩
  refine ⟨?_, fun hall => ?_, fun hall => ?_⟩
  · rintro ⟨first, hall⟩
    have h0 := hall _ _ _ h 0 hfirst
    have h1 := hall _ _ _ h' _ hfirst'
    omega
  · have hincreasing := hall _ _ _ h'
    rw [List.flatMap_singleton, hpositions'] at hincreasing
    exact absurd hincreasing (by decide)
  · -- the search goes on behind `B`, not behind `A`
    have hcontinues := hall _ _ _ h 0 0 hfirst Memory.zeros Memory.zeros
      { (loopRun 0).pfindfirst with ulPosition := 0 } rfl
    have hmore := @storeMatches_exhausted Memory.zeros s Memory.zeros
      { (loopRun 0).pfindfirst with ulPosition := 0 } (show (2 : UInt16) ≠ 0 by decide) hrest
    have hname : verifyString (loopRun 0).pfindfirst.szName CCHMAXPATH = false := by decide
    rw [fsFindFromName, if_neg (by rw [hname]; decide), matching_loopRun] at hcontinues
    exact absurd (hcontinues.exhausted hmore) (by decide)

end Isofs
