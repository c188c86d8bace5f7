import Isofs.Find.First
import Isofs.Find.GeaLists
import Isofs.Library.Leftover

/-!
# What the reply to a search takes from the data buffer

Apart from the GEA list a call on a search reads nothing of the data buffer: its code depends on
the list alone, and so do the bytes that it writes over the buffer.
-/

namespace Isofs

open Memory OutBuf

/-! ### The code of a batch -/

/-- The code of a batch, by the codes of its records. -/
def batchCode (written : ℕ → ℕ → ApiRet × List UInt8) (room cLeft : ℕ) (places : List ℕ) :
    ApiRet :=
  let rc := (batchWritten written room cLeft places).1
  if rc = .NO_ERROR ∨ ((∃ place ∈ places.head?, (written room place).1 = .NO_ERROR) ∧
    endsBatch rc) then .NO_ERROR else rc

/-- A batch without entries finds no more files. -/
theorem batchCode_nil (written : ℕ → ℕ → ApiRet × List UInt8) (room cLeft : ℕ) :
    batchCode written room (cLeft + 1) [] = .ERROR_NO_MORE_FILES := by
  rw [batchCode, batchWritten]
  refine if_neg ?_
  rintro (hok | ⟨⟨place, hplace, -⟩, -⟩)
  · cases hok
  · cases hplace

/-- A batch whose first record fails ends with the code of that record. -/
theorem batchCode_of_failed {written : ℕ → ℕ → ApiRet × List UInt8} {room place : ℕ}
    (h : (written room place).1 ≠ .NO_ERROR) (cLeft : ℕ) (places : List ℕ) :
    batchCode written room (cLeft + 1) (place :: places) = (written room place).1 := by
  rw [batchCode, batchWritten, if_pos h]
  refine if_neg ?_
  rintro (hok | ⟨⟨place', hplace, hok⟩, -⟩)
  · exact h hok
  · cases hplace
    exact h hok

/-- What is written for a search by a call with this request. -/
def SearchData.batch (s : SearchData) (geas : List (List UInt8) × Bool) (p : Request) :
    List UInt8 :=
  (batchWritten (s.written geas p.usLevel p.fsFlags) p.cbData.toNat p.cMatch.toNat s.remaining).2

section Codes

variable {pgeas : Option Memory} {ulLevel flFlags : UInt16} {s : SearchData} {buf : OutBuf}

/-- The first record decides whether a batch is empty. -/
theorem storeNextFileInfo_ok_iff (hroom : buf.room < 2 ^ 32) :
    (storeNextFileInfo pgeas ulLevel flFlags s buf).1 = .NO_ERROR ↔
      ∃ place ∈ s.remaining.head?,
        (s.written (askedNames pgeas) ulLevel flFlags buf.room place).1 = .NO_ERROR := by
  obtain ⟨-, hnone, hsome⟩ := storeNextFileInfo_wrote pgeas ulLevel flFlags s buf hroom
  cases hrem : s.remaining with
  | nil =>
    rw [(hnone hrem).1]
    exact iff_of_false (by decide) nofun
  | cons place places =>
    rw [(hsome place places hrem).code]
    constructor
    · intro h
      exact ⟨place, rfl, h⟩
    · rintro ⟨place', hplace, h⟩
      cases hplace
      exact h

theorem stored_storeEntries_ne_nil_iff (cLeft : ℕ) :
    (storeEntries pgeas ulLevel flFlags (cLeft + 1) s buf).stored ≠ [] ↔
      (storeNextFileInfo pgeas ulLevel flFlags s buf).1 = .NO_ERROR := by
  rw [storeEntries]
  generalize storeNextFileInfo pgeas ulLevel flFlags s buf = next
  obtain ⟨rc, s', buf'⟩ := next
  dsimp only
  by_cases hrc : rc = .NO_ERROR
  · rw [if_neg (not_not.mpr hrc)]
    exact iff_of_true (List.cons_ne_nil _ _) hrc
  · rw [if_pos hrc]
    exact iff_of_false (not_not.mpr rfl) hrc

theorem rc_finishBatch_storeEntries (cLeft : ℕ) (hroom : buf.room < 2 ^ 32) :
    (finishBatch (storeEntries pgeas ulLevel flFlags (cLeft + 1) s buf)).rc =
      batchCode (s.written (askedNames pgeas) ulLevel flFlags) buf.room (cLeft + 1)
        s.remaining := by
  have hcode := (storeEntries_wrote pgeas ulLevel flFlags (cLeft + 1) s buf hroom).code
  have hstored := (@stored_storeEntries_ne_nil_iff pgeas ulLevel flFlags s buf cLeft).trans
    (storeNextFileInfo_ok_iff hroom)
  rw [finishBatch, batchCode, ← hcode]
  simp only [hstored]
  split
  · rfl
  · split
    · rfl
    · rfl

end Codes

theorem pData_finishBatch (r : StoredEntries) : (finishBatch r).pData = r.buf.mem := by
  rw [finishBatch]
  split
  · rfl
  · split
    · rfl
    · rfl

section Calls

variable {stack : Memory} {s : SearchData} {p : Request}

theorem toNat_cMatch (h : p.cMatch ≠ 0) : ∃ cLeft, p.cMatch.toNat = cLeft + 1 := by
  refine Nat.exists_eq_succ_of_ne_zero fun hzero => h ?_
  exact UInt16.toNat_inj.mp hzero

/-- The code of a call depends on the GEA list. -/
theorem rc_storeMatches (pData : Memory) :
    (storeMatches stack s pData p).rc =
      if p.cMatch = 0 then .ERROR_INVALID_PARAMETER
      else batchCode (s.written (askedNames (copyGeas stack pData p.usLevel)) p.usLevel p.fsFlags)
        p.cbData.toNat p.cMatch.toNat s.remaining := by
  have hroom := p.cbData.toNat_lt
  rw [storeMatches, storeDirContents]
  split
  · rfl
  · next hmatch =>
    obtain ⟨cLeft, hleft⟩ := toNat_cMatch hmatch
    rw [hleft]
    exact rc_finishBatch_storeEntries cLeft (by dsimp only; omega)

/-- A call writes its records over the start of the buffer. -/
theorem pData_storeMatches (pData : Memory) :
    (storeMatches stack s pData p).pData =
      pData.blit 0 (s.batch (askedNames (copyGeas stack pData p.usLevel)) p) := by
  have hroom := p.cbData.toNat_lt
  rw [storeMatches, storeDirContents, SearchData.batch]
  split
  · next hmatch =>
    rw [hmatch]
    exact (blit_nil pData 0).symm
  · rw [pData_finishBatch]
    exact (storeEntries_wrote _ _ _ _ _ _ (by dsimp only; omega)).mem

/-! ### A GEA list that is malformed -/

/-- A list without records that is well formed, or not. -/
def noNames (ok : Bool) : List (List UInt8) × Bool := ([], ok)

/-- The list of a level 3 search is looked at: there is an entry to store, and room for the length
of a list. -/
structure SearchData.ReadsGeas (s : SearchData) (p : Request) : Prop where
  cMatch : p.cMatch ≠ 0
  remaining : s.remaining ≠ []
  room : cbHead p.fsFlags + 4 ≤ p.cbData.toNat

/-- The place of an entry that a search wants. -/
theorem storedEntries_of_mem_remaining {place : ℕ} (h : place ∈ s.remaining) :
    ∃ pEntry, s.storedEntries[place]? = some pEntry := by
  rw [SearchData.remaining] at h
  have hlt := List.lt_add_of_mem_findIdxs _ h
  rw [List.length_drop] at hlt
  have hge := List.ge_of_mem_findIdxs _ h
  have hplace : place < s.pFirstInIsoDir.length := by omega
  exact ⟨_, getElem?_storedEntries (List.getElem?_eq_getElem hplace)⟩

/-- Without that room a record does not fit, whatever its list is. -/
theorem recordWritten_short (geas : List (List UInt8) × Bool) (pszFileName : Option (List UInt8))
    {flFlags : UInt16} (iNext : ℤ) (pEntry : IsoDirEntry) {room : ℕ}
    (h : room < cbHead flFlags + 4) :
    (recordWritten geas pszFileName FIL_QUERYEASFROMLIST flFlags iNext pEntry room).1 =
      .ERROR_BUFFER_OVERFLOW := by
  have hhead := length_headBytes flFlags iNext pEntry
  rw [recordWritten]
  split
  · rfl
  split
  · rfl
  have heas : (feaListWritten geas (room - (headBytes flFlags iNext pEntry).length)).1 =
      .ERROR_BUFFER_OVERFLOW := by
    rw [feaListWritten_fst, if_pos (by omega)]
  rw [tailWritten, if_pos rfl]
  dsimp only
  rw [if_pos heas, withSize, if_pos (by omega)]

/-- A record finds out that its list is malformed when there is room for the length of a list. -/
theorem recordWritten_malformed {pszFileName : Option (List UInt8)} {flFlags : UInt16} {iNext : ℤ}
    {pEntry : IsoDirEntry} {room : ℕ} (h : cbHead flFlags + 4 ≤ room) :
    (recordWritten (noNames false) pszFileName FIL_QUERYEASFROMLIST flFlags iNext pEntry room).1 =
      .ERROR_EA_LIST_INCONSISTENT := by
  have hhead := length_headBytes flFlags iNext pEntry
  have hposition : (positionBytes flFlags iNext).length ≤ cbHead flFlags := by
    rw [← hhead, headBytes, List.length_append]
    exact Nat.le_add_right _ _
  have heas : (feaListWritten (noNames false) (room - cbHead flFlags)).1 =
      .ERROR_EA_LIST_INCONSISTENT := by
    rw [feaListWritten_fst, if_neg (by change ¬ _ < 4 + 0; omega)]
    rfl
  rw [recordWritten, if_neg (by omega), if_neg (by omega), tailWritten, if_pos rfl, hhead]
  dsimp only
  rw [heas, if_neg (by decide), if_pos (by decide)]

/-- A record of a well-formed list does not. -/
theorem recordWritten_wellFormed {names : List (List UInt8)} (pszFileName : Option (List UInt8))
    (ulLevel flFlags : UInt16) (iNext : ℤ) (pEntry : IsoDirEntry) (room : ℕ) :
    (recordWritten (names, true) pszFileName ulLevel flFlags iNext pEntry room).1 ≠
      .ERROR_EA_LIST_INCONSISTENT := by
  have hname (rc : ApiRet) (before : List UInt8) (hrc : rc ≠ .ERROR_EA_LIST_INCONSISTENT) :
      (withName pszFileName room rc before).1 ≠ .ERROR_EA_LIST_INCONSISTENT := by
    rcases withName_code pszFileName room rc before with h | h | h <;> rw [h]
    · exact hrc
    · decide
    · decide
  have hsize (rc : ApiRet) (before : List UInt8) (hrc : rc ≠ .ERROR_EA_LIST_INCONSISTENT) :
      (withSize pszFileName room rc before).1 ≠ .ERROR_EA_LIST_INCONSISTENT := by
    rcases withSize_code pszFileName room rc before with h | h | h <;> rw [h]
    · exact hrc
    · decide
    · decide
  have hrest (rc : ApiRet) (hrc : rc = .ERROR_BUFFER_OVERFLOW) :
      rc ≠ .ERROR_EA_LIST_INCONSISTENT := by
    rw [hrc]
    decide
  rw [recordWritten]
  split
  · exact hrest _ rfl
  split
  · exact hrest _ rfl
  rw [tailWritten]
  split
  -- a list that is well formed either fits or overflows
  · have heas := feaListWritten_fst (names, true) (room - (headBytes flFlags iNext pEntry).length)
    dsimp only
    split
    · exact hsize _ _ (by decide)
    · split
      · rw [heas]
        split
        · exact hrest _ rfl
        · rw [if_pos rfl]
          decide
      · exact hname _ _ (by decide)
  · split
    · exact hsize _ _ (by decide)
    · exact hname _ _ (by decide)

/-- The code of a batch is that of a record, or tells that the batch has come to its end. -/
theorem batchWritten_code (written : ℕ → ℕ → ApiRet × List UInt8) (room cLeft : ℕ)
    (places : List ℕ) :
    (batchWritten written room cLeft places).1 = .NO_ERROR ∨
      (batchWritten written room cLeft places).1 = .ERROR_NO_MORE_FILES ∨
      ∃ room' place, (batchWritten written room cLeft places).1 = (written room' place).1 := by
  induction cLeft generalizing room places with
  | zero => exact Or.inl rfl
  | succ cLeft ih =>
    cases places with
    | nil => exact Or.inr (Or.inl rfl)
    | cons place places =>
      rw [batchWritten]
      dsimp only
      split
      · exact Or.inr (Or.inr ⟨room, place, rfl⟩)
      · exact ih (room - (written room place).2.length) places

/-- A call that does not look at the list stores nothing, and its code does not depend on the
list. -/
theorem rc_storeMatches_unread (stack : Memory) (hlevel : p.usLevel = FIL_QUERYEASFROMLIST)
    (h : ¬ s.ReadsGeas p) :
    ∃ rc, ¬ Stores rc ∧ ∀ pData, (storeMatches stack s pData p).rc = rc := by
  by_cases hmatch : p.cMatch = 0
  · refine ⟨.ERROR_INVALID_PARAMETER, by decide, fun pData => ?_⟩
    rw [rc_storeMatches, if_pos hmatch]
  obtain ⟨cLeft, hleft⟩ := toNat_cMatch hmatch
  cases hrem : s.remaining with
  | nil =>
    refine ⟨.ERROR_NO_MORE_FILES, by decide, fun pData => ?_⟩
    rw [rc_storeMatches, if_neg hmatch, hleft, hrem, batchCode_nil]
  | cons place places =>
    have hroom : p.cbData.toNat < cbHead p.fsFlags + 4 := by
      by_contra hroom
      exact h ⟨hmatch, hrem ▸ List.cons_ne_nil place places, Nat.le_of_not_lt hroom⟩
    obtain ⟨pEntry, hentry⟩ := @storedEntries_of_mem_remaining s place (hrem ▸ List.mem_cons_self)
    have hcode (geas : List (List UInt8) × Bool) :
        (s.written geas p.usLevel p.fsFlags p.cbData.toNat place).1 = .ERROR_BUFFER_OVERFLOW := by
      rw [SearchData.written, hentry, hlevel]
      exact recordWritten_short geas _ _ _ hroom
    refine ⟨.ERROR_BUFFER_OVERFLOW, by decide, fun pData => ?_⟩
    have hfails (geas : List (List UInt8) × Bool) :
        (s.written geas p.usLevel p.fsFlags p.cbData.toNat place).1 ≠ .NO_ERROR := by
      rw [hcode]
      decide
    rw [rc_storeMatches, if_neg hmatch, hleft, hrem, batchCode_of_failed (hfails _), hcode]

/-- A call finds out that its list is malformed at the first entry. -/
theorem rc_storeMatches_malformed {pData : Memory} (hlevel : p.usLevel = FIL_QUERYEASFROMLIST)
    (hgeas : askedNames (copyGeas stack pData p.usLevel) = noNames false) (h : s.ReadsGeas p) :
    (storeMatches stack s pData p).rc = .ERROR_EA_LIST_INCONSISTENT := by
  obtain ⟨hmatch, hrem, hroom⟩ := h
  obtain ⟨cLeft, hleft⟩ := toNat_cMatch hmatch
  obtain ⟨place, places, hplaces⟩ := List.exists_cons_of_ne_nil hrem
  obtain ⟨pEntry, hentry⟩ := @storedEntries_of_mem_remaining s place
    (hplaces ▸ List.mem_cons_self)
  have hcode : (s.written (noNames false) p.usLevel p.fsFlags p.cbData.toNat place).1 =
      .ERROR_EA_LIST_INCONSISTENT := by
    rw [SearchData.written, hentry, hlevel]
    exact recordWritten_malformed hroom
  have hfails : (s.written (noNames false) p.usLevel p.fsFlags p.cbData.toNat place).1 ≠
      .NO_ERROR := by
    rw [hcode]
    decide
  rw [rc_storeMatches, if_neg hmatch, hgeas, hleft, hplaces, batchCode_of_failed hfails, hcode]

/-- A call does not find a well-formed list malformed. -/
theorem rc_storeMatches_wellFormed {pData : Memory} {names : List (List UInt8)}
    (hgeas : askedNames (copyGeas stack pData p.usLevel) = (names, true)) :
    (storeMatches stack s pData p).rc ≠ .ERROR_EA_LIST_INCONSISTENT := by
  have hwritten (room place : ℕ) : (s.written (names, true) p.usLevel p.fsFlags room place).1 ≠
      .ERROR_EA_LIST_INCONSISTENT := by
    rw [SearchData.written]
    split
    · decide
    · next pEntry _ => exact recordWritten_wellFormed (some pEntry.chrName) _ _ _ _ _
  rw [rc_storeMatches, hgeas]
  split
  · decide
  rw [batchCode]
  split
  · decide
  rcases batchWritten_code (s.written (names, true) p.usLevel p.fsFlags) p.cbData.toNat
    p.cMatch.toNat s.remaining with h | h | ⟨room, place, h⟩
  · rw [h]
    decide
  · rw [h]
    decide
  · rw [h]
    exact hwritten room place

/-! ### Lists that show -/

theorem withName_starts (pszFileName : Option (List UInt8)) (room : ℕ) (rc : ApiRet)
    (before : List UInt8) : before <+: (withName pszFileName room rc before).2 := by
  cases pszFileName with
  | none => exact List.prefix_rfl
  | some pszFileName =>
    rw [withName]
    split
    · exact List.prefix_rfl
    · split
      · exact List.prefix_rfl
      · exact List.prefix_append _ _

section Shown

variable {flFlags : UInt16} {room : ℕ} (pszFileName : Option (List UInt8)) (iNext : ℤ)
  (pEntry : IsoDirEntry)

/-- The byte behind the head of a record. -/
theorem getElem?_behind_head {bytes : List UInt8} {b : UInt8} {rest : List UInt8}
    (h : headBytes flFlags iNext pEntry ++ b :: rest <+: bytes) :
    bytes[cbHead flFlags]? = some b := by
  obtain ⟨tail, rfl⟩ := h
  have hhead := length_headBytes flFlags iNext pEntry
  rw [List.append_assoc, List.getElem?_append_right (Nat.le_of_eq hhead), hhead, Nat.sub_self]
  rfl

/-- A list without names is answered with a list of four bytes. -/
theorem getElem?_recordWritten_noNames (h : cbHead flFlags + 4 ≤ room) :
    (recordWritten (noNames true) pszFileName FIL_QUERYEASFROMLIST flFlags iNext pEntry
      room).2[cbHead flFlags]? = some 4 := by
  have hhead := length_headBytes flFlags iNext pEntry
  have hposition : (positionBytes flFlags iNext).length ≤ cbHead flFlags := by
    rw [← hhead, headBytes, List.length_append]
    exact Nat.le_add_right _ _
  have hok : (feaListWritten (noNames true) (room - cbHead flFlags)).1 = .NO_ERROR := by
    rw [feaListWritten_fst, if_neg (by change ¬ _ < 4 + 0; omega)]
    rfl
  have hbytes : (feaListWritten (noNames true) (room - cbHead flFlags)).2 = [4, 0, 0, 0] :=
    (feaListWritten_of_ok hok).1
  rw [recordWritten, if_neg (by omega), if_neg (by omega), tailWritten, if_pos rfl, hhead]
  dsimp only
  rw [hok, if_neg (by decide), if_neg (not_not.mpr rfl), hbytes]
  exact getElem?_behind_head iNext pEntry (withName_starts ..)

/-- For a list whose FEAs do not fit the size of the attributes is there. -/
theorem getElem?_recordWritten_crowded {geas : List (List UInt8) × Bool}
    (h : cbHead flFlags + 4 ≤ room)
    (hcrowded : room < cbHead flFlags + (4 + (feasBytes geas.1).length)) :
    (recordWritten geas pszFileName FIL_QUERYEASFROMLIST flFlags iNext pEntry
      room).2[cbHead flFlags]? = some 0 := by
  have hhead := length_headBytes flFlags iNext pEntry
  have hposition : (positionBytes flFlags iNext).length ≤ cbHead flFlags := by
    rw [← hhead, headBytes, List.length_append]
    exact Nat.le_add_right _ _
  have hcode : (feaListWritten geas (room - cbHead flFlags)).1 = .ERROR_BUFFER_OVERFLOW := by
    rw [feaListWritten_fst, if_pos (by omega)]
  rw [recordWritten, if_neg (by omega), if_neg (by omega), tailWritten, if_pos rfl, hhead]
  dsimp only
  rw [if_pos hcode, withSize, if_neg (by omega), overlay]
  exact getElem?_behind_head iNext pEntry ((withName_starts ..).trans (List.prefix_append _ _))

end Shown

/-- The first record of a batch starts it. -/
theorem getElem?_batch {geas : List (List UInt8) × Bool} {i : ℕ} {b : UInt8}
    (hlevel : p.usLevel = FIL_QUERYEASFROMLIST) (hreads : s.ReadsGeas p)
    (h : ∀ pszFileName iNext pEntry, (recordWritten geas pszFileName FIL_QUERYEASFROMLIST p.fsFlags
      iNext pEntry p.cbData.toNat).2[i]? = some b) : (s.batch geas p)[i]? = some b := by
  obtain ⟨cLeft, hleft⟩ := toNat_cMatch hreads.cMatch
  obtain ⟨place, places, hplaces⟩ := List.exists_cons_of_ne_nil hreads.remaining
  obtain ⟨pEntry, hentry⟩ := @storedEntries_of_mem_remaining s place
    (hplaces ▸ List.mem_cons_self)
  have hfirst : (s.written geas p.usLevel p.fsFlags p.cbData.toNat place).2[i]? = some b := by
    rw [SearchData.written, hentry, hlevel]
    exact h _ _ _
  obtain ⟨hi, -⟩ := List.getElem?_eq_some_iff.mp hfirst
  rw [SearchData.batch, hleft, hplaces, batchWritten]
  dsimp only
  split
  · exact hfirst
  · exact (List.getElem?_append_left hi).trans hfirst

/-- What fits with a list fits without names. -/
theorem SearchData.NextFits.withoutNames {geas : List (List UInt8) × Bool} {flFlags : UInt16}
    {room : ℕ} (h : s.NextFits geas FIL_QUERYEASFROMLIST flFlags room) :
    s.NextFits (noNames true) FIL_QUERYEASFROMLIST flFlags room := by
  obtain ⟨pEntry, hnext, hfits⟩ := h
  refine ⟨pEntry, hnext, ?_⟩
  have hnone : (feasBytes (noNames true).1).length = 0 := rfl
  rw [RecordFits, if_pos rfl] at hfits ⊢
  rw [hnone]
  split at hfits
  · split
    · exact hfits
    · exact ⟨rfl, hfits⟩
  · rw [if_neg (by omega)]
    exact ⟨rfl, by omega⟩

/-- What fits without names fits with a list whose FEAs do not fit. -/
theorem SearchData.NextFits.crowded {geas : List (List UInt8) × Bool} {flFlags : UInt16} {room : ℕ}
    (h : s.NextFits (noNames true) FIL_QUERYEASFROMLIST flFlags room)
    (hcrowded : room < cbHead flFlags + (4 + (feasBytes geas.1).length)) :
    s.NextFits geas FIL_QUERYEASFROMLIST flFlags room := by
  obtain ⟨pEntry, hnext, hfits⟩ := h
  refine ⟨pEntry, hnext, ?_⟩
  rw [RecordFits, if_pos rfl] at hfits ⊢
  rw [if_pos hcrowded]
  split at hfits
  · exact hfits
  · exact hfits.2

end Calls

end Isofs
