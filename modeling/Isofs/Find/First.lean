import Isofs.Find.Batch

/-!
# Whether a search finds something at once

Only a search whose first batch has an entry stays open. Whether it has one can be told from the
request: there must be an entry that the search wants, and its record must fit.
-/

namespace Isofs

open OutBuf

/-- A record is delivered, if without its attributes. -/
def Stores (rc : ApiRet) : Prop := rc = .NO_ERROR ∨ rc = .ERROR_EAS_DIDNT_FIT

instance (rc : ApiRet) : Decidable (Stores rc) := inferInstanceAs (Decidable (_ ∨ _))

/-- The length of the part of a record that all levels have. -/
def cbHead (flFlags : UInt16) : ℕ := (if flFlags &&& FF_GETPOS ≠ 0 then 4 else 0) + 22

/-- A record with a name of `cbName` bytes fits in `room` bytes. At level 3 the record is one of
level 2 when the attributes do not fit. -/
def RecordFits (geas : List (List UInt8) × Bool) (cbName : ℕ) (ulLevel flFlags : UInt16)
    (room : ℕ) : Prop :=
  if ulLevel = FIL_QUERYEASFROMLIST then
    if room < cbHead flFlags + (4 + (feasBytes geas.1).length) then
      cbHead flFlags + 4 + (cbName + 2) ≤ room
    else geas.2 = true ∧ cbHead flFlags + (4 + (feasBytes geas.1).length) + (cbName + 2) ≤ room
  else if ulLevel = FIL_QUERYEASIZE then cbHead flFlags + 4 + (cbName + 2) ≤ room
  else cbHead flFlags + (cbName + 2) ≤ room

instance (geas : List (List UInt8) × Bool) (cbName : ℕ) (ulLevel flFlags : UInt16) (room : ℕ) :
    Decidable (RecordFits geas cbName ulLevel flFlags room) := by
  rw [RecordFits]
  infer_instance

theorem length_headBytes (flFlags : UInt16) (iNext : ℤ) (pEntry : IsoDirEntry) :
    (headBytes flFlags iNext pEntry).length = cbHead flFlags := by
  rw [headBytes, List.length_append, length_fileStatus, positionBytes, cbHead]
  split <;> rfl

section Parts

variable {pszFileName : List UInt8} {room : ℕ} {rc : ApiRet} {before : List UInt8}

theorem stores_withName (hname : pszFileName.length ≤ 255) (hrc : Stores rc) :
    Stores (withName (some pszFileName) room rc before).1 ↔
      before.length + (pszFileName.length + 2) ≤ room := by
  have hover : ¬ Stores .ERROR_BUFFER_OVERFLOW := by decide
  rw [withName, length_nameBytes, if_neg (Nat.not_lt.mpr hname)]
  split
  · exact iff_of_false hover (by omega)
  · exact iff_of_true hrc (by omega)

theorem stores_withSize (hname : pszFileName.length ≤ 255) (hrc : Stores rc) :
    Stores (withSize (some pszFileName) room rc before).1 ↔
      before.length + 4 + (pszFileName.length + 2) ≤ room := by
  have hover : ¬ Stores .ERROR_BUFFER_OVERFLOW := by decide
  rw [withSize]
  split
  · exact iff_of_false hover (by omega)
  · rw [stores_withName hname hrc, List.length_append, length_le32Bytes]

end Parts

/-- Whether a record is delivered depends on its length. -/
theorem stores_recordWritten {pszFileName : List UInt8} (hname : pszFileName.length ≤ 255)
    (geas : List (List UInt8) × Bool) (ulLevel flFlags : UInt16) (iNext : ℤ)
    (pEntry : IsoDirEntry) (room : ℕ) :
    Stores (recordWritten geas (some pszFileName) ulLevel flFlags iNext pEntry room).1 ↔
      RecordFits geas pszFileName.length ulLevel flFlags room := by
  have hover : ¬ Stores .ERROR_BUFFER_OVERFLOW := by decide
  have hok : Stores .NO_ERROR := Or.inl rfl
  have hhead := length_headBytes flFlags iNext pEntry
  have hposition : (positionBytes flFlags iNext).length ≤ cbHead flFlags := by
    rw [← hhead, headBytes, List.length_append]
    exact Nat.le_add_right _ _
  -- nothing fits when the head does not
  have hshort (h : room < cbHead flFlags) :
      ¬ RecordFits geas pszFileName.length ulLevel flFlags room := by
    rw [RecordFits]
    split_ifs <;> omega
  rw [recordWritten]
  split
  · exact iff_of_false hover (hshort (by omega))
  split
  · exact iff_of_false hover (hshort (by omega))
  rw [tailWritten, RecordFits]
  by_cases hlevel : ulLevel = FIL_QUERYEASFROMLIST
  · have hcode := feaListWritten_fst geas (room - (headBytes flFlags iNext pEntry).length)
    have hwritten := @feaListWritten_of_ok geas (room - (headBytes flFlags iNext pEntry).length)
    rw [hhead] at hcode hwritten ⊢
    rw [if_pos hlevel, if_pos hlevel]
    dsimp only
    generalize feaListWritten geas (room - cbHead flFlags) = eas at *
    by_cases hfits : room < cbHead flFlags + (4 + (feasBytes geas.1).length)
    · rw [if_pos (by omega)] at hcode
      rw [if_pos hcode, if_pos hfits]
      dsimp only
      rw [stores_withSize hname (Or.inr rfl), hhead]
    rw [if_neg (by omega)] at hcode
    rw [if_neg hfits]
    by_cases hgeas : geas.2 = true
    · rw [if_pos hgeas] at hcode
      obtain ⟨hbytes, -⟩ := hwritten hcode
      rw [if_neg (by rw [hcode]; decide), if_neg (not_not.mpr hcode), stores_withName hname hok,
        List.length_append, hbytes, List.length_append, length_le32Bytes, hhead]
      exact (and_iff_right hgeas).symm
    · rw [if_neg hgeas] at hcode
      have hne : eas.1 ≠ .ERROR_BUFFER_OVERFLOW := by rw [hcode]; decide
      have hne' : eas.1 ≠ .NO_ERROR := by rw [hcode]; decide
      rw [if_neg hne, if_pos hne', hcode]
      exact iff_of_false (by decide) fun h => hgeas h.1
  · rw [if_neg hlevel, if_neg hlevel]
    by_cases hsize : ulLevel = FIL_QUERYEASIZE
    · rw [if_pos hsize, if_pos hsize, stores_withSize hname hok, hhead]
    · rw [if_neg hsize, if_neg hsize, stores_withName hname hok, hhead]

/-! ### The first batch -/

/-- The first entry that a search wants from its cursor on. -/
def SearchData.next? (s : SearchData) : Option IsoDirEntry :=
  (s.pFirstInIsoDir.drop s.pIsoNext).find? s.wants

theorem next?_of_none {s : SearchData} (h : s.pEntryAt? = none) : s.next? = none := by
  have hlen : s.pFirstInIsoDir.length ≤ s.pIsoNext := List.getElem?_eq_none_iff.mp h
  rw [SearchData.next?, List.drop_eq_nil_of_le hlen, List.find?_nil]

theorem next?_of_some {s : SearchData} {pEntry : IsoDirEntry} (h : s.pEntryAt? = some pEntry) :
    s.next? = if s.wants pEntry then some pEntry else (advanceSearch s).next? := by
  obtain ⟨hlt, hget⟩ := List.getElem?_eq_some_iff.mp h
  rw [SearchData.next?, List.drop_eq_getElem_cons hlt, List.find?_cons, hget]
  split
  · next hwants => rw [if_pos hwants]
  · next hwants =>
    rw [if_neg (by rw [hwants]; decide)]
    rfl

/-- The next entry is wanted, and its record fits. -/
def SearchData.NextFits (s : SearchData) (geas : List (List UInt8) × Bool)
    (ulLevel flFlags : UInt16) (room : ℕ) : Prop :=
  ∃ pEntry, s.next? = some pEntry ∧
    RecordFits geas pEntry.chrName.length ulLevel flFlags room

theorem length_chrName_storedEntry (s : SearchData) (pEntry : IsoDirEntry) :
    (s.storedEntry pEntry).chrName.length = pEntry.chrName.length := by
  rw [SearchData.storedEntry]
  split
  · exact length_strupr pEntry.chrName
  · rfl

theorem stores_storeNextFileInfo (pgeas : Option Memory) (ulLevel flFlags : UInt16)
    (s : SearchData) (buf : OutBuf) (hroom : buf.room < 2 ^ 32) :
    Stores (storeNextFileInfo pgeas ulLevel flFlags s buf).1 ↔
      s.NextFits (askedNames pgeas) ulLevel flFlags buf.room := by
  -- the entry that is wanted is stored, whether its record fits or not
  have hstored {s : SearchData} {pEntry : IsoDirEntry} (hsome : s.pEntryAt? = some pEntry)
      (hwants : s.wants pEntry = true) :
      Stores ((storeFileInfo pgeas (some (s.storedEntry pEntry).chrName) ulLevel flFlags s.iNext
        (s.storedEntry pEntry)).run buf).1 ↔
        s.NextFits (askedNames pgeas) ulLevel flFlags buf.room := by
    have hname : (s.storedEntry pEntry).chrName.length ≤ 255 :=
      Nat.le_of_lt_succ (s.storedEntry pEntry).chrName_length_lt
    rw [(storeFileInfo_wrote pgeas _ ulLevel flFlags s.iNext _ buf hroom).code,
      stores_recordWritten hname, length_chrName_storedEntry, SearchData.NextFits,
      next?_of_some hsome, if_pos hwants]
    exact ⟨fun h => ⟨pEntry, rfl, h⟩, fun ⟨e, he, h⟩ => Option.some.inj he ▸ h⟩
  fun_induction storeNextFileInfo pgeas ulLevel flFlags s buf with
  | case1 s hnone =>
    refine iff_of_false (show ¬ Stores .ERROR_NO_MORE_FILES by decide) ?_
    rintro ⟨pEntry, hnext, -⟩
    rw [next?_of_none hnone] at hnext
    cases hnext
  | case2 s pEntry hsome hmatch pEntry' rc buf' hstore s' hrc =>
    rw [← hstored hsome (wants_iff.mpr hmatch), hstore]
  | case3 s pEntry hsome hmatch pEntry' rc buf' hstore s' hrc =>
    rw [← hstored hsome (wants_iff.mpr hmatch), hstore, not_not.mp hrc]
  | case4 s pEntry hsome hmatch ih =>
    refine Iff.trans ih ?_
    rw [SearchData.NextFits, SearchData.NextFits, next?_of_some hsome,
      if_neg (mt wants_iff.mp hmatch)]

/-- A batch delivers something when its first entry is delivered. -/
theorem stores_finishBatch (pgeas : Option Memory) (ulLevel flFlags : UInt16) (cLeft : ℕ)
    (s : SearchData) (buf : OutBuf) :
    Stores (finishBatch (storeEntries pgeas ulLevel flFlags (cLeft + 1) s buf)).rc ↔
      Stores (storeNextFileInfo pgeas ulLevel flFlags s buf).1 := by
  have hout := storeEntries_outcome pgeas ulLevel flFlags (cLeft + 1) s buf
  rw [storeEntries] at hout ⊢
  generalize storeNextFileInfo pgeas ulLevel flFlags s buf = next at hout ⊢
  obtain ⟨rc, s', buf'⟩ := next
  dsimp only at hout ⊢
  by_cases hrc : rc = .NO_ERROR
  · rw [if_neg (not_not.mpr hrc)] at hout ⊢
    refine iff_of_true (Or.inl ?_) (Or.inl hrc)
    rw [finishBatch, if_pos]
    by_cases hend : (storeEntries pgeas ulLevel flFlags cLeft s' buf').rc = .NO_ERROR
    · exact Or.inl hend
    refine Or.inr ⟨List.cons_ne_nil _ _, ?_⟩
    rcases hout.stop hend with ⟨hmore, -⟩ | ⟨hcode, -⟩
    · dsimp only at hmore ⊢
      rw [hmore]
      rfl
    · exact endsBatch_of_code (hout.stored_code (List.cons_ne_nil _ _)) hcode hend
  · rw [if_pos hrc, finishBatch, if_neg]
    · split
      · exact Iff.rfl
      · exact Iff.rfl
    · exact not_or.mpr ⟨hrc, fun h => h.1 rfl⟩

/-- Whether a call on a search delivers something. -/
theorem stores_storeMatches (stack : Memory) (s : SearchData) (pData : Memory) (p : Request) :
    Stores (storeMatches stack s pData p).rc ↔ p.cMatch ≠ 0 ∧
      s.NextFits (askedNames (copyGeas stack pData p.usLevel)) p.usLevel p.fsFlags
        p.cbData.toNat := by
  have hroom := p.cbData.toNat_lt
  rw [storeMatches, storeDirContents]
  by_cases hmatch : p.cMatch = 0
  · rw [if_pos hmatch]
    exact iff_of_false (show ¬ Stores .ERROR_INVALID_PARAMETER by decide) fun h => h.1 hmatch
  obtain ⟨cLeft, hleft⟩ : ∃ cLeft, p.cMatch.toNat = cLeft + 1 := by
    refine Nat.exists_eq_succ_of_ne_zero fun hzero => hmatch ?_
    exact UInt16.toNat_inj.mp hzero
  rw [if_neg hmatch, hleft, stores_finishBatch,
    stores_storeNextFileInfo _ _ _ _ _ (by dsimp only; omega),
    and_iff_right hmatch]

end Isofs
