import Isofs.Find.First
import Isofs.Find.GeaLists
import Isofs.Library.Leftover

/-!
# What the reply to a query takes from the data buffer

The answer to a query overwrites the part of the data buffer that it is in. What a level 3 query is
answered with depends on the GEA list in the buffer, and a list that an earlier request has left
there is as good as any.
-/

namespace Isofs

open Memory OutBuf TwosComplement

attribute [local irreducible] wrap32

/-! ### Lists at the start of a buffer -/

/-- A list at the start of a buffer whose length is not larger than what is written of it. -/
structure ListBytes (bytes : List UInt8) : Prop where
  header : 4 ≤ bytes.length
  size : bytes.length ≤ 65536
  length : (zeros.blit 0 bytes).le32 0 ≤ bytes.length

/-- The length of a list does not depend on what is behind its bytes. -/
theorem le32_blit {bytes : List UInt8} (h : 4 ≤ bytes.length) (m m' : Memory) :
    (m.blit 0 bytes).le32 0 = (m'.blit 0 bytes).le32 0 := by
  refine le32_congr fun j hj => ?_
  rw [blit_of_lt m (Nat.zero_le _) (by omega), blit_of_lt m' (Nat.zero_le _) (by omega)]

/-- Such a list is all that is copied of the buffer. -/
theorem copyGeas_blit {list : List UInt8} (h : ListBytes list) (stack : Memory) (usLevel : UInt16)
    (m m' : Memory) :
    copyGeas stack (m.blit 0 list) usLevel = copyGeas stack (m'.blit 0 list) usLevel := by
  have hle : (m'.blit 0 list).le32 0 ≤ list.length := by
    rw [le32_blit h.header m' zeros]
    exact h.length
  rw [copyGeas, copyGeas, le32_blit h.header m m', slice_blit_of_le hle m m']

/-- An FEA list that is complete says its length, and one that is not says zero. -/
theorem feaListWritten_listBytes (geas : List (List UInt8) × Bool) :
    ListBytes (feaListWritten geas eaRoom).2 := by
  have hsize := length_feaListWritten_le geas eaRoom
  by_cases hok : (feaListWritten geas eaRoom).1 = .NO_ERROR
  · have hlength := le32_feaListWritten hok (by decide) zeros 0
    refine ⟨?_, hsize, Nat.le_of_eq hlength⟩
    rw [(feaListWritten_of_ok hok).1, List.length_append, length_le32Bytes]
    exact Nat.le_add_right _ _
  · obtain ⟨rc, hcode⟩ : ∃ rc, geasCode (eaRoom - 4) geas = .error rc := by
      cases hcode : geasCode (eaRoom - 4) geas with
      | error rc => exact ⟨rc, rfl⟩
      | ok _ =>
        rw [feaListWritten, if_neg (by decide), hcode] at hok
        exact absurd rfl hok
    have hbytes : (feaListWritten geas eaRoom).2 =
        le32Bytes 0 ++ feasBytes (fittingNames (eaRoom - 4) geas.1) := by
      rw [feaListWritten, if_neg (by decide), hcode]
    refine ⟨?_, hsize, ?_⟩
    · rw [hbytes, List.length_append, length_le32Bytes]
      exact Nat.le_add_right _ _
    · rw [hbytes, (holdsAt_append.mp (holdsAt_blit zeros 0 _)).1.le32 (by decide)]
      exact Nat.zero_le _

/-! ### Queries -/

theorem queryEAs_eq (pgeas : Option Memory) (m : Memory) :
    queryEAs pgeas m = ((feaListWritten (askedNames pgeas) eaRoom).1,
      m.blit 0 (feaListWritten (askedNames pgeas) eaRoom).2) := by
  obtain ⟨hrc, hmem⟩ := storeEAsInFEAList_run pgeas ⟨m, 0, eaRoom⟩
  exact Prod.ext hrc hmem

section Queries

variable {flFlag ulLevel cbData : UInt16} {stack m m' : Memory} {e : IsoDirEntry}

/-- A level 1 or 2 query clears what it does not write. -/
theorem doFileInfo_standard (hget : flFlag &&& FI_SET = 0)
    (hlevel : ulLevel = FIL_STANDARD ∨ ulLevel = FIL_QUERYEASIZE) (m m' : Memory) :
    (doFileInfo flFlag ulLevel cbData stack m e).1 =
        (doFileInfo flFlag ulLevel cbData stack m' e).1 ∧
      (doFileInfo flFlag ulLevel cbData stack m e).2.slice 0 cbData.toNat =
        (doFileInfo flFlag ulLevel cbData stack m' e).2.slice 0 cbData.toNat := by
  have hwrote (m : Memory) := storeFileInfo_wrote none none ulLevel 0 0 e
    ⟨m.clear cbData.toNat, 0, cbData.toNat⟩ (Nat.lt_trans cbData.toNat_lt (by decide))
  have hclear : AgreeBelow cbData.toNat (m.clear cbData.toNat) (m'.clear cbData.toNat) := by
    intro i hi
    rw [clear, clear, if_pos hi, if_pos hi]
  rw [doFileInfo, doFileInfo, if_neg (not_not.mpr hget), if_neg (not_not.mpr hget), if_pos hlevel,
    if_pos hlevel]
  refine ⟨(hwrote m).code.trans (hwrote m').code.symm, ?_⟩
  dsimp only
  rw [(hwrote m).mem, (hwrote m').mem]
  exact slice_congr fun j hj => (hclear.blit _) (0 + j) (by omega)

/-- A level 3 query answers the GEA list. -/
theorem doFileInfo_listed (hget : flFlag &&& FI_SET = 0) :
    doFileInfo flFlag FIL_QUERYEASFROMLIST cbData stack m e =
      queryEAs (copyGeas stack m FIL_QUERYEASFROMLIST) m := by
  rw [doFileInfo, if_neg (not_not.mpr hget), if_neg (by decide), if_pos rfl]

/-- A level 4 query answers with an empty list. -/
theorem doFileInfo_all (hget : flFlag &&& FI_SET = 0) :
    doFileInfo flFlag FIL_QUERYALLEAS cbData stack m e = queryEAs none m := by
  rw [doFileInfo, if_neg (not_not.mpr hget), if_neg (by decide), if_neg (by decide), if_pos rfl]

/-- A query of another level leaves the buffer alone. -/
theorem doFileInfo_unknown (hget : flFlag &&& FI_SET = 0)
    (hlevel : ¬ (ulLevel = FIL_STANDARD ∨ ulLevel = FIL_QUERYEASIZE))
    (heas : ulLevel ≠ FIL_QUERYEASFROMLIST) (hall : ulLevel ≠ FIL_QUERYALLEAS) :
    doFileInfo flFlag ulLevel cbData stack m e = (.ERROR_NOT_SUPPORTED, m) := by
  rw [doFileInfo, if_neg (not_not.mpr hget), if_neg hlevel, if_neg heas, if_neg hall]

/-- Information is not set. -/
theorem doFileInfo_set (hset : flFlag &&& FI_SET ≠ 0) :
    doFileInfo flFlag ulLevel cbData stack m e = (.ERROR_WRITE_PROTECT, m) := by
  rw [doFileInfo, if_pos hset]

end Queries

/-! ### Lists that are left in the buffer -/

/-- A buffer with a list of length `n` whose bytes behind the length are zero. -/
def leftList (n : ℕ) : Memory := zeros.blit 0 (le32Bytes n)

theorem le32_leftList {n : ℕ} (h : n < 2 ^ 32) : (leftList n).le32 0 = n :=
  (holdsAt_blit zeros 0 (le32Bytes n)).le32 h

theorem leftList_apply {n i : ℕ} (h : 4 ≤ i) : leftList n i = 0 :=
  blit_of_not zeros (Or.inr h)

/-- Two of them agree behind their lengths. -/
theorem agreeFrom_leftList (n n' : ℕ) : AgreeFrom 65536 (leftList n) (leftList n') := by
  intro i hi
  rw [leftList_apply (by omega), leftList_apply (by omega)]

/-- Of a list in the buffer all is copied. -/
theorem askedNames_copyGeas {n : ℕ} (hn : 4 ≤ n) (hlt : n < 2 ^ 32) (stack : Memory) :
    askedNames (copyGeas stack (leftList n) FIL_QUERYEASFROMLIST) =
      askedNames (some (leftList n)) := by
  have hcopy := holdsAt_blit stack 0 ((leftList n).slice 0 n)
  rw [copyGeas, if_pos rfl, le32_leftList hlt]
  refine askedNames_congr fun i hi => ?_
  rw [le32_leftList hlt, Nat.max_eq_right hn] at hi
  rw [blit_of_lt stack (Nat.zero_le i) (by rw [length_slice]; omega), getElem_slice]
  congr 1
  omega

/-- The bytes behind the length are empty names. -/
theorem geaNames_leftList (n k : ℕ) {pgea : ℕ} (h : 4 ≤ pgea) :
    geaNames (leftList n) pgea (2 * k) = (List.replicate k [], true) := by
  induction k generalizing pgea with
  | zero => rw [Nat.mul_zero, geaNames, dif_pos rfl, List.replicate_zero]
  | succ k ih =>
    have hname : (leftList n pgea).toNat = 0 := congrArg UInt8.toNat (leftList_apply h)
    have hgea : IsGea (leftList n) pgea (2 * (k + 1)) := by
      rw [IsGea, hname]
      exact ⟨by omega, leftList_apply (by omega)⟩
    rw [geaNames, dif_neg (by omega), if_pos hgea, hname]
    dsimp only
    rw [show 2 * (k + 1) - (0 + 2) = 2 * k by omega, ih (by omega)]
    rfl

/-- A list of empty names, and one with half a name. -/
theorem askedNames_leftList {k : ℕ} (hk : 4 + 2 * k < 2 ^ 31) :
    askedNames (some (leftList (4 + 2 * k))) = (List.replicate k [], true) := by
  rw [askedNames_eq, le32_leftList (by omega), if_pos ⟨Nat.le_add_right 4 _, hk⟩,
    Nat.add_sub_cancel_left]
  exact geaNames_leftList _ k (Nat.le_refl 4)

theorem askedNames_leftList_five : askedNames (some (leftList 5)) = ([], false) := by
  have hgea : ¬ IsGea (leftList 5) 4 1 := by decide
  rw [askedNames_eq, le32_leftList (by decide), if_pos (by decide), geaNames, dif_neg (by decide),
    if_neg hgea]

theorem length_feasBytes_replicate (k : ℕ) :
    (feasBytes (List.replicate k [])).length = 5 * k := by
  induction k with
  | zero => rfl
  | succ k ih =>
    have hfea : (feaBytes [] []).length = 5 := rfl
    rw [List.replicate_succ, feasBytes, List.flatMap_cons, List.length_append, hfea]
    rw [feasBytes] at ih
    omega

/-- A list of empty names that is left in the buffer is answered. -/
theorem queryEAs_leftList {k : ℕ} (hk : 4 + 5 * k ≤ eaRoom) (stack : Memory) :
    let r := queryEAs (copyGeas stack (leftList (4 + 2 * k)) FIL_QUERYEASFROMLIST)
      (leftList (4 + 2 * k))
    r.1 = .NO_ERROR ∧ r.2.le32 0 = 4 + 5 * k := by
  have hlt : 4 + 5 * k ≤ 65536 := hk
  have hok : (feaListWritten (List.replicate k [], true) eaRoom).1 = .NO_ERROR := by
    rw [feaListWritten_fst, length_feasBytes_replicate, if_neg (Nat.not_lt.mpr hk)]
    rfl
  rw [queryEAs_eq, askedNames_copyGeas (Nat.le_add_right 4 _) (by omega),
    askedNames_leftList (by omega)]
  refine ⟨hok, ?_⟩
  rw [le32_feaListWritten hok (by decide), (feaListWritten_of_ok hok).1, List.length_append,
    length_le32Bytes, length_feasBytes_replicate]

/-- A malformed one is told. -/
theorem queryEAs_leftList_malformed (stack : Memory) :
    (queryEAs (copyGeas stack (leftList 5) FIL_QUERYEASFROMLIST) (leftList 5)).1 =
      .ERROR_EA_LIST_INCONSISTENT := by
  rw [queryEAs_eq, askedNames_copyGeas (by decide) (by decide), askedNames_leftList_five,
    feaListWritten_fst, if_neg (by decide)]
  rfl

end Isofs
