import Isofs.Interface.Request
import Isofs.Library.OutBuf
import Isofs.Volume.Data

/-!
# Extended attributes

`ea.c`: the FEA list for a GEA list. No file of an ISO volume has extended attributes, so
every name that is asked for gets an empty value.
-/

namespace Isofs

open Proc TwosComplement

/-- The bytes of an `FEA` with its name and its value. -/
def feaBytes (pszName pabValue : List UInt8) : List UInt8 :=
  [0, UInt8.ofNat pszName.length, UInt8.ofNat pabValue.length,
    UInt8.ofNat (pabValue.length / 2 ^ 8)] ++ pszName ++ 0 :: pabValue

/-- `storeEA`. -/
def storeEA (pszName pabValue : List UInt8) : Proc OutBuf ApiRet Unit :=
  OutBuf.put .ERROR_BUFFER_OVERFLOW (feaBytes pszName pabValue)

/-- `storeMatchingEAs`; without a name nothing is stored. -/
def storeMatchingEAs (pszName : Option (List UInt8)) : Proc OutBuf ApiRet Unit :=
  match pszName with
  | some pszName => storeEA pszName []
  | none => pure ()

/-- The loop over the GEA list from the record at `pgea` on. -/
def storeGeas (pgeas : Memory) (pgea cbLeft : ℕ) : Proc OutBuf ApiRet Unit :=
  if _hleft : cbLeft = 0 then pure ()
  else
    let cbName := (pgeas pgea).toNat
    if _hrecord : cbLeft < cbName + 2 ∨ pgeas (pgea + 1 + cbName) ≠ 0 then
      ret .ERROR_EA_LIST_INCONSISTENT
    else do
      -- the name ends at its terminator, or before it at a NUL of its own
      storeMatchingEAs (some (cString (pgeas.slice (pgea + 1) cbName)))
      storeGeas pgeas (pgea + cbName + 2) (cbLeft - (cbName + 2))
termination_by cbLeft

/-- The FEAs for a GEA list whose length is `cbLeft`. -/
def storeListedEAs (pgeas : Memory) (cbLeft : ℤ) : Proc OutBuf ApiRet Unit := do
  onlyIf (cbLeft < 4) (ret .ERROR_EA_LIST_INCONSISTENT)
  storeGeas pgeas 4 (cbLeft - 4).toNat

/-- The FEAs that `storeEAsInFEAList2` stores: those of the GEA list, or without one all
attributes, that is none. -/
def storeFeas (pgeas : Option Memory) : Proc OutBuf ApiRet Unit :=
  match pgeas with
  | some pgeas => storeListedEAs pgeas (wrap32 (pgeas.le32 0))
  | none => storeMatchingEAs none

/-- `storeEAsInFEAList2`. -/
def storeEAsInFEAList2 (pgeas : Option Memory) : Proc OutBuf ApiRet Empty := do
  let pData ← read (·.off)
  OutBuf.put .ERROR_BUFFER_OVERFLOW (Memory.le32Bytes 0)
  storeFeas pgeas
  let pfea ← read (·.off)
  OutBuf.patch pData (Memory.le32Bytes (pfea - pData))
  ret .NO_ERROR

/-- `storeEAsInFEAList`. -/
def storeEAsInFEAList (pgeas : Option Memory) : Proc OutBuf ApiRet Empty := do
  let rc ← call (storeEAsInFEAList2 pgeas)
  onlyIf (rc ≠ .NO_ERROR) (ret rc)
  ret .NO_ERROR

/-! ### The codes -/

-- the length of a list is never computed in the proofs
attribute [local irreducible] wrap32

theorem storeMatchingEAs_triple (pszName : Option (List UInt8)) :
    Triple (fun _ => True) (storeMatchingEAs pszName) (fun _ _ => True)
      (fun rc _ => rc = .ERROR_BUFFER_OVERFLOW) := by
  cases pszName with
  | none => exact Triple.pure fun _ h => h
  | some pszName => exact OutBuf.put_triple (fun _ _ => rfl) (fun _ h => h)

/-- A record of a GEA list: it ends within the list, with a terminator behind its name. -/
def IsGea (pgeas : Memory) (pgea cbLeft : ℕ) : Prop :=
  (pgeas pgea).toNat + 2 ≤ cbLeft ∧ pgeas (pgea + 1 + (pgeas pgea).toNat) = 0

instance (pgeas : Memory) (pgea cbLeft : ℕ) : Decidable (IsGea pgeas pgea cbLeft) :=
  inferInstanceAs (Decidable (_ ∧ _))

theorem not_isGea_iff {pgeas : Memory} {pgea cbLeft : ℕ} :
    (cbLeft < (pgeas pgea).toNat + 2 ∨ pgeas (pgea + 1 + (pgeas pgea).toNat) ≠ 0) ↔
      ¬ IsGea pgeas pgea cbLeft := by
  rw [IsGea, not_and_or, Nat.not_le]

/-- The records of a GEA list fill the `cbLeft` bytes from `pgea` on. -/
inductive GeaRecords (pgeas : Memory) : ℕ → ℕ → Prop where
  | nil (pgea : ℕ) : GeaRecords pgeas pgea 0
  | cons {pgea cbLeft : ℕ} (hleft : cbLeft ≠ 0) (hgea : IsGea pgeas pgea cbLeft)
      (hrest : GeaRecords pgeas (pgea + (pgeas pgea).toNat + 2)
        (cbLeft - ((pgeas pgea).toNat + 2))) : GeaRecords pgeas pgea cbLeft

/-- The loop reaches its end only over a list of records, and finds the list inconsistent only
over one that is not. -/
theorem storeGeas_triple (pgeas : Memory) (pgea cbLeft : ℕ) :
    Triple (fun _ => True) (storeGeas pgeas pgea cbLeft)
      (fun _ _ => GeaRecords pgeas pgea cbLeft)
      (fun rc _ => rc = .ERROR_BUFFER_OVERFLOW ∨
        rc = .ERROR_EA_LIST_INCONSISTENT ∧ ¬ GeaRecords pgeas pgea cbLeft) := by
  induction pgea, cbLeft using storeGeas.induct pgeas with
  | case1 pgea =>
    rw [storeGeas, dif_pos rfl]
    exact Triple.pure fun _ _ => .nil pgea
  | case2 pgea cbLeft hleft cbName hrecord =>
    have hgea : ¬ IsGea pgeas pgea cbLeft := not_isGea_iff.mp hrecord
    rw [storeGeas, dif_neg hleft, dif_pos hrecord]
    refine Triple.ret fun _ _ => Or.inr ⟨rfl, fun h => ?_⟩
    cases h with
    | nil => exact hleft rfl
    | cons _ h _ => exact hgea h
  | case3 pgea cbLeft hleft cbName hrecord ih =>
    have hgea : IsGea pgeas pgea cbLeft := not_not.mp (mt not_isGea_iff.mpr hrecord)
    rw [storeGeas, dif_neg hleft, dif_neg hrecord]
    refine Triple.bind ?_ fun _ => Triple.consequence ih (fun _ h => h) ?_ ?_
    · exact (storeMatchingEAs_triple _).consequence (fun _ h => h) (fun _ _ h => h)
        fun _ _ h => Or.inl h
    · intro _ _ hrest
      exact .cons hleft hgea hrest
    · rintro rc _ (hrc | ⟨hrc, hrest⟩)
      · exact Or.inl hrc
      · refine Or.inr ⟨hrc, fun h => ?_⟩
        cases h with
        | nil => exact hleft rfl
        | cons _ _ h => exact hrest h

/-- A list of length `cbLeft` is well formed: it has room for its length, and records fill it. -/
def GeaBody (pgeas : Memory) (cbLeft : ℤ) : Prop :=
  4 ≤ cbLeft ∧ GeaRecords pgeas 4 (cbLeft - 4).toNat

/-- The list is well formed. -/
def GeaList (pgeas : Memory) : Prop := GeaBody pgeas (wrap32 (pgeas.le32 0))

theorem storeListedEAs_triple (pgeas : Memory) (cbLeft : ℤ) :
    Triple (fun _ => True) (storeListedEAs pgeas cbLeft) (fun _ _ => GeaBody pgeas cbLeft)
      (fun rc _ => rc = .ERROR_BUFFER_OVERFLOW ∨
        rc = .ERROR_EA_LIST_INCONSISTENT ∧ ¬ GeaBody pgeas cbLeft) := by
  refine Triple.bind (Q := fun _ _ => 4 ≤ cbLeft) (Triple.onlyIf (fun hshort => ?_)
    fun hlong _ _ => Int.not_lt.mp hlong) fun _ => Triple.of_forall fun b hlong => ?_
  · exact Triple.ret fun _ _ => Or.inr ⟨rfl, fun h => Int.not_le.mpr hshort h.1⟩
  · refine (storeGeas_triple pgeas 4 _).consequence (fun _ _ => trivial) ?_ ?_
    · intro _ _ hrecords
      exact ⟨hlong, hrecords⟩
    · rintro rc _ (hrc | ⟨hrc, hrecords⟩)
      · exact Or.inl hrc
      · exact Or.inr ⟨hrc, fun h => hrecords h.2⟩

/-- What the code of an FEA list says of the GEA list. -/
def EasCode (pgeas : Option Memory) (rc : ApiRet) : Prop :=
  rc = .ERROR_BUFFER_OVERFLOW ∨ rc = .ERROR_EA_LIST_INCONSISTENT ∧ ∃ m ∈ pgeas, ¬ GeaList m

theorem storeFeas_triple (pgeas : Option Memory) :
    Triple (fun _ => True) (storeFeas pgeas) (fun _ _ => ∀ m ∈ pgeas, GeaList m)
      (fun rc _ => EasCode pgeas rc) := by
  cases pgeas with
  | none => exact Triple.pure fun _ _ m hm => nomatch hm
  | some pgeas =>
    refine (storeListedEAs_triple pgeas _).consequence (fun _ h => h) ?_ ?_
    · rintro _ _ h m ⟨⟩
      exact h
    · rintro rc _ (hrc | ⟨hrc, h⟩)
      · exact Or.inl hrc
      · exact Or.inr ⟨hrc, pgeas, rfl, h⟩

/-- An FEA list is stored for a well formed GEA list or for none, and a GEA list is found
inconsistent only if it is not well formed. -/
theorem storeEAsInFEAList2_triple (pgeas : Option Memory) :
    Triple (fun _ => True) (storeEAsInFEAList2 pgeas) (fun _ _ => False)
      (fun rc _ => rc = .NO_ERROR ∧ (∀ m ∈ pgeas, GeaList m) ∨ EasCode pgeas rc) := by
  refine Triple.bind (Q := fun _ _ => True) (Triple.read fun _ h => h) fun pData => ?_
  refine Triple.bind (Q := fun _ _ => True)
    (OutBuf.put_triple (fun _ _ => Or.inr (Or.inl rfl)) fun _ h => h) fun _ => ?_
  refine Triple.bind ((storeFeas_triple pgeas).consequence (fun _ _ => trivial) (fun _ _ h => h)
    fun _ _ h => Or.inr h) fun _ => ?_
  refine Triple.bind (Q := fun _ _ => ∀ m ∈ pgeas, GeaList m) (Triple.read fun _ h => h)
    fun pfea => ?_
  refine Triple.bind (Q := fun _ _ => ∀ m ∈ pgeas, GeaList m) (Triple.update fun _ h => h)
    fun _ => ?_
  exact Triple.ret fun _ h => Or.inl ⟨rfl, h⟩

theorem storeEAsInFEAList_triple (pgeas : Option Memory) :
    Triple (fun _ => True) (storeEAsInFEAList pgeas) (fun _ _ => False)
      (fun rc _ => rc = .NO_ERROR ∧ (∀ m ∈ pgeas, GeaList m) ∨ EasCode pgeas rc) := by
  refine Triple.bind (Triple.call (storeEAsInFEAList2_triple pgeas)) fun rc => ?_
  refine Triple.bind (Q := fun _ _ => ∀ m ∈ pgeas, GeaList m) ?_ fun _ =>
    Triple.ret fun _ h => Or.inl ⟨rfl, h⟩
  refine Triple.onlyIf (fun _ => Triple.ret fun _ h => h) fun hrc b h => ?_
  rcases h with ⟨-, h⟩ | h | ⟨h, -⟩
  · exact h
  · exact absurd h (by simp_all)
  · exact absurd h (by simp_all)

end Isofs
