import Mathlib.Algebra.GroupWithZero.Nat
import Isofs.Find.Records

/-!
# From a GEA list to an FEA list

What `storeEAsInFEAList2` makes of the bytes of a GEA list: its records are the ones that stand
in the list, and its code and its output are functions of them and of the room.
-/

namespace Isofs

open Memory OutBuf TwosComplement

attribute [local irreducible] wrap32

/-! ### The records of a list -/

/-- The bytes of the records of a GEA list: the length of the name, the name and a NUL. -/
def geasBytes (records : List (List UInt8)) : List UInt8 := records.flatMap nameBytes

/-- The records stand in the `cbLeft` bytes from `pgea` on, one behind the other. -/
structure GeasAt (pgeas : Memory) (pgea cbLeft : ℕ) (records : List (List UInt8)) : Prop where
  short : ∀ name ∈ records, name.length ≤ 255
  fits : (geasBytes records).length ≤ cbLeft
  holds : HoldsAt pgeas pgea (geasBytes records)

theorem length_geasBytes_cons (name : List UInt8) (records : List (List UInt8)) :
    (geasBytes (name :: records)).length = name.length + 2 + (geasBytes records).length := by
  rw [geasBytes, List.flatMap_cons, List.length_append, length_nameBytes]
  rfl

theorem geasAt_nil (pgeas : Memory) (pgea cbLeft : ℕ) : GeasAt pgeas pgea cbLeft [] :=
  ⟨nofun, Nat.zero_le cbLeft, nofun⟩

/-- The first record of a list, and the list behind it. -/
theorem geasAt_cons_iff {pgeas : Memory} {pgea cbLeft : ℕ} {name : List UInt8}
    {records : List (List UInt8)} :
    GeasAt pgeas pgea cbLeft (name :: records) ↔
      (pgeas pgea).toNat = name.length ∧ pgeas.slice (pgea + 1) name.length = name ∧
        IsGea pgeas pgea cbLeft ∧
        GeasAt pgeas (pgea + name.length + 2) (cbLeft - (name.length + 2)) records := by
  have hsize := length_geasBytes_cons name records
  have hend : pgea + (nameBytes name).length = pgea + name.length + 2 := by
    rw [length_nameBytes]
    omega
  have hbytes : HoldsAt pgeas pgea (geasBytes (name :: records)) ↔
      HoldsAt pgeas pgea (nameBytes name) ∧
        HoldsAt pgeas (pgea + name.length + 2) (geasBytes records) := by
    rw [geasBytes, List.flatMap_cons, holdsAt_append, hend]
    rfl
  constructor
  · rintro ⟨hshort, hfits, hholds⟩
    rw [List.forall_mem_cons] at hshort
    obtain ⟨hname, hrest⟩ := hbytes.mp hholds
    obtain ⟨hcb, hslice, hz⟩ := (holdsAt_nameBytes_iff hshort.1).mp hname
    refine ⟨hcb, hslice, ⟨?_, ?_⟩, hshort.2, ?_, hrest⟩
    · rw [hcb]
      omega
    · rwa [hcb]
    · omega
  · rintro ⟨hcb, hslice, ⟨hleft, hz⟩, hshort, hfits, hrest⟩
    have hname : name.length ≤ 255 := by
      have hlt := (pgeas pgea).toNat_lt
      omega
    rw [hcb] at hleft hz
    refine ⟨List.forall_mem_cons.mpr ⟨hname, hshort⟩, by omega, hbytes.mpr ⟨?_, hrest⟩⟩
    exact (holdsAt_nameBytes_iff hname).mpr ⟨hcb, hslice, hz⟩

/-- The names that are asked for start with those of the records. -/
theorem geaNames_of_geasAt {pgeas : Memory} {records : List (List UInt8)} {pgea cbLeft : ℕ}
    (h : GeasAt pgeas pgea cbLeft records) :
    geaNames pgeas pgea cbLeft =
      (records.map cString ++ (geaNames pgeas (pgea + (geasBytes records).length)
          (cbLeft - (geasBytes records).length)).1,
        (geaNames pgeas (pgea + (geasBytes records).length)
          (cbLeft - (geasBytes records).length)).2) := by
  induction records generalizing pgea cbLeft with
  | nil => rfl
  | cons name records ih =>
    obtain ⟨hcb, hslice, hgea, hrest⟩ := geasAt_cons_iff.mp h
    have hleft : cbLeft ≠ 0 := fun h0 => by
      have hle := hgea.1
      omega
    have hpgea : pgea + name.length + 2 + (geasBytes records).length =
        pgea + (geasBytes (name :: records)).length := by
      rw [length_geasBytes_cons]
      omega
    have hcbLeft : cbLeft - (name.length + 2) - (geasBytes records).length =
        cbLeft - (geasBytes (name :: records)).length := by
      rw [length_geasBytes_cons]
      omega
    rw [geaNames, dif_neg hleft, if_pos hgea]
    simp only [hcb, hslice]
    rw [ih hrest, hpgea, hcbLeft]
    rfl

/-- The names that are asked for are those of records that stand in the list; they are all of it
when the list is found to be well formed. -/
theorem exists_geasAt (pgeas : Memory) (pgea cbLeft : ℕ) :
    ∃ records, GeasAt pgeas pgea cbLeft records ∧
      (geaNames pgeas pgea cbLeft).1 = records.map cString ∧
      ((geaNames pgeas pgea cbLeft).2 = true → (geasBytes records).length = cbLeft) := by
  -- along the records of the list
  fun_induction geaNames pgeas pgea cbLeft with
  | case1 pgea => exact ⟨[], geasAt_nil pgeas pgea 0, rfl, fun _ => rfl⟩
  | case2 pgea cbLeft hleft hgea cbName names ok hrest ih =>
    obtain ⟨records, hat, hnames, hok⟩ := ih
    rw [hrest] at hnames hok
    have hlen : (pgeas.slice (pgea + 1) cbName).length = cbName := length_slice ..
    refine ⟨pgeas.slice (pgea + 1) cbName :: records, geasAt_cons_iff.mpr ?_, ?_, fun h => ?_⟩
    · rw [hlen]
      exact ⟨rfl, rfl, hgea, hat⟩
    · exact congrArg _ hnames
    · have hle := hgea.1
      rw [length_geasBytes_cons, hlen, hok h]
      omega
  | case3 pgea cbLeft hleft hgea =>
    refine ⟨[], geasAt_nil pgeas pgea cbLeft, rfl, fun h => ?_⟩
    cases h

/-! ### What is read -/

/-- The names that are asked for are read from the `cbLeft` bytes from `pgea` on. -/
theorem geaNames_congr {pgeas pgeas' : Memory} {n pgea cbLeft : ℕ}
    (h : AgreeBelow n pgeas pgeas') (hn : pgea + cbLeft ≤ n) :
    geaNames pgeas' pgea cbLeft = geaNames pgeas pgea cbLeft := by
  fun_induction geaNames pgeas pgea cbLeft with
  | case1 pgea => rw [geaNames, dif_pos rfl]
  | case2 pgea cbLeft hleft hgea cbName names ok hrest ih =>
    have hcb : pgeas' pgea = pgeas pgea := (h pgea (by omega)).symm
    have hle := hgea.1
    have hz : pgeas' (pgea + 1 + (pgeas pgea).toNat) = pgeas (pgea + 1 + (pgeas pgea).toNat) :=
      (h _ (by omega)).symm
    have hgea' : IsGea pgeas' pgea cbLeft := by
      rw [IsGea, hcb, hz]
      exact hgea
    have hslice : pgeas'.slice (pgea + 1) (pgeas pgea).toNat =
        pgeas.slice (pgea + 1) (pgeas pgea).toNat := by
      refine slice_congr fun j hj => (h _ ?_).symm
      omega
    rw [geaNames, dif_neg hleft, if_pos hgea']
    simp only [hcb, hslice]
    rw [ih (by omega), hrest]
  | case3 pgea cbLeft hleft hgea =>
    have hcb : pgeas' pgea = pgeas pgea := (h pgea (by omega)).symm
    have hgea' : ¬ IsGea pgeas' pgea cbLeft := by
      rintro ⟨hle, hz⟩
      rw [hcb] at hle hz
      have hbyte := h (pgea + 1 + (pgeas pgea).toNat) (by omega)
      exact hgea ⟨hle, hbyte.trans hz⟩
    rw [geaNames, dif_neg hleft, if_neg hgea']

theorem wrap32_le32 {n : ℕ} (h : n < 2 ^ 32) :
    wrap32 n = if n < 2 ^ 31 then (n : ℤ) else (n : ℤ) - 2 ^ 32 := by
  rw [wrap32]
  split <;> omega

/-- What is asked for, by the length of the list. -/
theorem askedNames_eq (pgeas : Memory) :
    askedNames (some pgeas) =
      if 4 ≤ pgeas.le32 0 ∧ pgeas.le32 0 < 2 ^ 31 then geaNames pgeas 4 (pgeas.le32 0 - 4)
      else ([], false) := by
  have hlong := le32_lt pgeas 0
  rw [askedNames, listedNames, wrap32_le32 hlong]
  generalize pgeas.le32 0 = cbList at hlong
  by_cases hlt : cbList < 2 ^ 31
  · by_cases hle : 4 ≤ cbList
    · have hcb : ((cbList : ℤ) - 4).toNat = cbList - 4 := by omega
      rw [if_pos hlt, if_neg (by omega), if_pos ⟨hle, hlt⟩, hcb]
    · rw [if_pos hlt, if_pos (by omega), if_neg fun h => hle h.1]
  · rw [if_neg hlt, if_pos (by omega), if_neg fun h => hlt h.2]

/-- Only the length of the list and the bytes that it counts are read. -/
theorem askedNames_congr {pgeas pgeas' : Memory}
    (h : AgreeBelow (max 4 (pgeas.le32 0)) pgeas pgeas') :
    askedNames (some pgeas') = askedNames (some pgeas) := by
  have hcb : pgeas'.le32 0 = pgeas.le32 0 :=
    (le32_congr fun j hj => h (0 + j) (by omega)).symm
  rw [askedNames_eq, askedNames_eq, hcb]
  split
  · next hlist => exact geaNames_congr h (by omega)
  · rfl

/-! ### The list that is stored -/

/-- The records are those of a well-formed GEA list. -/
structure IsGeaList (pgeas : Memory) (records : List (List UInt8)) : Prop where
  short : ∀ name ∈ records, name.length ≤ 255
  size : 4 + (geasBytes records).length = pgeas.le32 0
  holds : HoldsAt pgeas 4 (geasBytes records)

/-- The size of the FEA list for the records. -/
def feasSize (records : List (List UInt8)) : ℕ :=
  4 + (records.map fun name => 5 + (cString name).length).sum

/-- The `FEA` of an empty attribute. -/
def emptyFea (name : List UInt8) : Fea := ⟨0, cString name, []⟩

/-- Records that start the list need more room than there is. -/
def RunsOut (pgeas : Memory) (cbData : ℕ) : Prop :=
  pgeas.le32 0 < 2 ^ 31 ∧
    ∃ records, GeasAt pgeas 4 (pgeas.le32 0 - 4) records ∧ cbData < feasSize records

/-- What becomes of a GEA list, with room for `cbData` bytes in a buffer that held `mem`. -/
structure StoresGeas (pgeas mem : Memory) (cbData : ℕ) (rc : ApiRet) (pData : Memory) : Prop where
  frame : ∀ i, cbData ≤ i → pData i = mem i
  stored_iff : rc = .NO_ERROR ↔ 4 ≤ cbData ∧ pgeas.le32 0 < 2 ^ 31 ∧
    ∃ records, IsGeaList pgeas records ∧ feasSize records ≤ cbData
  decodes : ∀ records, IsGeaList pgeas records → rc = .NO_ERROR →
    pData.le32 0 = feasSize records ∧
      parseFeaList pData 0 = some (records.map emptyFea, feasSize records)
  noRoom : cbData < 4 → rc = .ERROR_BUFFER_OVERFLOW
  runsOut : RunsOut pgeas cbData → rc = .ERROR_BUFFER_OVERFLOW
  malformed : 4 ≤ cbData → (pgeas.le32 0 < 2 ^ 31 → ∀ records, ¬ IsGeaList pgeas records) →
    ¬ RunsOut pgeas cbData → rc = .ERROR_EA_LIST_INCONSISTENT

theorem length_feasBytes_map (records : List (List UInt8)) :
    4 + (feasBytes (records.map cString)).length = feasSize records := by
  rw [feasSize, Nat.add_left_cancel_iff]
  induction records with
  | nil => rfl
  | cons name records ih =>
    rw [List.map_cons, feasBytes_cons, List.length_append, ih, length_feaBytes, List.map_cons,
      List.sum_cons]
    rfl

theorem isGeaList_iff {pgeas : Memory} {records : List (List UInt8)} (h : 4 ≤ pgeas.le32 0) :
    IsGeaList pgeas records ↔
      GeasAt pgeas 4 (pgeas.le32 0 - 4) records ∧
        (geasBytes records).length = pgeas.le32 0 - 4 := by
  constructor
  · rintro ⟨hshort, hsize, hholds⟩
    exact ⟨⟨hshort, by omega, hholds⟩, by omega⟩
  · rintro ⟨⟨hshort, -, hholds⟩, hsize⟩
    exact ⟨hshort, by omega, hholds⟩

theorem IsGeaList.four_le {pgeas : Memory} {records : List (List UInt8)}
    (h : IsGeaList pgeas records) : 4 ≤ pgeas.le32 0 := by
  have hsize := h.size
  omega

/-- A well-formed list asks for the names of its records. -/
theorem askedNames_of_isGeaList {pgeas : Memory} {records : List (List UInt8)}
    (h : IsGeaList pgeas records) (hlt : pgeas.le32 0 < 2 ^ 31) :
    askedNames (some pgeas) = (records.map cString, true) := by
  have hle := h.four_le
  obtain ⟨hat, hsize⟩ := (isGeaList_iff hle).mp h
  have hend : pgeas.le32 0 - 4 - (geasBytes records).length = 0 := by omega
  rw [askedNames_eq, if_pos ⟨hle, hlt⟩, geaNames_of_geasAt hat, hend, geaNames, dif_pos rfl,
    List.append_nil]

/-- What is asked for are the names of records that start the list, and of all of them if it is
well formed. -/
theorem exists_asked (pgeas : Memory) :
    ∃ records, GeasAt pgeas 4 (pgeas.le32 0 - 4) records ∧
      (askedNames (some pgeas)).1 = records.map cString ∧
      ((askedNames (some pgeas)).2 = true →
        pgeas.le32 0 < 2 ^ 31 ∧ IsGeaList pgeas records) := by
  rw [askedNames_eq]
  split
  · next hlist =>
    obtain ⟨records, hat, hnames, hok⟩ := exists_geasAt pgeas 4 (pgeas.le32 0 - 4)
    exact ⟨records, hat, hnames, fun h => ⟨hlist.2, (isGeaList_iff hlist.1).mpr ⟨hat, hok h⟩⟩⟩
  · exact ⟨[], geasAt_nil _ _ _, rfl, nofun⟩

/-- The room runs out exactly when the names that are asked for need more than there is. -/
theorem runsOut_iff {pgeas : Memory} {cbData : ℕ} (h : 4 ≤ cbData) :
    RunsOut pgeas cbData ↔ cbData < 4 + (feasBytes (askedNames (some pgeas)).1).length := by
  constructor
  · rintro ⟨hlt, records, hat, hlong⟩
    by_cases hle : 4 ≤ pgeas.le32 0
    · rw [askedNames_eq, if_pos ⟨hle, hlt⟩, geaNames_of_geasAt hat]
      have hsize := length_feasBytes_map records
      simp only [feasBytes, List.flatMap_append, List.length_append] at hsize ⊢
      omega
    · -- no record fits into a list that is shorter than its length
      cases records with
      | nil => exact absurd hlong (Nat.not_lt.mpr h)
      | cons name records =>
        have hfits := hat.fits
        rw [length_geasBytes_cons] at hfits
        omega
  · intro hlong
    have hlt : pgeas.le32 0 < 2 ^ 31 := by
      refine Nat.not_le.mp fun hge => ?_
      rw [askedNames_eq, if_neg fun h => Nat.not_le_of_lt h.2 hge] at hlong
      exact absurd hlong (Nat.not_lt.mpr h)
    obtain ⟨records, hat, hnames, -⟩ := exists_asked pgeas
    rw [hnames, length_feasBytes_map] at hlong
    exact ⟨hlt, records, hat, hlong⟩

/-- The FEAs of names of at most 255 characters are read back from a complete list. -/
theorem decodes_feaListWritten {geas : List (List UInt8) × Bool} {room : ℕ} (m : Memory)
    (hroom : room < 2 ^ 32) (hnames : ∀ name ∈ geas.1, name.length ≤ 255)
    (h : (feaListWritten geas room).1 = .NO_ERROR) :
    parseFeaList (m.blit 0 (feaListWritten geas room).2) 0 =
      some (geas.1.map fun name => ⟨0, name, []⟩, 4 + (feasBytes geas.1).length) := by
  obtain ⟨hbytes, hle, -⟩ := feaListWritten_of_ok h
  have hparse := @parseFeaList_bytes (m.blit 0 (feaListWritten geas room).2) geas.1 hnames
    (Nat.lt_of_le_of_lt hle hroom) 0 (hbytes ▸ holdsAt_blit m 0 _)
  rwa [Nat.zero_add] at hparse

/-- A complete list starts with its size. -/
theorem le32_complete {geas : List (List UInt8) × Bool} {room : ℕ} (m : Memory)
    (hroom : room < 2 ^ 32) (h : (feaListWritten geas room).1 = .NO_ERROR) :
    (m.blit 0 (feaListWritten geas room).2).le32 0 = 4 + (feasBytes geas.1).length := by
  rw [le32_feaListWritten h hroom, (feaListWritten_of_ok h).1, List.length_append, length_le32Bytes]

theorem storesGeas_feaListWritten (pgeas mem : Memory) {cbData : ℕ} (hroom : cbData < 2 ^ 32) :
    StoresGeas pgeas mem cbData (feaListWritten (askedNames (some pgeas)) cbData).1
      (mem.blit 0 (feaListWritten (askedNames (some pgeas)) cbData).2) := by
  have hcode := feaListWritten_fst (askedNames (some pgeas)) cbData
  obtain ⟨records, -, hnames, hok⟩ := exists_asked pgeas
  refine ⟨fun i hi => ?_, ⟨fun hrc => ?_, ?_⟩, fun records' hlist hrc => ?_, fun hshort => ?_,
    fun hout => ?_, fun h4 hbad hroom => ?_⟩
  · have hlen := length_feaListWritten_le (askedNames (some pgeas)) cbData
    exact blit_of_not mem (Or.inr (by omega))
  · obtain ⟨-, hle, hwell⟩ := feaListWritten_of_ok hrc
    obtain ⟨hlt, hlist⟩ := hok hwell
    rw [hnames, length_feasBytes_map] at hle
    exact ⟨Nat.le_trans (Nat.le_add_right 4 _) hle, hlt, records, hlist, hle⟩
  · rintro ⟨-, hlt, records', hlist, hle⟩
    rw [hcode, askedNames_of_isGeaList hlist hlt, length_feasBytes_map,
      if_neg (Nat.not_lt.mpr hle), if_pos rfl]
  · have hwell := (feaListWritten_of_ok hrc).2.2
    have hasked := askedNames_of_isGeaList hlist (hok hwell).1
    have hparse := decodes_feaListWritten mem hroom (length_askedNames_le (some pgeas)) hrc
    have hfirst := le32_complete mem hroom hrc
    simp only [hasked, length_feasBytes_map, List.map_map] at hparse hfirst ⊢
    exact ⟨hfirst, hparse⟩
  · rw [hcode, if_pos (by omega)]
  · by_cases h4 : 4 ≤ cbData
    · rw [hcode, if_pos ((runsOut_iff h4).mp hout)]
    · rw [hcode, if_pos (by omega)]
  · rw [hcode, if_neg fun h => hroom ((runsOut_iff h4).mpr h), if_neg]
    exact fun hwell => hbad (hok hwell).1 records (hok hwell).2

/-- `storeEAsInFEAList2` reads only the length of the GEA list and the bytes that it counts, and
stores an FEA list of the names of a well-formed one for which there is room; every other list is
refused, for want of room if it runs out on a record in front of the first malformed one. -/
theorem storeEAsInFEAList2_storesGeas (pgeas mem : Memory) (cbData : UInt32) :
    StoresGeas pgeas mem cbData.toNat
        ((storeEAsInFEAList2 (some pgeas)).run ⟨mem, 0, cbData.toNat⟩).1
        ((storeEAsInFEAList2 (some pgeas)).run ⟨mem, 0, cbData.toNat⟩).2.mem ∧
      ∀ pgeas', AgreeBelow (max 4 (pgeas.le32 0)) pgeas pgeas' →
        (storeEAsInFEAList2 (some pgeas')).run ⟨mem, 0, cbData.toNat⟩ =
          (storeEAsInFEAList2 (some pgeas)).run ⟨mem, 0, cbData.toNat⟩ := by
  obtain ⟨hrc, hmem⟩ := storeEAsInFEAList2_run (some pgeas) ⟨mem, 0, cbData.toNat⟩
  constructor
  · rw [hrc, hmem]
    exact storesGeas_feaListWritten pgeas mem cbData.toNat_lt
  · intro pgeas' hagree
    have hfeas : storeFeas (some pgeas') = storeFeas (some pgeas) := by
      funext b
      rw [storeFeas_eq, storeFeas_eq, askedNames_congr hagree]
    rw [storeEAsInFEAList2, storeEAsInFEAList2, hfeas]

/-! ### The limits of a list -/

/-- A name of 255 NULs. -/
def nulName : List UInt8 := List.replicate 255 0

/-- A GEA list of `k` records with the name. -/
def nulList (k : ℕ) : Memory :=
  Memory.blit (fun i => if (i - 4) % 257 = 0 then 255 else 0) 0 (le32Bytes (4 + 257 * k))

theorem nulList_apply (k : ℕ) {i : ℕ} (hi : 4 ≤ i) :
    nulList k i = if (i - 4) % 257 = 0 then 255 else 0 :=
  blit_of_not _ (Or.inr (by rw [length_le32Bytes]; omega))

/-- The bytes of records with the name. -/
theorem geasAt_nulList (k n : ℕ) {j cbLeft : ℕ} (h : 257 * n ≤ cbLeft) :
    GeasAt (nulList k) (4 + 257 * j) cbLeft (List.replicate n nulName) ∧
      (geasBytes (List.replicate n nulName)).length = 257 * n := by
  have hlen : nulName.length = 255 := List.length_replicate
  induction n generalizing j cbLeft with
  | zero => exact ⟨geasAt_nil _ _ _, rfl⟩
  | succ n ih =>
    have hoff : 4 + 257 * j + 255 + 2 = 4 + 257 * (j + 1) := by omega
    have hleft : 257 * n ≤ cbLeft - (255 + 2) := by omega
    have hcb : (nulList k (4 + 257 * j)).toNat = 255 := by
      rw [nulList_apply k (by omega), if_pos (by omega)]
      rfl
    have hslice : (nulList k).slice (4 + 257 * j + 1) 255 = nulName := by
      refine List.eq_replicate_iff.mpr ⟨length_slice _ _ _, fun b hb => ?_⟩
      obtain ⟨i, hi, rfl⟩ := List.mem_map.mp hb
      rw [List.mem_range] at hi
      rw [nulList_apply k (by omega), if_neg (by omega)]
    obtain ⟨hat, hsize⟩ := @ih (j + 1) _ hleft
    rw [List.replicate_succ, geasAt_cons_iff, length_geasBytes_cons, hlen, hoff]
    refine ⟨⟨hcb, hslice, ⟨?_, ?_⟩, hat⟩, ?_⟩
    · rw [hcb]
      omega
    · rw [hcb, nulList_apply k (by omega), if_neg (by omega)]
    · rw [hsize]
      omega

theorem isGeaList_nulList {k : ℕ} (hk : 4 + 257 * k < 2 ^ 32) :
    (nulList k).le32 0 = 4 + 257 * k ∧ IsGeaList (nulList k) (List.replicate k nulName) := by
  obtain ⟨hat, hsize⟩ := @geasAt_nulList k k 0 (257 * k) (Nat.le_refl _)
  have hcb : (nulList k).le32 0 = 4 + 257 * k := (holdsAt_blit _ 0 _).le32 hk
  exact ⟨hcb, hat.short, by rw [hsize, hcb], hat.holds⟩

theorem feasSize_nulList (k : ℕ) : feasSize (List.replicate k nulName) = 4 + 5 * k := by
  rw [feasSize, Nat.add_left_cancel_iff]
  induction k with
  | zero => rfl
  | succ k ih =>
    have hname : 5 + (cString nulName).length = 5 := rfl
    rw [List.replicate_succ, List.map_cons, List.sum_cons, ih, hname]
    omega

/-- The code for the names that are asked for. -/
theorem storeEAsInFEAList2_code (pgeas : Option Memory) (b : OutBuf) :
    ((storeEAsInFEAList2 pgeas).run b).1 =
      if b.room < 4 + (feasBytes (askedNames pgeas).1).length then .ERROR_BUFFER_OVERFLOW
      else if (askedNames pgeas).2 then .NO_ERROR else .ERROR_EA_LIST_INCONSISTENT := by
  rw [(storeEAsInFEAList2_run pgeas b).1, feaListWritten_fst]

/-- A list of length zero, and the one that is its length alone. -/
def emptyList : Memory := zeros.blit 0 (le32Bytes 4)

theorem askedNames_zeros : askedNames (some zeros) = ([], false) := by
  have hcb : zeros.le32 0 = 0 := rfl
  rw [askedNames_eq, hcb, if_neg (by decide)]

theorem askedNames_emptyList : askedNames (some emptyList) = ([], true) := by
  have hcb : emptyList.le32 0 = 4 := (holdsAt_blit zeros 0 _).le32 (by decide)
  rw [askedNames_eq, hcb, if_pos (by decide), geaNames, dif_pos rfl]

/-- A list without room is not looked at, a list of `2 ^ 31` bytes or more is refused although it is
well formed and its FEAs fit, and of a list that counts no bytes its length is read. -/
theorem storeEAsInFEAList2_limits :
    (((storeEAsInFEAList2 (some zeros)).run ⟨zeros, 0, 0⟩).1 = .ERROR_BUFFER_OVERFLOW ∧
      (∀ records, ¬ IsGeaList zeros records) ∧
      ∀ records, GeasAt zeros 4 (zeros.le32 0 - 4) records → records = []) ∧
    (∃ pgeas records, IsGeaList pgeas records ∧ feasSize records ≤ 2 ^ 32 - 1 ∧
      ((storeEAsInFEAList2 (some pgeas)).run ⟨zeros, 0, 2 ^ 32 - 1⟩).1 ≠ .NO_ERROR) ∧
    ∃ pgeas', AgreeBelow (zeros.le32 0) zeros pgeas' ∧
      ((storeEAsInFEAList2 (some pgeas')).run ⟨zeros, 0, 4⟩).1 ≠
        ((storeEAsInFEAList2 (some zeros)).run ⟨zeros, 0, 4⟩).1 := by
  have hzero : zeros.le32 0 = 0 := rfl
  refine ⟨⟨?_, fun records h => ?_, fun records h => ?_⟩,
    ⟨nulList 8355968, List.replicate 8355968 nulName, ?_⟩,
    ⟨emptyList, fun i hi => ?_, ?_⟩⟩
  · rw [storeEAsInFEAList2_code, askedNames_zeros]
    rfl
  · have hle := h.four_le
    omega
  · cases records with
    | nil => rfl
    | cons name records =>
      have hfits := h.fits
      rw [length_geasBytes_cons] at hfits
      omega
  · obtain ⟨hcb, hlist⟩ := @isGeaList_nulList 8355968 (by decide)
    refine ⟨hlist, ?_, ?_⟩
    · rw [feasSize_nulList]
      decide
    · rw [storeEAsInFEAList2_code, askedNames_eq, hcb, if_neg (by decide)]
      decide
  · rw [hzero] at hi
    exact absurd hi (Nat.not_lt_zero i)
  · rw [storeEAsInFEAList2_code, storeEAsInFEAList2_code, askedNames_zeros, askedNames_emptyList]
    decide

end Isofs
