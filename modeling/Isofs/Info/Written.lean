import Isofs.Info.FileInfo

/-!
# The bytes of a record

What `storeEAsInFEAList` and `storeFileInfo` write, as a function of their arguments and of
the room alone: nothing they do depends on what was in the buffer.
-/

namespace Isofs

open Proc OutBuf Memory TwosComplement

attribute [local irreducible] wrap32

/-! ### FEA lists -/

/-- The names that a GEA list asks for from `pgea` on, up to the first record that is malformed,
and whether there is none. -/
def geaNames (pgeas : Memory) (pgea cbLeft : ℕ) : List (List UInt8) × Bool :=
  if _hleft : cbLeft = 0 then ([], true)
  else if IsGea pgeas pgea cbLeft then
    let cbName := (pgeas pgea).toNat
    let (names, ok) := geaNames pgeas (pgea + cbName + 2) (cbLeft - (cbName + 2))
    (cString (pgeas.slice (pgea + 1) cbName) :: names, ok)
  else ([], false)
termination_by cbLeft

/-- The FEAs of empty attributes. -/
def feasBytes (names : List (List UInt8)) : List UInt8 := names.flatMap fun name => feaBytes name []

/-- The names whose FEAs fit, one behind the other, up to the first that does not. -/
def fittingNames (room : ℕ) : List (List UInt8) → List (List UInt8)
  | [] => []
  | name :: names =>
    if room < (feaBytes name []).length then []
    else name :: fittingNames (room - (feaBytes name []).length) names

theorem length_feaBytes (name value : List UInt8) :
    (feaBytes name value).length = 5 + name.length + value.length := by
  simp only [feaBytes, List.length_append, List.length_cons, List.length_nil]
  omega

theorem feasBytes_cons (name : List UInt8) (names : List (List UInt8)) :
    feasBytes (name :: names) = feaBytes name [] ++ feasBytes names :=
  List.flatMap_cons

/-- Everything fits when there is room for everything. -/
theorem fittingNames_of_le {room : ℕ} {names : List (List UInt8)}
    (h : (feasBytes names).length ≤ room) : fittingNames room names = names := by
  induction names generalizing room with
  | nil => rfl
  | cons name names ih =>
    rw [feasBytes_cons, List.length_append] at h
    rw [fittingNames, if_neg (by omega), ih (by omega)]

theorem length_feasBytes_fittingNames (room : ℕ) (names : List (List UInt8)) :
    (feasBytes (fittingNames room names)).length ≤ room := by
  induction names generalizing room with
  | nil => exact Nat.zero_le room
  | cons name names ih =>
    rw [fittingNames]
    split
    · exact Nat.zero_le room
    · have := ih (room - (feaBytes name []).length)
      rw [feasBytes_cons, List.length_append]
      omega

/-- The code of the loop over a GEA list. -/
def geasCode (room : ℕ) (geas : List (List UInt8) × Bool) : Except ApiRet Unit :=
  if room < (feasBytes geas.1).length then .error .ERROR_BUFFER_OVERFLOW
  else if geas.2 then .ok () else .error .ERROR_EA_LIST_INCONSISTENT

theorem geasCode_cons {room : ℕ} {name : List UInt8} (h : (feaBytes name []).length ≤ room)
    (names : List (List UInt8)) (ok : Bool) :
    geasCode room (name :: names, ok) =
      geasCode (room - (feaBytes name []).length) (names, ok) := by
  have hiff : room < (feasBytes (name :: names)).length ↔
      room - (feaBytes name []).length < (feasBytes names).length := by
    rw [feasBytes_cons, List.length_append]
    omega
  simp only [geasCode, hiff]

/-- The loop over a GEA list stores the FEAs that fit. -/
theorem storeGeas_eq (pgeas : Memory) (pgea cbLeft : ℕ) (b : OutBuf) :
    storeGeas pgeas pgea cbLeft b =
      (geasCode b.room (geaNames pgeas pgea cbLeft),
        b.append (feasBytes (fittingNames b.room (geaNames pgeas pgea cbLeft).1))) := by
  induction pgea, cbLeft using storeGeas.induct pgeas generalizing b with
  | case1 pgea =>
    rw [storeGeas, dif_pos rfl, geaNames, dif_pos rfl]
    exact congrArg (Prod.mk _) (append_nil b).symm
  | case2 pgea cbLeft hleft cbName hrecord =>
    rw [storeGeas, dif_neg hleft, dif_pos hrecord, geaNames, dif_neg hleft,
      if_neg (not_isGea_iff.mp hrecord)]
    exact congrArg (Prod.mk _) (append_nil b).symm
  | case3 pgea cbLeft hleft cbName hrecord ih =>
    have hgea : IsGea pgeas pgea cbLeft := not_not.mp (mt not_isGea_iff.mpr hrecord)
    have hstep : storeGeas pgeas pgea cbLeft = put .ERROR_BUFFER_OVERFLOW
        (feaBytes (cString (pgeas.slice (pgea + 1) cbName)) []) >>= fun _ =>
          storeGeas pgeas (pgea + cbName + 2) (cbLeft - (cbName + 2)) := by
      rw [storeGeas, dif_neg hleft, dif_neg hrecord]
      rfl
    have hnames : geaNames pgeas pgea cbLeft =
        (cString (pgeas.slice (pgea + 1) cbName) ::
          (geaNames pgeas (pgea + cbName + 2) (cbLeft - (cbName + 2))).1,
          (geaNames pgeas (pgea + cbName + 2) (cbLeft - (cbName + 2))).2) := by
      rw [geaNames, dif_neg hleft, if_pos hgea]
    rw [hstep, hnames, bind_apply]
    generalize cString (pgeas.slice (pgea + 1) cbName) = name
    by_cases hroom : b.room < (feaBytes name []).length
    · -- the first FEA does not fit
      rw [put_of_lt hroom, fittingNames, if_pos hroom, geasCode, if_pos]
      · exact congrArg (Prod.mk _) (append_nil b).symm
      · rw [feasBytes_cons, List.length_append]
        omega
    · rw [put_of_le (by omega), geasCode_cons (by omega), fittingNames, if_neg hroom,
        feasBytes_cons]
      dsimp only
      rw [ih, append_append]
      rfl

/-- The names that a list of length `cbLeft` asks for, and whether it is well formed. -/
def listedNames (pgeas : Memory) (cbLeft : ℤ) : List (List UInt8) × Bool :=
  if cbLeft < 4 then ([], false) else geaNames pgeas 4 (cbLeft - 4).toNat

theorem storeListedEAs_eq (pgeas : Memory) (cbLeft : ℤ) (b : OutBuf) :
    storeListedEAs pgeas cbLeft b = (geasCode b.room (listedNames pgeas cbLeft),
      b.append (feasBytes (fittingNames b.room (listedNames pgeas cbLeft).1))) := by
  rw [storeListedEAs, listedNames]
  rw [bind_apply]
  by_cases hshort : cbLeft < 4
  · rw [onlyIf_of_true hshort, ret_apply, if_pos hshort]
    exact congrArg (Prod.mk _) (append_nil b).symm
  · rw [onlyIf_of_false hshort, pure_apply, if_neg hshort]
    exact storeGeas_eq pgeas 4 _ b

/-- The names that are asked for, and whether the GEA list is well formed. -/
def askedNames (pgeas : Option Memory) : List (List UInt8) × Bool :=
  match pgeas with
  | none => ([], true)
  | some pgeas => listedNames pgeas (wrap32 (pgeas.le32 0))

theorem storeFeas_eq (pgeas : Option Memory) (b : OutBuf) :
    storeFeas pgeas b = (geasCode b.room (askedNames pgeas),
      b.append (feasBytes (fittingNames b.room (askedNames pgeas).1))) := by
  cases pgeas with
  | none => exact congrArg (Prod.mk _) (append_nil b).symm
  | some pgeas => exact storeListedEAs_eq pgeas _ b

/-- The code of an FEA list for the asked names, and the bytes that are written for it. The
length of the list stays zero until it is complete. -/
def feaListWritten (geas : List (List UInt8) × Bool) (room : ℕ) : ApiRet × List UInt8 :=
  if room < 4 then (.ERROR_BUFFER_OVERFLOW, [])
  else
    match geasCode (room - 4) geas with
    | .ok () => (.NO_ERROR, le32Bytes (4 + (feasBytes geas.1).length) ++ feasBytes geas.1)
    | .error rc => (rc, le32Bytes 0 ++ feasBytes (fittingNames (room - 4) geas.1))

/-- The code of an FEA list for the names that are asked for. -/
theorem feaListWritten_fst (geas : List (List UInt8) × Bool) (room : ℕ) :
    (feaListWritten geas room).1 =
      if room < 4 + (feasBytes geas.1).length then .ERROR_BUFFER_OVERFLOW
      else if geas.2 then .NO_ERROR else .ERROR_EA_LIST_INCONSISTENT := by
  rw [feaListWritten]
  by_cases hroom : room < 4
  · rw [if_pos hroom, if_pos (by omega)]
  · rw [if_neg hroom, geasCode]
    by_cases hfull : room - 4 < (feasBytes geas.1).length
    · rw [if_pos hfull, if_pos (by omega)]
    · have hfits : ¬ room < 4 + (feasBytes geas.1).length := by omega
      rw [if_neg hfull, if_neg hfits]
      cases geas.2 <;> rfl

theorem length_le32Bytes (n : ℕ) : (le32Bytes n).length = 4 := rfl

theorem overlay_le32Bytes (n k : ℕ) (bytes : List UInt8) :
    overlay (le32Bytes n) (le32Bytes k ++ bytes) = le32Bytes n ++ bytes := rfl

theorem storeEAsInFEAList2_run (pgeas : Option Memory) (b : OutBuf) :
    ((storeEAsInFEAList2 pgeas).run b).1 = (feaListWritten (askedNames pgeas) b.room).1 ∧
      ((storeEAsInFEAList2 pgeas).run b).2.mem =
        b.mem.blit b.off (feaListWritten (askedNames pgeas) b.room).2 := by
  rw [feaListWritten, storeEAsInFEAList2, Proc.run]
  simp only [bind_apply, read_apply]
  by_cases hroom : b.room < 4
  · rw [put_of_lt hroom, if_pos hroom]
    exact ⟨rfl, (blit_nil b.mem b.off).symm⟩
  · rw [put_of_le (by rw [length_le32Bytes]; omega), if_neg hroom]
    dsimp only
    rw [storeFeas_eq, append_room, length_le32Bytes, append_append]
    generalize askedNames pgeas = geas
    cases hcode : geasCode (b.room - 4) geas with
    | error rc => exact ⟨rfl, rfl⟩
    | ok _ =>
      -- a list that succeeds has written all of its FEAs
      have hfit : fittingNames (b.room - 4) geas.1 = geas.1 := by
        refine fittingNames_of_le (Nat.not_lt.mp fun h => ?_)
        rw [geasCode, if_pos h] at hcode
        cases hcode
      rw [hfit]
      have hlen : b.off + (le32Bytes 0 ++ feasBytes geas.1).length - b.off =
          4 + (feasBytes geas.1).length := by
        rw [List.length_append, length_le32Bytes]
        omega
      refine ⟨rfl, ?_⟩
      show (b.mem.blit b.off _).blit b.off
        (le32Bytes (b.off + (le32Bytes 0 ++ feasBytes geas.1).length - b.off)) = _
      rw [hlen, blit_overlay, overlay_le32Bytes]

theorem storeEAsInFEAList_run (pgeas : Option Memory) (b : OutBuf) :
    ((storeEAsInFEAList pgeas).run b).1 = (feaListWritten (askedNames pgeas) b.room).1 ∧
      ((storeEAsInFEAList pgeas).run b).2.mem =
        b.mem.blit b.off (feaListWritten (askedNames pgeas) b.room).2 := by
  have hcall : (storeEAsInFEAList pgeas).run b = (storeEAsInFEAList2 pgeas).run b := by
    rw [storeEAsInFEAList]
    simp only [Proc.run, Proc.call, bind_apply]
    rcases storeEAsInFEAList2 pgeas b with ⟨rc | none, b'⟩
    · by_cases hrc : rc = .NO_ERROR
      · subst hrc
        rfl
      · simp only [onlyIf_of_true hrc, ret_apply]
    · exact none.elim
  rw [hcall]
  exact storeEAsInFEAList2_run pgeas b

theorem geasCode_eq_ok_iff {room : ℕ} {geas : List (List UInt8) × Bool} :
    geasCode room geas = .ok () ↔ (feasBytes geas.1).length ≤ room ∧ geas.2 = true := by
  rw [geasCode]
  split
  · next h => exact ⟨nofun, fun h' => absurd h'.1 (Nat.not_le.mpr h)⟩
  · next h =>
    split
    · next hok => exact ⟨fun _ => ⟨Nat.not_lt.mp h, hok⟩, fun _ => rfl⟩
    · next hok => exact ⟨nofun, fun h' => absurd h'.2 hok⟩

theorem geasCode_error_ne {room : ℕ} {geas : List (List UInt8) × Bool} {rc : ApiRet}
    (h : geasCode room geas = .error rc) : rc ≠ .NO_ERROR := by
  rw [geasCode] at h
  split_ifs at h <;> cases h <;> nofun

theorem feaListWritten_code (geas : List (List UInt8) × Bool) (room : ℕ) :
    (feaListWritten geas room).1 = .NO_ERROR ∨
      (feaListWritten geas room).1 = .ERROR_BUFFER_OVERFLOW ∨
      (feaListWritten geas room).1 = .ERROR_EA_LIST_INCONSISTENT := by
  rw [feaListWritten, geasCode]
  split_ifs
  · exact Or.inr (Or.inl rfl)
  · exact Or.inr (Or.inl rfl)
  · exact Or.inl rfl
  · exact Or.inr (Or.inr rfl)

/-- A complete list. -/
theorem feaListWritten_of_ok {geas : List (List UInt8) × Bool} {room : ℕ}
    (h : (feaListWritten geas room).1 = .NO_ERROR) :
    (feaListWritten geas room).2 = le32Bytes (4 + (feasBytes geas.1).length) ++ feasBytes geas.1 ∧
      4 + (feasBytes geas.1).length ≤ room ∧ geas.2 = true := by
  unfold feaListWritten at h ⊢
  split at h
  · cases h
  · next hlong =>
    rw [if_neg hlong]
    split at h
    · next hcode =>
      obtain ⟨hroom, hok⟩ := geasCode_eq_ok_iff.mp hcode
      exact ⟨rfl, by omega, hok⟩
    · next hcode => exact absurd h (geasCode_error_ne hcode)

theorem length_feaListWritten_le (geas : List (List UInt8) × Bool) (room : ℕ) :
    (feaListWritten geas room).2.length ≤ room := by
  rw [feaListWritten]
  split
  · exact Nat.zero_le room
  · split
    · next hcode =>
      have hroom := (geasCode_eq_ok_iff.mp hcode).1
      rw [List.length_append, length_le32Bytes]
      omega
    · have := length_feasBytes_fittingNames (room - 4) geas.1
      rw [List.length_append, length_le32Bytes]
      omega

/-- A complete list starts with its length. -/
theorem le32_feaListWritten {geas : List (List UInt8) × Bool} {room : ℕ}
    (h : (feaListWritten geas room).1 = .NO_ERROR) (hroom : room < 2 ^ 32) (m : Memory) (off : ℕ) :
    (m.blit off (feaListWritten geas room).2).le32 off = (feaListWritten geas room).2.length := by
  obtain ⟨hbytes, hle, -⟩ := feaListWritten_of_ok h
  have hlength : (le32Bytes (4 + (feasBytes geas.1).length) ++ feasBytes geas.1).length =
      4 + (feasBytes geas.1).length := by
    rw [List.length_append, length_le32Bytes]
  rw [hbytes, hlength]
  exact (holdsAt_append.mp (holdsAt_blit m off _)).1.le32 (by omega)

/-! ### Records -/

/-- The position that a record starts with, if it is asked for. -/
def positionBytes (flFlags : UInt16) (iNext : ℤ) : List UInt8 :=
  if flFlags &&& FF_GETPOS ≠ 0 then le32Bytes (iNext % 2 ^ 32).toNat else []

/-- The part of a record that all levels have. -/
def headBytes (flFlags : UInt16) (iNext : ℤ) (pEntry : IsoDirEntry) : List UInt8 :=
  positionBytes flFlags iNext ++ fileStatus pEntry

/-- A name with its length and its terminator. -/
def nameBytes (pszFileName : List UInt8) : List UInt8 :=
  UInt8.ofNat pszFileName.length :: pszFileName ++ [0]

theorem length_nameBytes (pszFileName : List UInt8) :
    (nameBytes pszFileName).length = pszFileName.length + 2 := by
  simp [nameBytes]

/-- The name goes behind `before`; `rc` is the code of the complete record. -/
def withName (pszFileName : Option (List UInt8)) (room : ℕ) (rc : ApiRet) (before : List UInt8) :
    ApiRet × List UInt8 :=
  match pszFileName with
  | none => (rc, before)
  | some pszFileName =>
    if 255 < pszFileName.length then (.ERROR_FILENAME_EXCED_RANGE, before)
    else if room < before.length + (nameBytes pszFileName).length then
      (.ERROR_BUFFER_OVERFLOW, before)
    else (rc, before ++ nameBytes pszFileName)

/-- The size of the attributes and the name go behind `before`. -/
def withSize (pszFileName : Option (List UInt8)) (room : ℕ) (rc : ApiRet) (before : List UInt8) :
    ApiRet × List UInt8 :=
  if room < before.length + 4 then (.ERROR_BUFFER_OVERFLOW, before)
  else withName pszFileName room rc (before ++ le32Bytes 0)

theorem withName_code (pszFileName : Option (List UInt8)) (room : ℕ) (rc : ApiRet)
    (before : List UInt8) :
    (withName pszFileName room rc before).1 = rc ∨
      (withName pszFileName room rc before).1 = .ERROR_BUFFER_OVERFLOW ∨
      (withName pszFileName room rc before).1 = .ERROR_FILENAME_EXCED_RANGE := by
  unfold withName
  split
  · exact Or.inl rfl
  · split_ifs
    · exact Or.inr (Or.inr rfl)
    · exact Or.inr (Or.inl rfl)
    · exact Or.inl rfl

theorem withSize_code (pszFileName : Option (List UInt8)) (room : ℕ) (rc : ApiRet)
    (before : List UInt8) :
    (withSize pszFileName room rc before).1 = rc ∨
      (withSize pszFileName room rc before).1 = .ERROR_BUFFER_OVERFLOW ∨
      (withSize pszFileName room rc before).1 = .ERROR_FILENAME_EXCED_RANGE := by
  rw [withSize]
  split
  · exact Or.inr (Or.inl rfl)
  · exact withName_code pszFileName room rc _

/-- What follows the head of a record. -/
def tailWritten (geas : List (List UInt8) × Bool) (pszFileName : Option (List UInt8))
    (ulLevel : UInt16) (room : ℕ) (head : List UInt8) : ApiRet × List UInt8 :=
  if ulLevel = FIL_QUERYEASFROMLIST then
    let eas := feaListWritten geas (room - head.length)
    if eas.1 = .ERROR_BUFFER_OVERFLOW then
      -- the size and the name are written over what there is of the list
      let r := withSize pszFileName room .ERROR_EAS_DIDNT_FIT head
      (r.1, overlay r.2 (head ++ eas.2))
    else if eas.1 ≠ .NO_ERROR then (eas.1, head ++ eas.2)
    else withName pszFileName room .NO_ERROR (head ++ eas.2)
  else if ulLevel = FIL_QUERYEASIZE then withSize pszFileName room .NO_ERROR head
  else withName pszFileName room .NO_ERROR head

/-- The code of `storeFileInfo` and the bytes that it writes. -/
def recordWritten (geas : List (List UInt8) × Bool) (pszFileName : Option (List UInt8))
    (ulLevel flFlags : UInt16) (iNext : ℤ) (pEntry : IsoDirEntry) (room : ℕ) :
    ApiRet × List UInt8 :=
  if room < (positionBytes flFlags iNext).length then (.ERROR_BUFFER_OVERFLOW, [])
  else if room < (headBytes flFlags iNext pEntry).length then
    (.ERROR_BUFFER_OVERFLOW, positionBytes flFlags iNext)
  else tailWritten geas pszFileName ulLevel room (headBytes flFlags iNext pEntry)

/-- A run that started from `b` has the code and has written the bytes `w`, and goes on behind
them if it has succeeded. -/
structure Wrote (b : OutBuf) (w : ApiRet × List UInt8) (r : ApiRet × OutBuf) : Prop where
  code : r.1 = w.1
  mem : r.2.mem = b.mem.blit b.off w.2
  next : w.1 = .NO_ERROR → r.2 = b.append w.2

theorem storeName_wrote (pszFileName : Option (List UInt8)) (rc : ApiRet) (b : OutBuf)
    (before : List UInt8) :
    Wrote b (withName pszFileName b.room rc before)
      ((storeName pszFileName >>= fun _ => (ret rc : Proc OutBuf ApiRet Empty)).run
        (b.append before)) := by
  cases pszFileName with
  | none => exact ⟨rfl, rfl, fun _ => rfl⟩
  | some name =>
    have hlength := length_nameBytes name
    have hname : storeName (some name) = onlyIf (255 < name.length)
        (ret .ERROR_FILENAME_EXCED_RANGE) >>= fun _ =>
          put .ERROR_BUFFER_OVERFLOW (nameBytes name) := rfl
    simp only [withName, hname, Proc.run, bind_apply]
    by_cases hlong : 255 < name.length
    · rw [onlyIf_of_true hlong, if_pos hlong]
      exact ⟨rfl, rfl, fun _ => rfl⟩
    · rw [onlyIf_of_false hlong, if_neg hlong, pure_apply]
      dsimp only
      rw [put_append (by omega)]
      split
      · exact ⟨rfl, rfl, fun _ => rfl⟩
      · exact ⟨rfl, rfl, fun _ => rfl⟩

/-- What follows the extended attributes in `storeFileInfo`. -/
def storeRest (pszFileName : Option (List UInt8)) (ulLevel : UInt16) (finalrc : ApiRet) :
    Proc OutBuf ApiRet Empty := do
  onlyIf (ulLevel = FIL_QUERYEASIZE) (put .ERROR_BUFFER_OVERFLOW (le32Bytes 0))
  storeName pszFileName
  ret finalrc

theorem storeRest_wrote_size (pszFileName : Option (List UInt8)) (rc : ApiRet) (b : OutBuf)
    (before : List UInt8) :
    Wrote b (withSize pszFileName b.room rc before)
      ((storeRest pszFileName FIL_QUERYEASIZE rc).run (b.append before)) := by
  rw [withSize]
  split
  · next hroom =>
    have hput : put .ERROR_BUFFER_OVERFLOW (le32Bytes 0) (b.append before) =
        ((.error .ERROR_BUFFER_OVERFLOW : Except ApiRet Unit), b.append before) := by
      rw [put_append (by rw [length_le32Bytes]; omega), length_le32Bytes, if_pos hroom]
    rw [storeRest, onlyIf_of_true rfl, run_of_error (bind_of_error hput _)]
    exact ⟨rfl, rfl, fun _ => rfl⟩
  · next hroom =>
    have hput : put .ERROR_BUFFER_OVERFLOW (le32Bytes 0) (b.append before) =
        ((.ok () : Except ApiRet Unit), b.append (before ++ le32Bytes 0)) := by
      rw [put_append (by rw [length_le32Bytes]; omega), length_le32Bytes, if_neg hroom]
    rw [storeRest, onlyIf_of_true rfl, run_bind_of_ok hput]
    exact storeName_wrote pszFileName rc b (before ++ le32Bytes 0)

theorem storeRest_wrote_name (pszFileName : Option (List UInt8)) {ulLevel : UInt16}
    (hlevel : ulLevel ≠ FIL_QUERYEASIZE) (rc : ApiRet) (b : OutBuf) (before : List UInt8) :
    Wrote b (withName pszFileName b.room rc before)
      ((storeRest pszFileName ulLevel rc).run (b.append before)) := by
  rw [storeRest, onlyIf_of_false hlevel]
  exact storeName_wrote pszFileName rc b before

/-- The list at the place of `b` is written, and `b` goes on behind it or stays. -/
theorem storeRecordEAs_apply (pgeas : Option Memory) (b : OutBuf) (hroom : b.room < 2 ^ 32) :
    storeRecordEAs pgeas FIL_QUERYEASFROMLIST b =
      if (feaListWritten (askedNames pgeas) b.room).1 = .ERROR_BUFFER_OVERFLOW then
        (.ok (FIL_QUERYEASIZE, .ERROR_EAS_DIDNT_FIT),
          { b with mem := b.mem.blit b.off (feaListWritten (askedNames pgeas) b.room).2 })
      else if (feaListWritten (askedNames pgeas) b.room).1 ≠ .NO_ERROR then
        (.error (feaListWritten (askedNames pgeas) b.room).1,
          { b with mem := b.mem.blit b.off (feaListWritten (askedNames pgeas) b.room).2 })
      else (.ok (FIL_QUERYEASFROMLIST, .NO_ERROR),
        b.append (feaListWritten (askedNames pgeas) b.room).2) := by
  obtain ⟨hrc, hmem⟩ := storeEAsInFEAList_run pgeas b
  have hlist := @le32_feaListWritten (askedNames pgeas) b.room
  have hlocally : (locally (storeEAsInFEAList pgeas) : Proc OutBuf ApiRet ApiRet) b =
      (.ok (feaListWritten (askedNames pgeas) b.room).1,
        { b with mem := b.mem.blit b.off (feaListWritten (askedNames pgeas) b.room).2 }) := by
    rw [← hrc, ← hmem]
    rfl
  generalize feaListWritten (askedNames pgeas) b.room = eas at *
  rw [storeRecordEAs, if_pos rfl, bind_of_ok hlocally]
  split
  · rfl
  · split
    · next hok => rw [onlyIf_of_true hok]; rfl
    · next hok =>
      have hlength := hlist (not_not.mp hok) hroom b.mem b.off
      rw [onlyIf_of_false hok]
      show ((.ok (FIL_QUERYEASFROMLIST, .NO_ERROR) : Except ApiRet (UInt16 × ApiRet)),
        (⟨b.mem.blit b.off eas.2, b.off + (b.mem.blit b.off eas.2).le32 b.off,
          b.room - (b.mem.blit b.off eas.2).le32 b.off⟩ : OutBuf)) = _
      rw [hlength]
      rfl

theorem storeTail_wrote (pgeas : Option Memory) (pszFileName : Option (List UInt8))
    (ulLevel : UInt16) (b : OutBuf) (hroom : b.room < 2 ^ 32) (head : List UInt8) :
    Wrote b (tailWritten (askedNames pgeas) pszFileName ulLevel b.room head)
      ((storeRecordEAs pgeas ulLevel >>= fun r => storeRest pszFileName r.1 r.2).run
        (b.append head)) := by
  rw [tailWritten]
  by_cases hlevel : ulLevel = FIL_QUERYEASFROMLIST
  · subst hlevel
    have heas := storeRecordEAs_apply pgeas (b.append head) (by rw [append_room]; omega)
    rw [append_room] at heas
    rw [if_pos rfl]
    dsimp only
    generalize feaListWritten (askedNames pgeas) (b.room - head.length) = eas at heas ⊢
    split
    · next hover =>
      -- the size goes where the list has been
      rw [if_pos hover] at heas
      have hafter : (⟨(b.append head).mem.blit (b.append head).off eas.2, (b.append head).off,
          (b.append head).room⟩ : OutBuf) =
          ({ b with mem := b.mem.blit b.off (head ++ eas.2) } : OutBuf).append head := by
        have hover : overlay head (head ++ eas.2) = head ++ eas.2 := by
          rw [overlay, List.drop_left]
        simp only [append, blit_append, blit_overlay, hover]
      rw [run_bind_of_ok (heas.trans (congrArg (Prod.mk _) hafter))]
      obtain ⟨hcode, hmem, -⟩ := storeRest_wrote_size pszFileName .ERROR_EAS_DIDNT_FIT
        { b with mem := b.mem.blit b.off (head ++ eas.2) } head
      refine ⟨hcode, hmem.trans (blit_overlay _ _ _ _), fun hok => ?_⟩
      rcases withSize_code pszFileName b.room .ERROR_EAS_DIDNT_FIT head with h | h | h
      all_goals cases h.symm.trans hok
    · next hover =>
      rw [if_neg hover] at heas
      split
      · next hok =>
        rw [if_pos hok] at heas
        rw [run_of_error (bind_of_error heas _)]
        exact ⟨rfl, blit_append _ _ _ _, fun h => absurd h hok⟩
      · next hok =>
        rw [if_neg hok, append_append] at heas
        rw [run_bind_of_ok heas]
        exact storeRest_wrote_name pszFileName (by decide) .NO_ERROR b (head ++ eas.2)
  · have heas : storeRecordEAs pgeas ulLevel (b.append head) =
        (.ok (ulLevel, .NO_ERROR), b.append head) := by
      rw [storeRecordEAs, if_neg hlevel]
      rfl
    rw [if_neg hlevel, run_bind_of_ok heas]
    by_cases hsize : ulLevel = FIL_QUERYEASIZE
    · subst hsize
      exact storeRest_wrote_size pszFileName .NO_ERROR b head
    · rw [if_neg hsize]
      exact storeRest_wrote_name pszFileName hsize .NO_ERROR b head

/-- What `storeFileInfo` does. -/
theorem storeFileInfo_wrote (pgeas : Option Memory) (pszFileName : Option (List UInt8))
    (ulLevel flFlags : UInt16) (iNext : ℤ) (pEntry : IsoDirEntry) (b : OutBuf)
    (hroom : b.room < 2 ^ 32) :
    Wrote b (recordWritten (askedNames pgeas) pszFileName ulLevel flFlags iNext pEntry b.room)
      ((storeFileInfo pgeas pszFileName ulLevel flFlags iNext pEntry).run b) := by
  have hstatus := length_fileStatus pEntry
  have hhead : (headBytes flFlags iNext pEntry).length =
      (positionBytes flFlags iNext).length + (fileStatus pEntry).length := List.length_append
  -- the position is stored only where it is asked for
  have hposition : onlyIf (flFlags &&& FF_GETPOS ≠ 0)
      (put .ERROR_BUFFER_OVERFLOW (le32Bytes (iNext % 2 ^ 32).toNat)) b =
        if b.room < (positionBytes flFlags iNext).length then
          ((.error .ERROR_BUFFER_OVERFLOW : Except ApiRet Unit), b)
        else (.ok (), b.append (positionBytes flFlags iNext)) := by
    rw [positionBytes]
    by_cases hflag : flFlags &&& FF_GETPOS ≠ 0
    · rw [onlyIf_of_true hflag, if_pos hflag]
      rfl
    · rw [onlyIf_of_false hflag, if_neg hflag, append_nil]
      rfl
  rw [recordWritten]
  split
  · next hshort =>
    rw [if_pos hshort] at hposition
    rw [storeFileInfo, run_of_error (bind_of_error hposition _)]
    exact ⟨rfl, (blit_nil b.mem b.off).symm, nofun⟩
  · next hlong =>
    rw [if_neg hlong] at hposition
    rw [storeFileInfo, run_bind_of_ok hposition]
    have hput := @put_append _ ApiRet.ERROR_BUFFER_OVERFLOW (fileStatus pEntry)
      (by omega) b (positionBytes flFlags iNext)
    rw [← hhead] at hput
    split
    · next hshort =>
      rw [if_pos hshort] at hput
      rw [run_of_error (bind_of_error hput _)]
      exact ⟨rfl, rfl, nofun⟩
    · next hlong =>
      rw [if_neg hlong] at hput
      rw [run_bind_of_ok hput]
      exact storeTail_wrote pgeas pszFileName ulLevel b hroom (headBytes flFlags iNext pEntry)

/-! ### Complete records -/

theorem length_withName_le {pszFileName : Option (List UInt8)} {room : ℕ} {rc : ApiRet}
    {before : List UInt8} (h : before.length ≤ room) :
    (withName pszFileName room rc before).2.length ≤ room := by
  unfold withName
  split
  · exact h
  · split_ifs
    · exact h
    · exact h
    · rw [List.length_append]
      omega

theorem length_withSize_le {pszFileName : Option (List UInt8)} {room : ℕ} {rc : ApiRet}
    {before : List UInt8} (h : before.length ≤ room) :
    (withSize pszFileName room rc before).2.length ≤ room := by
  rw [withSize]
  split
  · exact h
  · exact length_withName_le (by rw [List.length_append, length_le32Bytes]; omega)

/-- A record is written in the room that there is. -/
theorem length_recordWritten_le (geas : List (List UInt8) × Bool)
    (pszFileName : Option (List UInt8)) (ulLevel flFlags : UInt16) (iNext : ℤ)
    (pEntry : IsoDirEntry) (room : ℕ) :
    (recordWritten geas pszFileName ulLevel flFlags iNext pEntry room).2.length ≤ room := by
  rw [recordWritten, tailWritten]
  split_ifs with hposition hhead hlevel hsize
  · exact Nat.zero_le room
  · exact Nat.not_lt.mp hposition
  · generalize headBytes flFlags iNext pEntry = head at *
    have heas := length_feaListWritten_le geas (room - head.length)
    dsimp only
    split_ifs
    · rw [length_overlay, List.length_append]
      have := @length_withSize_le pszFileName room .ERROR_EAS_DIDNT_FIT head (by omega)
      omega
    · rw [List.length_append]
      omega
    · exact length_withName_le (by rw [List.length_append]; omega)
  · exact length_withSize_le (Nat.not_lt.mp hhead)
  · exact length_withName_le (Nat.not_lt.mp hhead)

/-- The extended attributes of a complete record. -/
def easBytes (names : List (List UInt8)) (ulLevel : UInt16) : List UInt8 :=
  if ulLevel = FIL_QUERYEASFROMLIST then
    le32Bytes (4 + (feasBytes names).length) ++ feasBytes names
  else if ulLevel = FIL_QUERYEASIZE then le32Bytes 0
  else []

/-- A complete record. -/
def recordBytes (names : List (List UInt8)) (pszFileName : List UInt8) (ulLevel flFlags : UInt16)
    (iNext : ℤ) (pEntry : IsoDirEntry) : List UInt8 :=
  headBytes flFlags iNext pEntry ++ easBytes names ulLevel ++ nameBytes pszFileName

/-- The name ends a complete record. -/
theorem withName_of_code {pszFileName : List UInt8} {room : ℕ} {rc : ApiRet} {before : List UInt8}
    (h : (withName (some pszFileName) room rc before).1 = rc)
    (hrc : rc = .NO_ERROR ∨ rc = .ERROR_EAS_DIDNT_FIT) :
    (withName (some pszFileName) room rc before).2 = before ++ nameBytes pszFileName := by
  unfold withName at h ⊢
  dsimp only at h ⊢
  split_ifs at h ⊢
  · subst h
    simp at hrc
  · subst h
    simp at hrc
  · rfl

theorem withSize_of_code {pszFileName : List UInt8} {room : ℕ} {rc : ApiRet} {before : List UInt8}
    (h : (withSize (some pszFileName) room rc before).1 = rc)
    (hrc : rc = .NO_ERROR ∨ rc = .ERROR_EAS_DIDNT_FIT) :
    (withSize (some pszFileName) room rc before).2 =
      before ++ le32Bytes 0 ++ nameBytes pszFileName := by
  unfold withSize at h ⊢
  split_ifs at h ⊢
  · subst h
    simp at hrc
  · exact withName_of_code h hrc

/-- A record that is stored is complete. -/
theorem recordWritten_of_ok {geas : List (List UInt8) × Bool} {pszFileName : List UInt8}
    {ulLevel flFlags : UInt16} {iNext : ℤ} {pEntry : IsoDirEntry} {room : ℕ}
    (h : (recordWritten geas (some pszFileName) ulLevel flFlags iNext pEntry room).1 = .NO_ERROR) :
    (recordWritten geas (some pszFileName) ulLevel flFlags iNext pEntry room).2 =
      recordBytes geas.1 pszFileName ulLevel flFlags iNext pEntry := by
  unfold recordWritten tailWritten at h ⊢
  rw [recordBytes, easBytes]
  generalize headBytes flFlags iNext pEntry = head at *
  dsimp only at h ⊢
  split_ifs at h ⊢ with hposition hhead hlevel hover hok hsize
  · -- a list that does not fit ends with another code
    rcases withSize_code (some pszFileName) room .ERROR_EAS_DIDNT_FIT head with h' | h' | h'
    all_goals cases h'.symm.trans h
  · exact absurd h hok
  · obtain ⟨heas, -⟩ := feaListWritten_of_ok (not_not.mp hok)
    rw [withName_of_code h (Or.inl rfl), heas, List.append_assoc]
  · exact withSize_of_code h (Or.inl rfl)
  · rw [withName_of_code h (Or.inl rfl), List.append_nil]

/-- A record whose attributes do not fit starts with a complete record of level 2. -/
theorem recordWritten_of_easDidntFit {geas : List (List UInt8) × Bool} {pszFileName : List UInt8}
    {ulLevel flFlags : UInt16} {iNext : ℤ} {pEntry : IsoDirEntry} {room : ℕ}
    (h : (recordWritten geas (some pszFileName) ulLevel flFlags iNext pEntry room).1 =
      .ERROR_EAS_DIDNT_FIT) :
    ulLevel = FIL_QUERYEASFROMLIST ∧
      recordBytes geas.1 pszFileName FIL_QUERYEASIZE flFlags iNext pEntry <+:
        (recordWritten geas (some pszFileName) ulLevel flFlags iNext pEntry room).2 := by
  unfold recordWritten tailWritten at h ⊢
  rw [recordBytes, easBytes]
  generalize headBytes flFlags iNext pEntry = head at *
  rw [if_neg (show FIL_QUERYEASIZE ≠ FIL_QUERYEASFROMLIST by decide), if_pos rfl]
  dsimp only at h ⊢
  split_ifs at h ⊢ with hposition hhead hlevel hover hok hsize
  · refine ⟨hlevel, ?_⟩
    rw [overlay, withSize_of_code h (Or.inr rfl)]
    exact List.prefix_append _ _
  · rcases feaListWritten_code geas (room - head.length) with h' | h' | h'
    all_goals cases h'.symm.trans h
  · rcases withName_code (some pszFileName) room .NO_ERROR
      (head ++ (feaListWritten geas (room - head.length)).2) with h' | h' | h'
    all_goals cases h'.symm.trans h
  · rcases withSize_code (some pszFileName) room .NO_ERROR head with h' | h' | h'
    all_goals cases h'.symm.trans h
  · rcases withName_code (some pszFileName) room .NO_ERROR head with h' | h' | h'
    all_goals cases h'.symm.trans h

end Isofs
