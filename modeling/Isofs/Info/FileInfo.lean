import Isofs.Info.Eas

/-!
# File information

`storeFileInfo` of `fileinfo.c`, which stores one record of a directory search or the
answer to a query, and `doFileInfo`, which answers the query.
-/

namespace Isofs

open Proc OutBuf

/-- `pEntry->date_buf[i]`, a signed character. -/
def IsoDirEntry.date (pEntry : IsoDirEntry) (i : ℕ) : ℤ :=
  (pEntry.dateBuf.getD i 0).toInt8.toInt

/-- The two bytes of a 16-bit word. -/
def le16Bytes (n : ℕ) : List UInt8 := [UInt8.ofNat n, UInt8.ofNat (n / 2 ^ 8)]

/-- The `FDATE` of `isoEntryTimeToOS2`. Its bit fields are the day, the month and the year. -/
def fdate (pEntry : IsoDirEntry) : ℕ :=
  (pEntry.date 2 % 32 + pEntry.date 1 % 16 * 32 + (pEntry.date 0 - 80) % 128 * 512).toNat

/-- The `FTIME` of `isoEntryTimeToOS2`. Its bit fields are two seconds, minutes and hours. -/
def ftime (pEntry : IsoDirEntry) : ℕ :=
  ((pEntry.date 5).tdiv 2 % 32 + pEntry.date 4 % 64 * 32 + pEntry.date 3 % 32 * 2048).toNat

/-- The file size that a record gives. -/
def cbFile (pEntry : IsoDirEntry) : ℕ :=
  if pEntry.isDir then 0 else (pEntry.stSize % 2 ^ 32).toNat

/-- The attributes that a record gives. -/
def attrFile (pEntry : IsoDirEntry) : ℕ :=
  (if pEntry.isDir then FILE_DIRECTORY else 0) ||| FILE_READONLY

/-- `pEntry->flFlags=(int)pBuf->attrFile` stores what is there. -/
theorem attrFile_eq_flFlags (pEntry : IsoDirEntry) : attrFile pEntry = pEntry.flFlags := by
  rw [pEntry.flFlags_eq]
  rw [attrFile, IsoDirEntry.isDir]
  cases pEntry.stMode <;> rfl

/-- `FILESTATUS`: the dates and times of creation, last access and last write, the size, the
allocated size and the attributes. -/
def fileStatus (pEntry : IsoDirEntry) : List UInt8 :=
  let time := le16Bytes (fdate pEntry) ++ le16Bytes (ftime pEntry)
  time ++ time ++ time ++ Memory.le32Bytes (cbFile pEntry) ++ Memory.le32Bytes (cbFile pEntry) ++
    le16Bytes (attrFile pEntry)

/-- `sizeof(FILESTATUS)`. -/
theorem length_fileStatus (pEntry : IsoDirEntry) : (fileStatus pEntry).length = 22 := rfl

/-- The extended attributes of a record: the level at which it goes on and the code that it
ends with. Attributes that do not fit are replaced by their size, as for level 2. -/
def storeRecordEAs (pgeas : Option Memory) (ulLevel : UInt16) :
    Proc OutBuf ApiRet (UInt16 × ApiRet) :=
  if ulLevel = FIL_QUERYEASFROMLIST then do
    let rc ← locally (storeEAsInFEAList pgeas)
    if rc = .ERROR_BUFFER_OVERFLOW then return (FIL_QUERYEASIZE, .ERROR_EAS_DIDNT_FIT)
    else do
      onlyIf (rc ≠ .NO_ERROR) (ret rc)
      let cbList ← read fun b => b.mem.le32 b.off
      skip cbList
      return (ulLevel, .NO_ERROR)
  else return (ulLevel, .NO_ERROR)

/-- The file name of a record, if it has one. -/
def storeName (pszFileName : Option (List UInt8)) : Proc OutBuf ApiRet Unit :=
  match pszFileName with
  | some pszFileName => do
    onlyIf (255 < pszFileName.length) (ret .ERROR_FILENAME_EXCED_RANGE)
    put .ERROR_BUFFER_OVERFLOW (UInt8.ofNat pszFileName.length :: pszFileName ++ [0])
  | none => pure ()

/-- `storeFileInfo`. -/
def storeFileInfo (pgeas : Option Memory) (pszFileName : Option (List UInt8))
    (ulLevel flFlags : UInt16) (iNext : ℤ) (pEntry : IsoDirEntry) : Proc OutBuf ApiRet Empty := do
  onlyIf (flFlags &&& FF_GETPOS ≠ 0)
    (put .ERROR_BUFFER_OVERFLOW (Memory.le32Bytes (iNext % 2 ^ 32).toNat))
  put .ERROR_BUFFER_OVERFLOW (fileStatus pEntry)
  let (ulLevel, finalrc) ← storeRecordEAs pgeas ulLevel
  onlyIf (ulLevel = FIL_QUERYEASIZE) (put .ERROR_BUFFER_OVERFLOW (Memory.le32Bytes 0))
  storeName pszFileName
  ret finalrc

/-! ### Queries -/

/-- The copy of the GEA list that level 3 needs. `stack` is what lies behind it. -/
def copyGeas (stack pData : Memory) (usLevel : UInt16) : Option Memory :=
  if usLevel = FIL_QUERYEASFROMLIST then some (stack.blit 0 (pData.slice 0 (pData.le32 0)))
  else none

/-- Level 4: the whole set of extended attributes. -/
def FIL_QUERYALLEAS : UInt16 := 4

/-- The room that an FEA list gets. -/
def eaRoom : ℕ := 65536

/-- `storeEAsInFEAList(pVolume, idFile, pgeas, 65536, pData)`. -/
def queryEAs (pgeas : Option Memory) (pData : Memory) : ApiRet × Memory :=
  let (rc, buf) := (storeEAsInFEAList pgeas).run ⟨pData, 0, eaRoom⟩
  (rc, buf.mem)

/-- `doFileInfo`: its code and the data buffer. -/
def doFileInfo (flFlag ulLevel cbData : UInt16) (stack pData : Memory)
    (pIsoDirEntry : IsoDirEntry) : ApiRet × Memory :=
  if flFlag &&& FI_SET ≠ 0 then (.ERROR_WRITE_PROTECT, pData)
  else if ulLevel = FIL_STANDARD ∨ ulLevel = FIL_QUERYEASIZE then
    let (rc, buf) := (storeFileInfo none none ulLevel 0 0 pIsoDirEntry).run
      ⟨pData.clear cbData.toNat, 0, cbData.toNat⟩
    (rc, buf.mem)
  else if ulLevel = FIL_QUERYEASFROMLIST then queryEAs (copyGeas stack pData ulLevel) pData
  else if ulLevel = FIL_QUERYALLEAS then queryEAs none pData
  else (.ERROR_NOT_SUPPORTED, pData)

/-! ### The codes -/

/-- What the code of a record says of the GEA list of its level. -/
def RecordCode (pgeas : Option Memory) (ulLevel : UInt16) (rc : ApiRet) : Prop :=
  rc = .NO_ERROR ∧ (ulLevel = FIL_QUERYEASFROMLIST → ∀ m ∈ pgeas, GeaList m) ∨
    rc = .ERROR_EAS_DIDNT_FIT ∨ rc = .ERROR_BUFFER_OVERFLOW ∨
    rc = .ERROR_EA_LIST_INCONSISTENT ∧ ulLevel = FIL_QUERYEASFROMLIST ∧ ∃ m ∈ pgeas, ¬ GeaList m

theorem storeRecordEAs_triple (pgeas : Option Memory) (ulLevel : UInt16) :
    Triple (fun _ => True) (storeRecordEAs pgeas ulLevel)
      (fun r _ => RecordCode pgeas ulLevel r.2) (fun rc _ => RecordCode pgeas ulLevel rc) := by
  rw [storeRecordEAs]
  refine Triple.ite (fun hlevel => ?_) fun hlevel => Triple.pure fun _ _ =>
    Or.inl ⟨rfl, fun h => absurd h hlevel⟩
  have heas := fun b => (storeEAsInFEAList_triple pgeas).run (s := b) trivial
  refine Triple.bind (OutBuf.locally_triple (Q := fun rc _ => rc = .NO_ERROR ∧
    (∀ m ∈ pgeas, GeaList m) ∨ EasCode pgeas rc) fun b _ => heas b) fun rc => ?_
  refine Triple.ite (fun _ => Triple.pure fun _ _ => Or.inr (Or.inl rfl)) fun hrc => ?_
  refine Triple.bind (Q := fun _ _ => ∀ m ∈ pgeas, GeaList m) ?_ fun _ => ?_
  · refine Triple.onlyIf (fun _ => Triple.ret fun _ h => ?_) fun hok b h => ?_
    · rcases h with ⟨h, hlist⟩ | h | ⟨h, hlist⟩
      · exact Or.inl ⟨h, fun _ => hlist⟩
      · exact absurd h hrc
      · exact Or.inr (Or.inr (Or.inr ⟨h, hlevel, hlist⟩))
    · rcases h with ⟨-, hlist⟩ | h | ⟨h, -⟩
      · exact hlist
      · exact absurd h hrc
      · exact absurd (h ▸ hok) (by decide)
  · refine Triple.bind (Q := fun _ _ => ∀ m ∈ pgeas, GeaList m) (Triple.read fun _ h => h)
      fun cbList => ?_
    refine Triple.bind (Q := fun _ _ => ∀ m ∈ pgeas, GeaList m) (Triple.update fun _ h => h)
      fun _ => ?_
    exact Triple.pure fun _ h => Or.inl ⟨rfl, fun _ => h⟩

theorem storeName_triple {pszFileName : List UInt8} (hname : pszFileName.length ≤ 255)
    {P : OutBuf → Prop} (hP : ∀ b, P b → ∀ b', P b') :
    Triple P (storeName (some pszFileName)) (fun _ => P)
      (fun rc _ => rc = .ERROR_BUFFER_OVERFLOW) := by
  refine Triple.bind (Q := fun _ => P) ?_ fun _ =>
    OutBuf.put_triple (fun _ _ => rfl) fun b hb => hP b hb _
  exact Triple.onlyIf (fun hlong => absurd hname (by omega)) fun _ _ hb => hb

/-- A record of a named entry fails only for want of room or for its GEA list. -/
theorem storeFileInfo_code (pgeas : Option Memory) {pszFileName : List UInt8}
    (hname : pszFileName.length ≤ 255) (ulLevel flFlags : UInt16) (iNext : ℤ)
    (pEntry : IsoDirEntry) (buf : OutBuf) :
    RecordCode pgeas ulLevel
      ((storeFileInfo pgeas (some pszFileName) ulLevel flFlags iNext pEntry).run buf).1 := by
  have hoverflow : RecordCode pgeas ulLevel .ERROR_BUFFER_OVERFLOW := Or.inr (Or.inr (Or.inl rfl))
  refine Triple.run (P := fun _ => True) (Q := fun _ _ => False)
    (R := fun rc _ => RecordCode pgeas ulLevel rc) ?_ trivial
  refine Triple.bind (Q := fun _ _ => True) (Triple.onlyIf (fun _ =>
    OutBuf.put_triple (fun _ _ => hoverflow) fun _ h => h) fun _ _ h => h) fun _ => ?_
  refine Triple.bind (Q := fun _ _ => True) (OutBuf.put_triple (fun _ _ => hoverflow)
    fun _ h => h) fun _ => ?_
  refine Triple.bind (storeRecordEAs_triple pgeas ulLevel) fun r => ?_
  refine Triple.bind (Q := fun _ _ => RecordCode pgeas ulLevel r.2) (Triple.onlyIf (fun _ =>
    OutBuf.put_triple (fun _ _ => hoverflow) fun _ h => h) fun _ _ h => h) fun _ => ?_
  refine Triple.bind ((storeName_triple hname (P := fun _ => RecordCode pgeas ulLevel r.2)
    fun _ h _ => h).consequence (fun _ h => h) (fun _ _ h => h) ?_) fun _ => ?_
  · rintro rc _ rfl
    exact hoverflow
  · exact Triple.ret fun _ h => h

end Isofs
