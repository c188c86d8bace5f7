import Isofs.Find.Delivery
import Isofs.Info.Written

/-!
# The bytes of a batch

What a call on a search writes, as a function of the search, the request and the names that
its GEA list asks for: the records of the next matching entries, one behind the other.
-/

namespace Isofs

open OutBuf Memory

/-! ### What a search keeps -/

/-- The directory as a search shows it. -/
def SearchData.storedEntries (s : SearchData) : List IsoDirEntry :=
  s.pFirstInIsoDir.map s.storedEntry

/-- The position of the first entry of the directory, as an unsigned 32-bit number. -/
def SearchData.firstPosition (s : SearchData) : ℤ := (s.iNext - s.pIsoNext) % 2 ^ 32

/-- One search at two moments: they differ in the cursor, and in entries that have been stored in
upper case. -/
structure SameSearch (s t : SearchData) : Prop where
  szName : t.szName = s.szName
  flAttr : t.flAttr = s.flAttr
  entries : t.storedEntries = s.storedEntries
  position : t.firstPosition = s.firstPosition

theorem SameSearch.refl (s : SearchData) : SameSearch s s := ⟨rfl, rfl, rfl, rfl⟩

theorem SameSearch.trans {s t u : SearchData} (h : SameSearch s t) (h' : SameSearch t u) :
    SameSearch s u :=
  ⟨h'.szName.trans h.szName, h'.flAttr.trans h.flAttr, h'.entries.trans h.entries,
    h'.position.trans h.position⟩

theorem SameSearch.advanceSearch (s : SearchData) : SameSearch s (advanceSearch s) := by
  refine ⟨rfl, rfl, rfl, ?_⟩
  show (TwosComplement.wrap32 (s.iNext + 1) - (s.pIsoNext + 1 : ℕ)) % 2 ^ 32 = _
  rw [SearchData.firstPosition, TwosComplement.wrap32]
  push_cast
  omega

theorem strupr_strupr (psz : List UInt8) : strupr (strupr psz) = strupr psz := by
  have hbyte : ∀ c, toupper (toupper c) = toupper c := forall_byte (by decide +kernel)
  unfold strupr
  rw [List.map_map]
  exact List.map_congr_left fun c _ => hbyte c

theorem IsoDirEntry.strupr_strupr (pEntry : IsoDirEntry) :
    pEntry.strupr.strupr = pEntry.strupr := by
  simp only [IsoDirEntry.strupr, Isofs.strupr_strupr]

/-- Storing an entry once more does not change it. -/
theorem storedEntry_storedEntry (s : SearchData) (pEntry : IsoDirEntry) :
    s.storedEntry (s.storedEntry pEntry) = s.storedEntry pEntry := by
  unfold SearchData.storedEntry
  split
  · exact pEntry.strupr_strupr
  · rfl

theorem getElem?_storedEntries {s : SearchData} {i : ℕ} {pEntry : IsoDirEntry}
    (h : s.pFirstInIsoDir[i]? = some pEntry) :
    s.storedEntries[i]? = some (s.storedEntry pEntry) := by
  rw [SearchData.storedEntries, List.getElem?_map, h]
  rfl

theorem SameSearch.setEntry {s : SearchData} {pEntry : IsoDirEntry}
    (h : s.pEntryAt? = some pEntry) : SameSearch s (s.setEntry (s.storedEntry pEntry)) := by
  refine ⟨rfl, rfl, ?_, rfl⟩
  have hget := getElem?_storedEntries h
  obtain ⟨hlt, heq⟩ := List.getElem?_eq_some_iff.mp hget
  show (s.pFirstInIsoDir.set s.pIsoNext (s.storedEntry pEntry)).map s.storedEntry = s.storedEntries
  rw [List.map_set, storedEntry_storedEntry, ← heq]
  exact List.set_getElem_self hlt

/-! ### The record of an entry -/

/-- The position that a record gives is taken modulo `2 ^ 32`. -/
theorem recordWritten_congr {i j : ℤ} (h : i % 2 ^ 32 = j % 2 ^ 32)
    (geas : List (List UInt8) × Bool) (pszFileName : Option (List UInt8)) (ulLevel flFlags : UInt16)
    (pEntry : IsoDirEntry) (room : ℕ) :
    recordWritten geas pszFileName ulLevel flFlags i pEntry room =
      recordWritten geas pszFileName ulLevel flFlags j pEntry room := by
  have hbytes : positionBytes flFlags i = positionBytes flFlags j := by
    unfold positionBytes
    rw [h]
  unfold recordWritten headBytes
  rw [hbytes]

/-- What is written for the entry at a place of the directory. -/
def SearchData.written (s : SearchData) (geas : List (List UInt8) × Bool) (ulLevel flFlags : UInt16)
    (room place : ℕ) : ApiRet × List UInt8 :=
  match s.storedEntries[place]? with
  | none => (.ERROR_NO_MORE_FILES, [])
  | some pEntry =>
    recordWritten geas (some pEntry.chrName) ulLevel flFlags (s.firstPosition + place) pEntry room

theorem SameSearch.written {s t : SearchData} (h : SameSearch s t)
    (geas : List (List UInt8) × Bool) (ulLevel flFlags : UInt16) :
    t.written geas ulLevel flFlags = s.written geas ulLevel flFlags := by
  funext room place
  unfold SearchData.written
  rw [h.entries, h.position]

theorem length_written_le (s : SearchData) (geas : List (List UInt8) × Bool)
    (ulLevel flFlags : UInt16) (room place : ℕ) :
    (s.written geas ulLevel flFlags room place).2.length ≤ room := by
  rw [SearchData.written]
  split
  · exact Nat.zero_le room
  · exact length_recordWritten_le ..

theorem written_of_pEntryAt? {s : SearchData} {pEntry : IsoDirEntry} (h : s.pEntryAt? = some pEntry)
    (geas : List (List UInt8) × Bool) (ulLevel flFlags : UInt16) (room : ℕ) :
    s.written geas ulLevel flFlags room s.pIsoNext =
      recordWritten geas (some (s.storedEntry pEntry).chrName) ulLevel flFlags s.iNext
        (s.storedEntry pEntry) room := by
  have hposition : (s.firstPosition + s.pIsoNext) % 2 ^ 32 = s.iNext % 2 ^ 32 := by
    rw [SearchData.firstPosition]
    omega
  rw [SearchData.written]
  rw [getElem?_storedEntries h]
  exact recordWritten_congr hposition ..

/-- `storeNextFileInfo` writes the record of the first of the remaining entries. -/
structure NextWrote (geas : List (List UInt8) × Bool) (ulLevel flFlags : UInt16) (s : SearchData)
    (buf : OutBuf) (r : ApiRet × SearchData × OutBuf) : Prop where
  same : SameSearch s r.2.1
  none : s.remaining = [] → r.1 = .ERROR_NO_MORE_FILES ∧ r.2.2 = buf
  some : ∀ place rest, s.remaining = place :: rest →
    Wrote buf (s.written geas ulLevel flFlags buf.room place) (r.1, r.2.2)

theorem NextWrote.stored {pgeas : Option Memory} {ulLevel flFlags : UInt16} {s : SearchData}
    {pEntry : IsoDirEntry} (hsome : s.pEntryAt? = Option.some pEntry)
    (hmatch : s.wants pEntry = true)
    {buf : OutBuf} (hroom : buf.room < 2 ^ 32) {r : ApiRet × SearchData × OutBuf}
    (hsame : SameSearch s r.2.1)
    (hrun : (storeFileInfo pgeas (Option.some (s.storedEntry pEntry).chrName) ulLevel flFlags
      s.iNext (s.storedEntry pEntry)).run buf = (r.1, r.2.2)) :
    NextWrote (askedNames pgeas) ulLevel flFlags s buf r := by
  have hrem := remaining_of_some hsome
  rw [if_pos hmatch] at hrem
  refine ⟨hsame, fun h => ?_, fun place rest h => ?_⟩
  · rw [hrem] at h
    cases h
  · rw [hrem] at h
    obtain ⟨rfl, -⟩ := List.cons.inj h
    rw [written_of_pEntryAt? hsome, ← hrun]
    exact storeFileInfo_wrote pgeas _ ulLevel flFlags s.iNext _ buf hroom

theorem storeNextFileInfo_wrote (pgeas : Option Memory) (ulLevel flFlags : UInt16)
    (s : SearchData) (buf : OutBuf) (hroom : buf.room < 2 ^ 32) :
    NextWrote (askedNames pgeas) ulLevel flFlags s buf
      (storeNextFileInfo pgeas ulLevel flFlags s buf) := by
  -- along the entries that the cursor passes
  fun_induction storeNextFileInfo pgeas ulLevel flFlags s buf with
  | case1 s hnone =>
    refine ⟨.refl s, fun _ => ⟨rfl, rfl⟩, fun place rest h => ?_⟩
    rw [remaining_of_none hnone] at h
    cases h
  | case2 s pEntry hsome hmatch pEntry' rc buf' hstore s' hrc =>
    exact .stored hsome (wants_iff.mpr hmatch) hroom (.setEntry hsome) hstore
  | case3 s pEntry hsome hmatch pEntry' rc buf' hstore s' hrc =>
    rw [not_not.mp hrc] at hstore
    exact .stored hsome (wants_iff.mpr hmatch) hroom
      ((SameSearch.setEntry hsome).trans (.advanceSearch s')) hstore
  | case4 s pEntry hsome hmatch ih =>
    have hrem := remaining_of_some hsome
    rw [if_neg (mt wants_iff.mp hmatch)] at hrem
    refine ⟨(SameSearch.advanceSearch s).trans ih.same, fun h => ih.none (hrem ▸ h),
      fun place rest h => ?_⟩
    rw [← (SameSearch.advanceSearch s).written]
    exact ih.some place rest (hrem ▸ h)

/-! ### The records of a batch -/

/-- The code with which a batch of at most `cLeft` records ends, and the bytes written for it;
`written` gives both for one record. -/
def batchWritten (written : ℕ → ℕ → ApiRet × List UInt8) (room : ℕ) :
    ℕ → List ℕ → ApiRet × List UInt8
  | 0, _ => (.NO_ERROR, [])
  | _ + 1, [] => (.ERROR_NO_MORE_FILES, [])
  | cLeft + 1, place :: places =>
    let r := written room place
    if r.1 ≠ .NO_ERROR then r
    else
      let r' := batchWritten written (room - r.2.length) cLeft places
      (r'.1, r.2 ++ r'.2)

theorem length_batchWritten_le {written : ℕ → ℕ → ApiRet × List UInt8}
    (h : ∀ room place, (written room place).2.length ≤ room) (room cLeft : ℕ) (places : List ℕ) :
    (batchWritten written room cLeft places).2.length ≤ room := by
  induction cLeft generalizing room places with
  | zero => exact Nat.zero_le room
  | succ cLeft ih =>
    cases places with
    | nil => exact Nat.zero_le room
    | cons place places =>
      have hrecord := h room place
      have hrest := ih (room - (written room place).2.length) places
      rw [batchWritten]
      dsimp only
      split
      · exact hrecord
      · rw [List.length_append]
        omega

/-- What the loop of `storeDirContents` writes: the records that it stores come first. -/
structure BatchWrote (written : ℕ → ℕ → ApiRet × List UInt8) (cLeft : ℕ) (s : SearchData)
    (buf : OutBuf) (r : StoredEntries) : Prop where
  same : SameSearch s r.search
  code : r.rc = (batchWritten written buf.room cLeft s.remaining).1
  mem : r.buf.mem = buf.mem.blit buf.off (batchWritten written buf.room cLeft s.remaining).2
  stored : ∀ place ∈ r.stored, ∃ room ≤ buf.room, (written room place).1 = .NO_ERROR
  front : ∀ record : ℕ → List UInt8, (∀ room place, (written room place).1 = .NO_ERROR →
      (written room place).2 = record place) →
    r.stored.flatMap record <+: (batchWritten written buf.room cLeft s.remaining).2
  first : r.stored = [] → cLeft ≠ 0 → ∀ place rest, s.remaining = place :: rest →
    batchWritten written buf.room cLeft s.remaining = written buf.room place

theorem BatchWrote.cons {written : ℕ → ℕ → ApiRet × List UInt8} {cLeft : ℕ} {s s' : SearchData}
    {buf : OutBuf} {r : StoredEntries} {place : ℕ} (hrem : s.remaining = place :: s'.remaining)
    (hok : (written buf.room place).1 = .NO_ERROR) (hsame : SameSearch s s')
    (h : BatchWrote written cLeft s' (buf.append (written buf.room place).2) r) :
    BatchWrote written (cLeft + 1) s buf { r with stored := place :: r.stored } := by
  obtain ⟨hsame', hcode, hmem, hstored, hfront, -⟩ := h
  have hbatch : batchWritten written buf.room (cLeft + 1) s.remaining =
      ((batchWritten written (buf.room - (written buf.room place).2.length) cLeft s'.remaining).1,
        (written buf.room place).2 ++
          (batchWritten written (buf.room - (written buf.room place).2.length) cLeft
            s'.remaining).2) := by
    rw [hrem, batchWritten, if_neg (not_not.mpr hok)]
  refine ⟨hsame.trans hsame', ?_, ?_, ?_, ?_, nofun⟩
  · rw [hbatch]
    exact hcode
  · rw [hbatch, ← blit_append]
    exact hmem
  · intro p hp
    rcases List.mem_cons.mp hp with rfl | hp
    · exact ⟨buf.room, Nat.le_refl _, hok⟩
    · obtain ⟨room, hroom, hp⟩ := hstored p hp
      exact ⟨room, Nat.le_trans hroom (Nat.sub_le _ _), hp⟩
  · intro record hrecord
    rw [hbatch, List.flatMap_cons, ← hrecord buf.room place hok]
    exact (List.prefix_append_right_inj _).mpr (hfront record hrecord)

theorem BatchWrote.stop {written : ℕ → ℕ → ApiRet × List UInt8} {cLeft : ℕ} {s s' : SearchData}
    {buf buf' : OutBuf} {rc : ApiRet} (hsame : SameSearch s s')
    (hcode : rc = (batchWritten written buf.room cLeft s.remaining).1)
    (hmem : buf'.mem = buf.mem.blit buf.off (batchWritten written buf.room cLeft s.remaining).2)
    (hfirst : cLeft ≠ 0 → ∀ place rest, s.remaining = place :: rest →
      batchWritten written buf.room cLeft s.remaining = written buf.room place) :
    BatchWrote written cLeft s buf ⟨rc, s', buf', []⟩ :=
  ⟨hsame, hcode, hmem, nofun, fun _ _ => List.nil_prefix, fun _ => hfirst⟩

theorem storeEntries_wrote (pgeas : Option Memory) (ulLevel flFlags : UInt16) (cLeft : ℕ)
    (s : SearchData) (buf : OutBuf) (hroom : buf.room < 2 ^ 32) :
    BatchWrote (s.written (askedNames pgeas) ulLevel flFlags) cLeft s buf
      (storeEntries pgeas ulLevel flFlags cLeft s buf) := by
  induction cLeft generalizing s buf with
  | zero => exact .stop (.refl s) rfl (blit_nil buf.mem buf.off).symm (absurd rfl)
  | succ cLeft ih =>
    have hout := storeNextFileInfo_outcome pgeas ulLevel flFlags s buf
    have hnext := storeNextFileInfo_wrote pgeas ulLevel flFlags s buf hroom
    rw [storeEntries]
    generalize storeNextFileInfo pgeas ulLevel flFlags s buf = next at hout hnext ⊢
    obtain ⟨rc, s', buf'⟩ := next
    obtain ⟨hsame, hnone, hsome⟩ := hnext
    dsimp only at hout hsame hnone hsome
    cases hrem : s.remaining with
    | nil =>
      obtain ⟨rfl, rfl⟩ := hnone hrem
      refine .stop hsame ?_ ?_ fun _ _ _ h => ?_
      · rw [hrem]
        rfl
      · rw [hrem]
        exact (blit_nil buf'.mem buf'.off).symm
      · rw [hrem] at h
        cases h
    | cons place places =>
      -- the induction goes on behind the record only when it has been stored
      obtain ⟨hcode, hmem, hgo⟩ := hsome place places hrem
      dsimp only at hcode hmem hgo
      by_cases hrc : rc = .NO_ERROR
      · have hok := hcode.symm.trans hrc
        have hbuf := hgo hok
        subst hrc hbuf
        cases hout with
        | failed hrc => exact absurd rfl hrc
        | stored _ hnext =>
          obtain ⟨rfl, hplaces⟩ := List.cons.inj (hrem.symm.trans hnext)
          have hrest := ih s' (buf.append (s.written (askedNames pgeas) ulLevel flFlags buf.room
            (s'.pIsoNext - 1)).2) (by rw [append_room]; omega)
          rw [hsame.written] at hrest
          exact hrest.cons hnext hok hsame
      · have hbad : (s.written (askedNames pgeas) ulLevel flFlags buf.room place).1 ≠ .NO_ERROR :=
          fun h => hrc (hcode.trans h)
        have hbatch : batchWritten (s.written (askedNames pgeas) ulLevel flFlags) buf.room
            (cLeft + 1) s.remaining =
              s.written (askedNames pgeas) ulLevel flFlags buf.room place := by
          rw [hrem, batchWritten, if_pos hbad]
        simp only [if_pos hrc]
        -- a record that fails ends the batch, and its bytes stay in the buffer
        refine .stop hsame ?_ ?_ fun _ place' rest h => ?_
        · rw [hbatch]
          exact hcode
        · rw [hbatch]
          exact hmem
        · rw [hrem] at h
          obtain ⟨rfl, -⟩ := List.cons.inj h
          exact hbatch

end Isofs
