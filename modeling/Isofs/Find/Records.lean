import Isofs.Find.Batch

/-!
# The records of a search

A reader of the data buffer for the records that a search stores there, and that it gives
back the entries that the call delivers.
-/

namespace Isofs

open Memory OutBuf

/-! ### Reading records -/

/-- An `FEA`. -/
structure Fea where
  fEA : UInt8
  name : List UInt8
  value : List UInt8
  deriving DecidableEq

/-- A record of a search: the position, the size, the allocated size and the attributes of the
file, the size of its attributes or the attributes themselves, and its name. -/
structure FindRecord where
  position : Option ℕ
  cbFile : ℕ
  cbFileAlloc : ℕ
  attrFile : ℕ
  cbEAs : Option ℕ
  feas : Option (List Fea)
  name : List UInt8
  deriving DecidableEq

/-- The unsigned 16-bit number at `off`. -/
def le16 (m : Memory) (off : ℕ) : ℕ := (m off).toNat + (m (off + 1)).toNat * 2 ^ 8

/-- The `FEA`s that fill the `cbLeft` bytes from `off` on. -/
def parseFeas (m : Memory) (off cbLeft : ℕ) : Option (List Fea) :=
  if _hleft : cbLeft = 0 then some []
  else
    let cbName := (m (off + 1)).toNat
    let cbValue := le16 m (off + 2)
    let size := 5 + cbName + cbValue
    if _hsize : cbLeft < size ∨ m (off + 4 + cbName) ≠ 0 then none
    else
      (parseFeas m (off + size) (cbLeft - size)).map fun feas =>
        ⟨m off, m.slice (off + 4) cbName, m.slice (off + 5 + cbName) cbValue⟩ :: feas
termination_by cbLeft

/-- The list of `FEA`s at `off`, and the place behind it. -/
def parseFeaList (m : Memory) (off : ℕ) : Option (List Fea × ℕ) :=
  if m.le32 off < 4 then none
  else (parseFeas m (off + 4) (m.le32 off - 4)).map fun feas => (feas, off + m.le32 off)

/-- The name at `off`, and the place behind its terminator. -/
def parseName (m : Memory) (off : ℕ) : Option (List UInt8 × ℕ) :=
  let cbName := (m off).toNat
  if m (off + 1 + cbName) ≠ 0 then none else some (m.slice (off + 1) cbName, off + cbName + 2)

/-- The record at `off`, and the place behind it. -/
def parseRecord (ulLevel flFlags : UInt16) (m : Memory) (off : ℕ) : Option (FindRecord × ℕ) :=
  let position := if flFlags &&& FF_GETPOS ≠ 0 then some (m.le32 off) else none
  let off := if flFlags &&& FF_GETPOS ≠ 0 then off + 4 else off
  let record := fun cbEAs feas name =>
    FindRecord.mk position (m.le32 (off + 12)) (m.le32 (off + 16)) (le16 m (off + 20)) cbEAs feas
      name
  let off := off + 22
  if ulLevel = FIL_QUERYEASFROMLIST then
    (parseFeaList m off).bind fun (feas, off) =>
      (parseName m off).map fun (name, off) => (record none (some feas) name, off)
  else if ulLevel = FIL_QUERYEASIZE then
    (parseName m (off + 4)).map fun (name, off') => (record (some (m.le32 off)) none name, off')
  else (parseName m off).map fun (name, off) => (record none none name, off)

/-- `n` records one behind the other from `off` on, and the place behind them. -/
def parseRecords (ulLevel flFlags : UInt16) (m : Memory) : ℕ → ℕ → Option (List FindRecord × ℕ)
  | 0, off => some ([], off)
  | n + 1, off =>
    (parseRecord ulLevel flFlags m off).bind fun (record, off) =>
      (parseRecords ulLevel flFlags m n off).map fun (records, off) => (record :: records, off)

/-! ### Complete records are read back -/

/-- The size that a record is to give: that of the file as an unsigned word, none for a
directory. -/
def IsoDirEntry.recordSize (pEntry : IsoDirEntry) : ℕ :=
  match pEntry.stMode with
  | .S_IFDIR => 0
  | .S_IFREG => (pEntry.stSize % 2 ^ 32).toNat

/-- What a record tells of an entry. -/
def recordOf (names : List (List UInt8)) (ulLevel flFlags : UInt16) (iNext : ℤ)
    (pEntry : IsoDirEntry) : FindRecord where
  position := if flFlags &&& FF_GETPOS ≠ 0 then some (iNext % 2 ^ 32).toNat else none
  cbFile := pEntry.recordSize
  cbFileAlloc := pEntry.recordSize
  attrFile := pEntry.flFlags
  cbEAs := if ulLevel = FIL_QUERYEASIZE then some 0 else none
  feas :=
    if ulLevel = FIL_QUERYEASFROMLIST then some (names.map fun name => ⟨0, name, []⟩) else none
  name := pEntry.chrName

/-- The size that is stored is the one of the entry. -/
theorem cbFile_eq (pEntry : IsoDirEntry) : cbFile pEntry = pEntry.recordSize := by
  rw [cbFile, IsoDirEntry.isDir, IsoDirEntry.recordSize]
  cases pEntry.stMode <;> rfl

theorem recordSize_lt (pEntry : IsoDirEntry) : pEntry.recordSize < 2 ^ 32 := by
  rw [IsoDirEntry.recordSize]
  split
  · decide
  · omega

theorem flFlags_lt (pEntry : IsoDirEntry) : pEntry.flFlags < 2 ^ 16 := by
  rw [pEntry.flFlags_eq]
  cases pEntry.stMode <;> decide

theorem le16_of_holdsAt {m : Memory} {off n : ℕ} (h : HoldsAt m off (le16Bytes n))
    (hn : n < 2 ^ 16) : le16 m off = n := by
  have h0 : m off = UInt8.ofNat n := h 0 Nat.zero_lt_two
  have h1 : m (off + 1) = UInt8.ofNat (n / 2 ^ 8) := h 1 Nat.one_lt_two
  simp only [le16, h0, h1, UInt8.toNat_ofNat']
  omega

theorem toNat_ofNat_length {name : List UInt8} (h : name.length ≤ 255) :
    (UInt8.ofNat name.length).toNat = name.length := by
  rw [UInt8.toNat_ofNat']
  omega

/-- The parts of an FEA with an empty value. -/
theorem holdsAt_feaBytes {m : Memory} {name : List UInt8} {off : ℕ}
    (h : HoldsAt m off (feaBytes name [])) :
    m off = 0 ∧ m (off + 1) = UInt8.ofNat name.length ∧ le16 m (off + 2) = 0 ∧
      HoldsAt m (off + 4) name ∧ m (off + 4 + name.length) = 0 := by
  have hparts : HoldsAt m off (([0, UInt8.ofNat name.length, 0, 0] ++ name) ++ [0]) := h
  obtain ⟨hhead, hend⟩ := holdsAt_append.mp hparts
  obtain ⟨hfour, hname⟩ := holdsAt_append.mp hhead
  have h0 : m off = 0 := hfour 0 (Nat.zero_lt_succ 3)
  have h1 : m (off + 1) = UInt8.ofNat name.length := hfour 1 (Nat.one_lt_succ_succ 2)
  have h2 : m (off + 2) = 0 := hfour 2 (by simp)
  have h3 : m (off + 3) = 0 := hfour 3 (by simp)
  have hz : m (off + 4 + name.length) = 0 := by
    have h4 := hend 0 (Nat.zero_lt_succ 0)
    have hoff : off + ([0, UInt8.ofNat name.length, 0, 0] ++ name).length + 0 =
        off + 4 + name.length := by
      simp only [List.length_append, List.length_cons, List.length_nil]
      omega
    rwa [hoff] at h4
  refine ⟨h0, h1, ?_, hname, hz⟩
  rw [le16, h2, h3]
  rfl

/-- The FEAs of the names are read back. -/
theorem parseFeas_feasBytes {m : Memory} {names : List (List UInt8)}
    (hnames : ∀ name ∈ names, name.length ≤ 255) {off : ℕ} (h : HoldsAt m off (feasBytes names)) :
    parseFeas m off (feasBytes names).length = some (names.map fun name => ⟨0, name, []⟩) := by
  induction names generalizing off with
  | nil =>
    rw [parseFeas]
    rfl
  | cons name names ih =>
    have hlen : name.length ≤ 255 := hnames name List.mem_cons_self
    have hsize := length_feaBytes name []
    rw [feasBytes_cons] at h ⊢
    obtain ⟨hfea, hrest⟩ := holdsAt_append.mp h
    obtain ⟨h0, h1, h2, hname, hend⟩ := holdsAt_feaBytes hfea
    have htail := ih (fun n hn => hnames n (List.mem_cons_of_mem name hn)) hrest
    rw [List.length_nil, Nat.add_zero] at hsize
    rw [List.length_append, hsize]
    rw [hsize] at htail
    have hcb : (m (off + 1)).toNat = name.length := by rw [h1, toNat_ofNat_length hlen]
    have hleft : 5 + name.length + (feasBytes names).length - (5 + name.length) =
        (feasBytes names).length := by omega
    rw [parseFeas, dif_neg (by omega)]
    dsimp only
    rw [hcb, h2, Nat.add_zero, dif_neg, hleft, htail, h0, hname.slice]
    · rfl
    · rintro (hshort | hne)
      · omega
      · exact hne hend

/-- The parts of a name with its length and its terminator. -/
theorem holdsAt_nameBytes_iff {m : Memory} {name : List UInt8} (hname : name.length ≤ 255)
    {off : ℕ} : HoldsAt m off (nameBytes name) ↔ (m off).toNat = name.length ∧
      m.slice (off + 1) name.length = name ∧ m (off + 1 + name.length) = 0 := by
  have hparts : nameBytes name = ([UInt8.ofNat name.length] ++ name) ++ [0] := rfl
  have hend : off + ([UInt8.ofNat name.length] ++ name).length = off + 1 + name.length := by
    simp only [List.length_append, List.length_cons, List.length_nil]
    omega
  have hfirst : m off = UInt8.ofNat name.length ↔ (m off).toNat = name.length := by
    rw [← UInt8.toNat_inj, toNat_ofNat_length hname]
  rw [hparts, holdsAt_append, holdsAt_append, holdsAt_singleton, holdsAt_singleton, hend, hfirst,
    and_assoc, holdsAt_iff_slice]
  rfl

theorem parseName_nameBytes {m : Memory} {name : List UInt8} (hname : name.length ≤ 255) {off : ℕ}
    (h : HoldsAt m off (nameBytes name)) :
    parseName m off = some (name, off + (nameBytes name).length) := by
  obtain ⟨hcb, hslice, hz⟩ := (holdsAt_nameBytes_iff hname).mp h
  rw [parseName, hcb, if_neg (not_not.mpr hz), hslice, length_nameBytes, Nat.add_assoc]

theorem parseFeaList_bytes {m : Memory} {names : List (List UInt8)}
    (hnames : ∀ name ∈ names, name.length ≤ 255) (hlen : 4 + (feasBytes names).length < 2 ^ 32)
    {off : ℕ} (h : HoldsAt m off (le32Bytes (4 + (feasBytes names).length) ++ feasBytes names)) :
    parseFeaList m off = some (names.map fun name => ⟨0, name, []⟩,
      off + (4 + (feasBytes names).length)) := by
  obtain ⟨hlength, hfeas⟩ := holdsAt_append.mp h
  have hleft : 4 + (feasBytes names).length - 4 = (feasBytes names).length := by omega
  rw [parseFeaList, hlength.le32 hlen, if_neg (by omega), hleft,
    parseFeas_feasBytes hnames (by simpa [length_le32Bytes] using hfeas)]
  rfl

/-- The parts of a `FILESTATUS` that a record gives. -/
theorem holdsAt_fileStatus {m : Memory} {pEntry : IsoDirEntry} {off : ℕ}
    (h : HoldsAt m off (fileStatus pEntry)) :
    m.le32 (off + 12) = pEntry.recordSize ∧ m.le32 (off + 16) = pEntry.recordSize ∧
      le16 m (off + 20) = pEntry.flFlags := by
  have hsize := recordSize_lt pEntry
  rw [fileStatus, cbFile_eq, attrFile_eq_flFlags] at h
  obtain ⟨hsizes, hattr⟩ := holdsAt_append.mp h
  obtain ⟨hsizes, halloc⟩ := holdsAt_append.mp hsizes
  obtain ⟨-, hfile⟩ := holdsAt_append.mp hsizes
  exact ⟨HoldsAt.le32 hfile hsize, HoldsAt.le32 halloc hsize,
    le16_of_holdsAt hattr (flFlags_lt pEntry)⟩

/-- The attributes and the name that follow the head of a record at `off`. -/
theorem parseTail {m : Memory} {names : List (List UInt8)}
    (hnames : ∀ name ∈ names, name.length ≤ 255) (ulLevel : UInt16) {name : List UInt8}
    (hname : name.length ≤ 255) (hlen : (easBytes names ulLevel).length < 2 ^ 32) {off : ℕ}
    (h : HoldsAt m off (easBytes names ulLevel ++ nameBytes name))
    (record : Option ℕ → Option (List Fea) → List UInt8 → FindRecord) :
    (if ulLevel = FIL_QUERYEASFROMLIST then
        (parseFeaList m off).bind fun (feas, off) =>
          (parseName m off).map fun (name, off) => (record none (some feas) name, off)
      else if ulLevel = FIL_QUERYEASIZE then
        (parseName m (off + 4)).map fun (name, off') => (record (some (m.le32 off)) none name, off')
      else (parseName m off).map fun (name, off) => (record none none name, off)) =
      some (record (if ulLevel = FIL_QUERYEASIZE then some 0 else none)
        (if ulLevel = FIL_QUERYEASFROMLIST then some (names.map fun name => ⟨0, name, []⟩)
          else none)
        name, off + (easBytes names ulLevel ++ nameBytes name).length) := by
  obtain ⟨heas, hchars⟩ := holdsAt_append.mp h
  rw [List.length_append, ← Nat.add_assoc]
  unfold easBytes at hlen heas hchars ⊢
  by_cases hlist : ulLevel = FIL_QUERYEASFROMLIST
  · rw [if_pos hlist] at hlen heas hchars
    have hsize : ulLevel ≠ FIL_QUERYEASIZE := hlist ▸ by decide
    have hlength : (le32Bytes (4 + (feasBytes names).length) ++ feasBytes names).length =
        4 + (feasBytes names).length := by rw [List.length_append, length_le32Bytes]
    rw [hlength] at hlen hchars
    rw [if_pos hlist, if_pos hlist, if_pos hlist, if_neg hsize, hlength,
      parseFeaList_bytes hnames hlen heas, Option.bind_some]
    dsimp only
    rw [parseName_nameBytes hname hchars]
    rfl
  · rw [if_neg hlist] at heas hchars
    rw [if_neg hlist, if_neg hlist, if_neg hlist]
    by_cases hsize : ulLevel = FIL_QUERYEASIZE
    · rw [if_pos hsize] at heas hchars
      rw [if_pos hsize, if_pos hsize, if_pos hsize, heas.le32 (by decide)]
      rw [length_le32Bytes] at hchars ⊢
      rw [parseName_nameBytes hname hchars]
      rfl
    · rw [if_neg hsize] at hchars
      rw [if_neg hsize, if_neg hsize, if_neg hsize]
      rw [List.length_nil, Nat.add_zero] at hchars ⊢
      rw [parseName_nameBytes hname hchars]
      rfl

/-- A complete record is read back, and nothing more than the record is read. -/
theorem parseRecord_recordBytes {m : Memory} {names : List (List UInt8)}
    (hnames : ∀ name ∈ names, name.length ≤ 255) {ulLevel flFlags : UInt16} {iNext : ℤ}
    {pEntry : IsoDirEntry} {off : ℕ}
    (hlen : (recordBytes names pEntry.chrName ulLevel flFlags iNext pEntry).length < 2 ^ 32)
    (h : HoldsAt m off (recordBytes names pEntry.chrName ulLevel flFlags iNext pEntry)) :
    parseRecord ulLevel flFlags m off = some (recordOf names ulLevel flFlags iNext pEntry,
      off + (recordBytes names pEntry.chrName ulLevel flFlags iNext pEntry).length) := by
  have hname : pEntry.chrName.length ≤ 255 := Nat.le_of_lt_succ pEntry.chrName_length_lt
  have hposition : (iNext % 2 ^ 32).toNat < 2 ^ 32 := by omega
  unfold recordBytes headBytes at hlen h ⊢
  rw [List.append_assoc, List.append_assoc] at hlen h ⊢
  have heas : (easBytes names ulLevel).length < 2 ^ 32 := by
    simp only [List.length_append] at hlen
    omega
  obtain ⟨hpos, hrest⟩ := holdsAt_append.mp h
  obtain ⟨hstatus, htail⟩ := holdsAt_append.mp hrest
  obtain ⟨hfile, halloc, hattr⟩ := holdsAt_fileStatus hstatus
  rw [length_fileStatus] at htail
  have hread := parseTail hnames ulLevel hname heas htail fun cbEAs feas name =>
    ⟨if flFlags &&& FF_GETPOS ≠ 0 then some (m.le32 off) else none, pEntry.recordSize,
      pEntry.recordSize, pEntry.flFlags, cbEAs, feas, name⟩
  rw [parseRecord, recordOf]
  unfold positionBytes at hpos hfile halloc hattr hread ⊢
  by_cases hflag : flFlags &&& FF_GETPOS ≠ 0
  · simp only [if_pos hflag, length_le32Bytes] at hpos hfile halloc hattr hread ⊢
    have hposition : m.le32 off = (iNext % 2 ^ 32).toNat := hpos.le32 hposition
    rw [hfile, halloc, hattr, hread, hposition]
    simp only [List.length_append, length_le32Bytes, length_fileStatus, Nat.add_assoc]
  · simp only [if_neg hflag, List.length_nil, Nat.add_zero] at hfile halloc hattr hread ⊢
    rw [hfile, halloc, hattr, hread]
    simp only [List.length_append, List.length_nil, length_fileStatus, Nat.add_assoc,
      Nat.zero_add]

/-! ### A batch is read back -/

theorem length_cString_slice_le (m : Memory) (off : ℕ) (cb : UInt8) :
    (cString (m.slice off cb.toNat)).length ≤ 255 := by
  have hle := length_cString_le (m.slice off cb.toNat)
  have hcb := cb.toNat_lt
  rw [length_slice] at hle
  omega

theorem length_geaNames_le (pgeas : Memory) (pgea cbLeft : ℕ) :
    ∀ name ∈ (geaNames pgeas pgea cbLeft).1, name.length ≤ 255 := by
  -- along the records of the list
  fun_induction geaNames pgeas pgea cbLeft with
  | case1 pgea => exact nofun
  | case2 pgea cbLeft hleft hgea cbName names ok hrest ih =>
    rw [hrest] at ih
    intro name hname
    rcases List.mem_cons.mp hname with rfl | hname
    · exact length_cString_slice_le pgeas (pgea + 1) (pgeas pgea)
    · exact ih name hname
  | case3 pgea cbLeft hleft hgea => exact nofun

/-- The names that are asked for have at most 255 characters. -/
theorem length_askedNames_le (pgeas : Option Memory) :
    ∀ name ∈ (askedNames pgeas).1, name.length ≤ 255 := by
  unfold askedNames listedNames
  split
  · exact nofun
  · split
    · exact nofun
    · exact length_geaNames_le _ _ _

/-- What a record tells of the entry at a place of the directory. -/
def SearchData.recordAt (s : SearchData) (names : List (List UInt8)) (ulLevel flFlags : UInt16)
    (place : ℕ) : Option FindRecord :=
  (s.storedEntries[place]?).map (recordOf names ulLevel flFlags (s.firstPosition + place))

/-- The complete record of the entry at a place of the directory. -/
def SearchData.recordBytesAt (s : SearchData) (names : List (List UInt8))
    (ulLevel flFlags : UInt16) (place : ℕ) : List UInt8 :=
  match s.storedEntries[place]? with
  | none => []
  | some pEntry =>
    recordBytes names pEntry.chrName ulLevel flFlags (s.firstPosition + place) pEntry

theorem written_of_ok {s : SearchData} {geas : List (List UInt8) × Bool}
    {ulLevel flFlags : UInt16} {room place : ℕ}
    (h : (s.written geas ulLevel flFlags room place).1 = .NO_ERROR) :
    (s.written geas ulLevel flFlags room place).2 =
      s.recordBytesAt geas.1 ulLevel flFlags place := by
  unfold SearchData.written at h ⊢
  rw [SearchData.recordBytesAt]
  cases hentry : s.storedEntries[place]? with
  | none => rfl
  | some pEntry =>
    rw [hentry] at h
    exact recordWritten_of_ok h

/-- A record with fewer than `2 ^ 32` bytes is read back. -/
theorem parseRecord_recordBytesAt {m : Memory} {s : SearchData} {names : List (List UInt8)}
    (hnames : ∀ name ∈ names, name.length ≤ 255) {ulLevel flFlags : UInt16} {place off : ℕ}
    {pEntry : IsoDirEntry} (hentry : s.storedEntries[place]? = some pEntry)
    (hlen : (s.recordBytesAt names ulLevel flFlags place).length < 2 ^ 32)
    (h : HoldsAt m off (s.recordBytesAt names ulLevel flFlags place)) :
    ∃ record, s.recordAt names ulLevel flFlags place = some record ∧
      parseRecord ulLevel flFlags m off =
        some (record, off + (s.recordBytesAt names ulLevel flFlags place).length) := by
  rw [SearchData.recordAt]
  unfold SearchData.recordBytesAt at hlen h ⊢
  rw [hentry] at hlen h ⊢
  exact ⟨_, rfl, parseRecord_recordBytes hnames hlen h⟩

/-- Complete records, one behind the other, are read back. -/
theorem parseRecords_flatMap {m : Memory} {s : SearchData} {names : List (List UInt8)}
    (hnames : ∀ name ∈ names, name.length ≤ 255) {ulLevel flFlags : UInt16} {places : List ℕ}
    (hentries : ∀ place ∈ places, ∃ pEntry, s.storedEntries[place]? = some pEntry ∧
      (s.recordBytesAt names ulLevel flFlags place).length < 2 ^ 32) {off : ℕ}
    (h : HoldsAt m off (places.flatMap (s.recordBytesAt names ulLevel flFlags))) :
    ∃ records, records.map some = places.map (s.recordAt names ulLevel flFlags) ∧
      parseRecords ulLevel flFlags m places.length off =
        some (records, off + (places.flatMap (s.recordBytesAt names ulLevel flFlags)).length) := by
  induction places generalizing off with
  | nil => exact ⟨[], rfl, rfl⟩
  | cons place places ih =>
    rw [List.flatMap_cons] at h ⊢
    obtain ⟨hfirst, hrest⟩ := holdsAt_append.mp h
    obtain ⟨pEntry, hentry, hlen⟩ := hentries place List.mem_cons_self
    obtain ⟨record, hrecord, hread⟩ := parseRecord_recordBytesAt hnames hentry hlen hfirst
    obtain ⟨records, hrecords, hreads⟩ :=
      ih (fun p hp => hentries p (List.mem_cons_of_mem place hp)) hrest
    refine ⟨record :: records, ?_, ?_⟩
    · rw [List.map_cons, List.map_cons, hrecord, hrecords]
    · rw [List.length_cons, parseRecords, hread, Option.bind_some]
      dsimp only
      rw [hreads, List.length_append, Nat.add_assoc]
      rfl

/-- What a call leaves in a buffer of `cbData` bytes. -/
structure Decodes (s : SearchData) (names : List (List UInt8)) (cbData ulLevel flFlags : UInt16)
    (pData : Memory) (r : FindReply) : Prop where
  /-- Nothing is written behind the buffer. -/
  inside : ∀ i, cbData.toNat ≤ i → r.pData i = pData i
  /-- The records of the delivered entries, and nothing else, are read back. -/
  records : r.rc = .NO_ERROR → ∃ records cb, cb ≤ cbData.toNat ∧
    HoldsAt r.pData 0 (r.delivered.flatMap (s.recordBytesAt names ulLevel flFlags)) ∧
    cb = (r.delivered.flatMap (s.recordBytesAt names ulLevel flFlags)).length ∧
    parseRecords ulLevel flFlags r.pData r.cMatch.toNat 0 = some (records, cb) ∧
    records.map some = r.delivered.map (s.recordAt names ulLevel flFlags)
  /-- The record of the delivered entry is read back as one of level 2. -/
  easDidntFit : r.rc = .ERROR_EAS_DIDNT_FIT → ∃ place record cb, cb ≤ cbData.toNat ∧
    r.delivered = [place] ∧ r.cMatch = 1 ∧
    HoldsAt r.pData 0 (s.recordBytesAt names FIL_QUERYEASIZE flFlags place) ∧
    cb = (s.recordBytesAt names FIL_QUERYEASIZE flFlags place).length ∧
    parseRecords FIL_QUERYEASIZE flFlags r.pData r.cMatch.toNat 0 = some ([record], cb) ∧
    s.recordAt names FIL_QUERYEASIZE flFlags place = some record

theorem recordBytesAt_of_ok {s : SearchData} {geas : List (List UInt8) × Bool}
    {ulLevel flFlags : UInt16} {room place : ℕ}
    (h : (s.written geas ulLevel flFlags room place).1 = .NO_ERROR) :
    (∃ pEntry, s.storedEntries[place]? = some pEntry) ∧
      (s.recordBytesAt geas.1 ulLevel flFlags place).length ≤ room := by
  refine ⟨?_, ?_⟩
  · rw [SearchData.written] at h
    split at h
    · cases h
    · next pEntry hentry => exact ⟨pEntry, hentry⟩
  · rw [← written_of_ok h]
    exact length_written_le ..

/-- An entry whose attributes do not fit is delivered as one of level 2. -/
theorem recordBytesAt_of_easDidntFit {s : SearchData} {geas : List (List UInt8) × Bool}
    {ulLevel flFlags : UInt16} {room place : ℕ}
    (h : (s.written geas ulLevel flFlags room place).1 = .ERROR_EAS_DIDNT_FIT) :
    (∃ pEntry, s.storedEntries[place]? = some pEntry) ∧
      s.recordBytesAt geas.1 FIL_QUERYEASIZE flFlags place <+:
        (s.written geas ulLevel flFlags room place).2 := by
  unfold SearchData.written at h ⊢
  rw [SearchData.recordBytesAt]
  cases hentry : s.storedEntries[place]? with
  | none =>
    rw [hentry] at h
    cases h
  | some pEntry =>
    rw [hentry] at h
    exact ⟨⟨pEntry, rfl⟩, (recordWritten_of_easDidntFit h).2⟩

/-- The records of a batch are complete, and they are in the buffer. -/
theorem decodes_stored {pgeas : Option Memory} {cbData ulLevel flFlags : UInt16}
    {cLeft : ℕ} {s : SearchData} {pData : Memory} {r : StoredEntries}
    (h : BatchWrote (s.written (askedNames pgeas) ulLevel flFlags) cLeft s
      ⟨pData, 0, cbData.toNat⟩ r) :
    ∃ records cb, cb ≤ cbData.toNat ∧
      HoldsAt r.buf.mem 0
        (r.stored.flatMap (s.recordBytesAt (askedNames pgeas).1 ulLevel flFlags)) ∧
      cb = (r.stored.flatMap (s.recordBytesAt (askedNames pgeas).1 ulLevel flFlags)).length ∧
      parseRecords ulLevel flFlags r.buf.mem r.stored.length 0 = some (records, cb) ∧
      records.map some = r.stored.map (s.recordAt (askedNames pgeas).1 ulLevel flFlags) := by
  obtain ⟨-, -, hmem, hstored, hfront, -⟩ := h
  have hlen := length_batchWritten_le (length_written_le s (askedNames pgeas) ulLevel flFlags)
    cbData.toNat cLeft s.remaining
  have hfront := hfront _ fun room place => written_of_ok
  have hholds := hmem ▸ (holdsAt_blit pData 0 _).of_front hfront
  have hentries : ∀ place ∈ r.stored, ∃ pEntry, s.storedEntries[place]? = some pEntry ∧
      (s.recordBytesAt (askedNames pgeas).1 ulLevel flFlags place).length < 2 ^ 32 := by
    intro place hplace
    obtain ⟨room, hroom, hok⟩ := hstored place hplace
    obtain ⟨⟨pEntry, hentry⟩, hrecord⟩ := recordBytesAt_of_ok hok
    have hcbData := cbData.toNat_lt
    exact ⟨pEntry, hentry, by dsimp only at hroom; omega⟩
  obtain ⟨records, hrecords, hread⟩ :=
    parseRecords_flatMap (length_askedNames_le pgeas) hentries hholds
  rw [Nat.zero_add] at hread
  exact ⟨records, _, hfront.length_le.trans hlen, hholds, rfl, hread, hrecords⟩

/-- A batch whose first entry is stored without its attributes. -/
theorem decodes_easDidntFit {pgeas : Option Memory} {cbData ulLevel flFlags : UInt16}
    {cLeft : ℕ} (hleft : cLeft ≠ 0) {s : SearchData} {pData : Memory} {r : StoredEntries}
    (hout : BatchOutcome pgeas ulLevel cLeft s r)
    (h : BatchWrote (s.written (askedNames pgeas) ulLevel flFlags) cLeft s
      ⟨pData, 0, cbData.toNat⟩ r) (hrc : r.rc = .ERROR_EAS_DIDNT_FIT) (hnil : r.stored = []) :
    ∃ record cb, cb ≤ cbData.toNat ∧
      HoldsAt r.buf.mem 0 (s.recordBytesAt (askedNames pgeas).1 FIL_QUERYEASIZE flFlags
        r.search.pIsoNext) ∧
      cb = (s.recordBytesAt (askedNames pgeas).1 FIL_QUERYEASIZE flFlags
        r.search.pIsoNext).length ∧
      parseRecords FIL_QUERYEASIZE flFlags r.buf.mem 1 0 = some ([record], cb) ∧
      s.recordAt (askedNames pgeas).1 FIL_QUERYEASIZE flFlags r.search.pIsoNext = some record := by
  obtain ⟨-, hcode, hmem, -, -, hfirst⟩ := h
  have hrem : s.remaining = r.search.pIsoNext :: (advanceSearch r.search).remaining := by
    have hsplit := hout.split
    rw [hnil, List.nil_append] at hsplit
    rcases hout.stop (hrc ▸ nofun) with ⟨hmore, -⟩ | ⟨-, hcursor⟩
    · exact absurd (hrc.symm.trans hmore) nofun
    · exact hsplit.trans hcursor
  have hbatch := hfirst hnil hleft _ _ hrem
  rw [hbatch] at hcode hmem
  have hlen := length_written_le s (askedNames pgeas) ulLevel flFlags cbData.toNat r.search.pIsoNext
  obtain ⟨⟨pEntry, hentry⟩, hprefix⟩ := recordBytesAt_of_easDidntFit (hcode.symm.trans hrc)
  have hholds := hmem ▸ (holdsAt_blit pData 0 _).of_front hprefix
  have hcb := hprefix.length_le.trans hlen
  have hcbData := cbData.toNat_lt
  obtain ⟨record, hrecord, hread⟩ := parseRecord_recordBytesAt (length_askedNames_le pgeas) hentry
    (by omega) hholds
  refine ⟨record, _, hcb, hholds, rfl, ?_, hrecord⟩
  rw [parseRecords, hread, Option.bind_some, Nat.zero_add]
  rfl

theorem decodes_finishBatch {pgeas : Option Memory} {cbData ulLevel cMatch flFlags : UInt16}
    (hmatch : cMatch ≠ 0) {s : SearchData} {pData : Memory} {r : StoredEntries}
    (hout : BatchOutcome pgeas ulLevel cMatch.toNat s r)
    (h : BatchWrote (s.written (askedNames pgeas) ulLevel flFlags) cMatch.toNat s
      ⟨pData, 0, cbData.toNat⟩ r) :
    Decodes s (askedNames pgeas).1 cbData ulLevel flFlags pData (finishBatch r) := by
  have hinside : ∀ i, cbData.toNat ≤ i → r.buf.mem i = pData i := by
    have hlen := length_batchWritten_le (length_written_le s (askedNames pgeas) ulLevel flFlags)
      cbData.toNat cMatch.toNat s.remaining
    intro i hi
    rw [h.mem]
    exact blit_of_not pData (Or.inr (by dsimp only; omega))
  have hcount := hout.length_le
  have hcMatch := cMatch.toNat_lt
  unfold finishBatch
  split
  · next hok =>
    refine ⟨hinside, fun _ => ?_, nofun⟩
    have hlength : (UInt16.ofNat r.stored.length).toNat = r.stored.length := by
      rw [UInt16.toNat_ofNat', Nat.mod_eq_of_lt (by omega)]
    dsimp only
    rw [hlength]
    exact decodes_stored h
  · next hbad =>
    obtain ⟨hrc, hempty⟩ := not_or.mp hbad
    split
    · next heas =>
      refine ⟨hinside, fun h => absurd h hrc, fun _ => ?_⟩
      -- this code is only returned for the first entry
      have hnil : r.stored = [] := by
        by_contra hne
        exact hempty ⟨hne, by rw [heas]; rfl⟩
      have hleft : cMatch.toNat ≠ 0 := fun h0 => hmatch (UInt16.toNat_inj.mp h0)
      obtain ⟨record, cb, hcb, hholds, hlen, hread, hrecord⟩ :=
        decodes_easDidntFit hleft hout h heas hnil
      exact ⟨_, record, cb, hcb, rfl, rfl, hholds, hlen, hread, hrecord⟩
    · next heas => exact ⟨hinside, fun h => absurd h hrc, fun h => absurd h heas⟩

/-- What a call on a search leaves in its buffer. -/
theorem storeMatches_decodes (stack : Memory) (s : SearchData) (pData : Memory) {p : Request}
    (hmatch : p.cMatch ≠ 0) :
    Decodes s (askedNames (copyGeas stack pData p.usLevel)).1 p.cbData p.usLevel p.fsFlags pData
      (storeMatches stack s pData p) := by
  have hroom : p.cbData.toNat < 2 ^ 32 := by
    have := p.cbData.toNat_lt
    omega
  rw [storeMatches, storeDirContents, if_neg hmatch]
  exact decodes_finishBatch hmatch (storeEntries_outcome ..) (storeEntries_wrote _ _ _ _ _ _ hroom)

/-- Search results decode back to the entries: a call writes only inside its buffer, what it
reports as delivered is read back record by record, and an entry whose attributes do not fit is
read back as one record of level 2. -/
theorem storeDirContents_decodes (s : SearchData) (pgeas : Option Memory) (pData : Memory)
    (cbData ulLevel cMatch flFlags : UInt16) :
    Decodes s (askedNames pgeas).1 cbData ulLevel flFlags pData
      (storeDirContents s pgeas pData cbData ulLevel cMatch flFlags) := by
  unfold storeDirContents
  split
  · exact ⟨fun _ _ => rfl, nofun, nofun⟩
  · next hmatch =>
    have hroom : cbData.toNat < 2 ^ 32 := by
      have := cbData.toNat_lt
      omega
    exact decodes_finishBatch hmatch (storeEntries_outcome ..)
      (storeEntries_wrote _ _ _ _ _ _ hroom)

end Isofs
