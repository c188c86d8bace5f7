import Isofs.Find.Positions
import Isofs.Find.Split
import Isofs.Find.Wildcards

/-!
# Finding a file by its name

`fsFindFirst` splits the path of a search and matches what is behind its last separator as a
pattern; `isoQueryIsoEntryFromPath` compares components. For a name without wildcards both find the
same entry, unless an entry of the directory ends in a dot.
-/

namespace Isofs

open Components

/-- A file name: no separator, no wildcard, and no dot at its end. -/
structure ExactName (n : List UInt8) : Prop where
  ne_nil : n ≠ []
  no_separator : ∀ c ∈ n, isPathSeparator c = false
  no_wildcard : ∀ c ∈ n, c ≠ 0x2a ∧ c ≠ 0x3f
  no_dot : n.getLast? ≠ some 0x2e

/-- The names of a directory that a search takes for other ones: they end in a dot. -/
def DotAtEnd (chrName : List UInt8) : Prop :=
  chrName.getLast? = some 0x2e ∧ chrName ≠ [0x2e] ∧ chrName ≠ [0x2e, 0x2e]

/-! ### Names as patterns -/

theorem tolower_eq_dot_iff (c : UInt8) : tolower c = 0x2e ↔ c = 0x2e := by
  induction c using forall_byte
  decide +revert +kernel

/-- A pattern without wildcards and without a dot at its end matches itself, in any case and with
any dots behind it. -/
theorem nameMatches_exact_iff {exp : List UInt8} (hwild : ∀ c ∈ exp, c ≠ 0x2a ∧ c ≠ 0x3f)
    (hlast : exp.getLast? ≠ some 0x2e) (pszName : List UInt8) :
    nameMatches exp pszName = true ↔
      ∃ front dots, pszName = front ++ dots ∧ (∀ c ∈ dots, c = 0x2e) ∧
        front.map tolower = exp.map tolower := by
  induction exp generalizing pszName with
  | nil =>
    rw [nameMatches, List.isEmpty_iff, List.dropWhile_eq_nil_iff]
    simp only [decide_eq_true_eq]
    constructor
    · exact fun h => ⟨[], pszName, rfl, h, rfl⟩
    · rintro ⟨front, dots, rfl, hdots, hfront⟩
      obtain rfl := List.map_eq_nil_iff.mp hfront
      exact hdots
  | cons e exp ih =>
    rw [List.forall_mem_cons] at hwild
    have hrest : exp.getLast? ≠ some 0x2e := by
      intro h
      rw [List.getLast?_cons, h] at hlast
      exact hlast rfl
    -- a name is taken apart behind its first character
    have hcons (c : UInt8) (name : List UInt8) :
        (tolower e = tolower c ∧ nameMatches exp name = true) ↔
          ∃ front dots, c :: name = front ++ dots ∧ (∀ c ∈ dots, c = 0x2e) ∧
            front.map tolower = (e :: exp).map tolower := by
      rw [ih hwild.2 hrest]
      constructor
      · rintro ⟨hc, front, dots, rfl, hdots, hfront⟩
        exact ⟨c :: front, dots, rfl, hdots, by rw [List.map_cons, List.map_cons, hc, hfront]⟩
      · rintro ⟨front, dots, hname, hdots, hfront⟩
        cases front with
        | nil => cases hfront
        | cons d front =>
          rw [List.cons_append, List.cons.injEq] at hname
          rw [List.map_cons, List.map_cons, List.cons.injEq] at hfront
          obtain ⟨rfl, rfl⟩ := hname
          exact ⟨hfront.1.symm, front, dots, rfl, hdots, hfront.2⟩
    -- nothing is left of the name
    have hnil : ¬ ∃ front dots, [] = front ++ dots ∧ (∀ c ∈ dots, c = 0x2e) ∧
        front.map tolower = (e :: exp).map tolower := by
      rintro ⟨front, dots, hname, -, hfront⟩
      obtain ⟨rfl, -⟩ := List.append_eq_nil_iff.mp hname.symm
      cases hfront
    by_cases hdot : e = 0x2e
    · subst hdot
      cases pszName with
      | nil =>
        refine iff_of_false (fun h => ?_) hnil
        obtain ⟨front, dots, hname, -, hfront⟩ := (ih hwild.2 hrest []).mp h
        obtain ⟨rfl, -⟩ := List.append_eq_nil_iff.mp hname.symm
        obtain rfl := List.map_eq_nil_iff.mp hfront.symm
        exact hlast rfl
      | cons c name =>
        have hc : tolower 0x2e = tolower c ↔ c = 0x2e := eq_comm.trans (tolower_eq_dot_iff c)
        rw [← hcons, hc]
        show (decide (c = 0x2e) && nameMatches exp name) = true ↔ _
        rw [Bool.and_eq_true, decide_eq_true_eq]
    · rw [nameMatches_literal ⟨hwild.1.1, hwild.1.2, hdot⟩]
      cases pszName with
      | nil => exact iff_of_false Bool.false_ne_true hnil
      | cons c name =>
        rw [← hcons]
        dsimp only
        rw [Bool.and_eq_true, decide_eq_true_eq]

theorem matchesComponent_iff {component : List UInt8} {pEntry : IsoDirEntry} :
    matchesComponent component pEntry = true ↔
      pEntry.chrName.map tolower = component.map tolower := by
  rw [matchesComponent, equalNoCase, Bool.and_eq_true, decide_eq_true_eq, decide_eq_true_eq]
  refine and_iff_right_of_imp fun h => ?_
  simpa using congrArg List.length h

/-- An entry whose name does not end in a dot matches a name as a pattern when it is that name. -/
theorem nameMatches_eq_matchesComponent {n : List UInt8} (hn : ExactName n) {pEntry : IsoDirEntry}
    (hdot : ¬ DotAtEnd pEntry.chrName) :
    nameMatches n pEntry.chrName = matchesComponent n pEntry := by
  rw [Bool.eq_iff_iff, nameMatches_exact_iff hn.no_wildcard hn.no_dot, matchesComponent_iff]
  constructor
  · rintro ⟨front, dots, hname, hdots, hfront⟩
    by_cases hnone : dots = []
    · rw [hname, hnone, List.append_nil, hfront]
    -- a name that ends in a dot is one of the two special ones, and has no other character
    exfalso
    have hlast : pEntry.chrName.getLast? = some 0x2e := by
      rw [hname, List.getLast?_append_of_ne_nil _ hnone, List.getLast?_eq_some_getLast hnone,
        hdots _ (List.getLast_mem hnone)]
    have hall : ∀ c ∈ front, c = 0x2e := by
      intro c hc
      have hmem : c ∈ pEntry.chrName := hname ▸ List.mem_append_left dots hc
      by_contra hne
      refine hdot ⟨hlast, fun h => hne ?_, fun h => hne ?_⟩ <;> rw [h] at hmem <;> simpa using hmem
    have hend := congrArg List.getLast? hfront
    rw [List.getLast?_map, List.getLast?_map, List.getLast?_eq_some_getLast hn.ne_nil] at hend
    obtain ⟨c, hc, hfold⟩ := Option.map_eq_some_iff.mp hend
    rw [hall c (List.mem_of_getLast? hc)] at hfold
    have he := (tolower_eq_dot_iff _).mp hfold.symm
    exact hn.no_dot (by rw [List.getLast?_eq_some_getLast hn.ne_nil, he])
  · exact fun h => ⟨pEntry.chrName, [], (List.append_nil _).symm, nofun, h⟩

/-! ### The search for one name -/

/-- The attributes of a search leave no entry out. -/
structure AdmitsAll (flAttr : ℕ) : Prop where
  may : ∀ attr ∈ [FILE_HIDDEN, FILE_SYSTEM, FILE_DIRECTORY, FILE_NON83], flAttr &&& attr ≠ 0
  must : ∀ attr ∈ [FILE_READONLY, FILE_HIDDEN, FILE_SYSTEM, FILE_DIRECTORY, FILE_ARCHIVED],
    flAttr &&& (attr <<< 8) = 0

/-- A search that leaves no entry out goes by the name only. -/
theorem wants_eq_nameMatches {s : SearchData} (h : AdmitsAll s.flAttr) (pEntry : IsoDirEntry) :
    s.wants pEntry = nameMatches s.szName pEntry.chrName := by
  have hmay := h.may
  have hmust := h.must
  simp only [List.forall_mem_cons] at hmay hmust
  obtain ⟨hhidden, hsystem, hdir, hnon83⟩ := hmay
  obtain ⟨hmreadonly, hmhidden, hmsystem, hmdir, hmarchived⟩ := hmust
  rw [SearchData.wants, entryMatches, fileMatches2]
  simp [hhidden, hsystem, hdir, hnon83, hmreadonly, hmhidden, hmsystem, hmdir, hmarchived]

/-- The path `P` resolves to a directory with these entries. -/
def Lists (vol : VolData) (stack : Memory) (pos : ℕ) (P : List UInt8) (entries : List IsoDirEntry) :
    Prop :=
  ∃ w dir pos', isoQueryIsoEntryFromPath vol stack pos P = some w ∧ w.result = some dir ∧
    dir.isDir ∧ getDirEntries vol stack w.pos dir.iExtent dir.iSize = some (entries, pos')

section Paths

variable {vol : VolData} {stack : Memory} {pos : ℕ} {P n : List UInt8} {sep : UInt8}

theorem isoQueryIsoEntryFromPath_congr {path path' : List UInt8}
    (h : components isPathSeparator path = components isPathSeparator path') :
    isoQueryIsoEntryFromPath vol stack pos path = isoQueryIsoEntryFromPath vol stack pos path' := by
  rw [isoQueryIsoEntryFromPath, isoQueryIsoEntryFromPath, entryLoop_eq_entryWalk,
    entryLoop_eq_entryWalk, h]

/-- `splitPath` finds a name behind the last separator. -/
theorem snd_splitPath (hsep : isPathSeparator sep = true) (hn : ExactName n) :
    (splitPath (P ++ sep :: n)).2 = n := by
  have hfree : ∀ c ∈ n.reverse, (!isPathSeparator c) = true := by
    intro c hc
    rw [hn.no_separator c (List.mem_reverse.mp hc)]
    rfl
  show (P ++ sep :: n).rtakeWhile (!isPathSeparator ·) = n
  rw [List.rtakeWhile, List.reverse_append, List.reverse_cons, List.append_assoc,
    List.takeWhile_append_of_pos hfree, List.singleton_append, List.takeWhile_cons, hsep]
  simp

/-- What `splitPath` finds before the name is the path of the directory. -/
theorem components_fst_splitPath (hsep : isPathSeparator sep = true) (hn : ExactName n)
    (hsplit : Splits (P ++ sep :: n) (splitPath (P ++ sep :: n)).1 (splitPath (P ++ sep :: n)).2) :
    components isPathSeparator (splitPath (P ++ sep :: n)).1 = components isPathSeparator P := by
  have heq := hsplit.components_eq
  rw [snd_splitPath hsep hn, if_neg hn.ne_nil, components_append_sep _ hsep,
    components_of_free _ hn.no_separator hn.ne_nil] at heq
  exact (List.append_inj_left' heq rfl).symm

variable {entries : List IsoDirEntry}

/-- The path of a search starts with a separator when that of its directory does. -/
theorem splits_of_rooted (hsep : isPathSeparator sep = true)
    (hroot : ∀ c ∈ P.head?, isPathSeparator c = true) :
    Splits (P ++ sep :: n) (splitPath (P ++ sep :: n)).1 (splitPath (P ++ sep :: n)).2 := by
  cases P with
  | nil => exact splitPath_splits hsep
  | cons s rest => exact splitPath_splits (hroot s rfl)

/-- `fsFindFirst` lists the directory. -/
theorem searchedDir_of_lists (hsize : vol.iRootSize = rootRecordSize vol)
    (hsep : isPathSeparator sep = true) (hroot : ∀ c ∈ P.head?, isPathSeparator c = true)
    (hn : ExactName n) (h : Lists vol stack pos P entries) :
    ∃ pos', searchedDir vol stack pos (splitPath (P ++ sep :: n)).1 = some (.ok entries, pos') := by
  obtain ⟨w, dir, pos', hw, hdir, hisDir, hlist⟩ := h
  have hcomponents := components_fst_splitPath hsep hn (splits_of_rooted hsep hroot)
  rw [← isoQueryIsoEntryFromPath_congr hcomponents] at hw
  rw [searchedDir]
  by_cases hfront : (splitPath (P ++ sep :: n)).1 = []
  · -- the entry made up for the root has the contents of the root
    rw [hfront, isoQueryIsoEntryFromPath, entryLoop_eq_entryWalk, components_nil, entryWalk] at hw
    cases hw
    cases hdir
    have hcontents : getDirEntries vol stack pos vol.iRootExtent (rootRecordSize vol) =
        some (entries, pos') := hsize ▸ hlist
    rw [if_neg (not_not.mpr hfront), hcontents]
    exact ⟨pos', rfl⟩
  · obtain ⟨result, pos₁, listed⟩ := w
    obtain rfl : result = some dir := hdir
    rw [if_pos hfront, hw]
    dsimp only at hlist ⊢
    rw [if_pos hisDir, hlist]
    exact ⟨pos', rfl⟩

/-- `isoQueryIsoEntryFromPath` looks the name up there. -/
theorem isoQueryIsoEntryFromPath_of_lists (hsize : vol.iRootSize = rootRecordSize vol)
    (hsep : isPathSeparator sep = true) (hroot : ∀ c ∈ P.head?, isPathSeparator c = true)
    (hn : ExactName n) (h : Lists vol stack pos P entries) :
    ∃ w, isoQueryIsoEntryFromPath vol stack pos (P ++ sep :: n) = some w ∧
      w.result = entries.find? (matchesComponent n) := by
  obtain ⟨w, dir, pos', hw, hdir, -, hlist⟩ := h
  have hsplit := @splits_of_rooted P n sep hsep hroot
  have hcomponents := components_fst_splitPath hsep hn hsplit
  have hlast : (splitPath (P ++ sep :: n)).2 ≠ [] := by
    rw [snd_splitPath hsep hn]
    exact hn.ne_nil
  have hlookUp := @lookUpLast_eq vol stack hsize pos _ _ _ hsplit hlast
  rw [lookUpLast, isoQueryIsoEntryFromPath_congr hcomponents, hw, snd_splitPath hsep hn,
    Option.bind_some, lookUpIn, hdir] at hlookUp
  dsimp only at hlookUp
  rw [hlist] at hlookUp
  obtain ⟨w', hw', hfound⟩ := Option.map_eq_some_iff.mp hlookUp.symm
  exact ⟨w', hw', congrArg Prod.fst hfound⟩

end Paths

/-! ### One record -/

/-- With room for the longest name a record of level 1 is complete. -/
theorem written_standard {s : SearchData} {place : ℕ} {pEntry : IsoDirEntry}
    (h : s.storedEntries[place]? = some pEntry) (geas : List (List UInt8) × Bool)
    {flFlags : UInt16} {room : ℕ} (hroom : cbHead flFlags + (255 + 2) ≤ room) :
    (s.written geas FIL_STANDARD flFlags room place).1 = .NO_ERROR := by
  have hname : pEntry.chrName.length ≤ 255 := Nat.le_of_lt_succ pEntry.chrName_length_lt
  have hstores := (stores_recordWritten hname geas FIL_STANDARD flFlags (s.firstPosition + place)
    pEntry room).mpr
  rw [RecordFits, if_neg (by decide), if_neg (by decide)] at hstores
  rw [SearchData.written, h]
  refine (hstores (by omega)).resolve_right fun heas => ?_
  exact absurd (recordWritten_of_easDidntFit heas).1 (by decide)

/-- The first of the places where a property holds. -/
theorem head?_findIdxs {α : Type*} (p : α → Bool) (xs : List α) (start : ℕ) :
    (xs.findIdxs p start).head? = (xs.findIdx? p).map (· + start) := by
  induction xs generalizing start with
  | nil => rfl
  | cons x xs ih =>
    rw [List.findIdxs_cons, List.findIdx?_cons]
    split
    · exact congrArg some (Nat.zero_add start).symm
    · rw [ih, Option.map_map]
      refine congrArg (Option.map · _) (funext fun i => ?_)
      show i + (start + 1) = i + 1 + start
      omega

theorem findIdx?_congr {α : Type*} {p q : α → Bool} {xs : List α} (h : ∀ x ∈ xs, p x = q x) :
    xs.findIdx? p = xs.findIdx? q := by
  induction xs with
  | nil => rfl
  | cons x xs ih =>
    rw [List.forall_mem_cons] at h
    rw [List.findIdx?_cons, List.findIdx?_cons, h.1, ih h.2]

/-- What a call for one entry at level 1 delivers. -/
theorem storeMatches_one {stack : Memory} {s : SearchData} {pData : Memory} {p : Request}
    (hmatch : p.cMatch = 1) (hlevel : p.usLevel = FIL_STANDARD)
    (hroom : cbHead p.fsFlags + (255 + 2) ≤ p.cbData.toNat) {place : ℕ} {rest : List ℕ}
    {pEntry : IsoDirEntry} (hrem : s.remaining = place :: rest)
    (hentry : s.storedEntries[place]? = some pEntry) :
    let r := storeMatches stack s pData p
    r.rc = .NO_ERROR ∧ r.cMatch = 1 ∧ r.delivered = [place] ∧
      ∃ record cb, parseRecord FIL_STANDARD p.fsFlags r.pData 0 = some (record, cb) ∧
        record.name = pEntry.chrName ∧ record.cbFile = pEntry.recordSize := by
  intro r
  have hne : p.cMatch ≠ 0 := by
    rw [hmatch]
    decide
  have hdel : Delivers s r := storeMatches_delivers stack s pData p
  have hwritten := written_standard hentry (askedNames (copyGeas stack pData p.usLevel)) hroom
  obtain ⟨hrc, hlength⟩ := @storeMatches_full stack s pData p hne (by
    rw [hmatch, hrem, hlevel]
    show (batchWritten _ _ (0 + 1) _).1 = _
    rw [batchWritten, if_neg (not_not.mpr (hlevel ▸ hwritten)), batchWritten])
  have hdelivered : r.delivered = [place] := by
    have hsplit := hrem.symm.trans hdel.split
    rw [hmatch] at hlength
    obtain ⟨place', hsingle⟩ := List.length_eq_one_iff.mp hlength
    have hr : r.delivered = [place'] := hsingle
    rw [hr] at hsplit ⊢
    rw [(List.cons.inj hsplit).1]
  have hcMatch : r.cMatch = 1 := by
    have hcount := hdel.count (Or.inl hrc)
    rw [hdelivered] at hcount
    exact UInt16.toNat_inj.mp hcount.symm
  refine ⟨hrc, hcMatch, hdelivered, ?_⟩
  -- the record of the entry is read back
  obtain ⟨records, cb, -, -, -, hread, hrecords⟩ :=
    (storeMatches_decodes stack s pData hne).records hrc
  have hread : parseRecords p.usLevel p.fsFlags r.pData r.cMatch.toNat 0 = some (records, cb) :=
    hread
  have hrecords : records.map some = r.delivered.map _ := hrecords
  rw [hdelivered, List.map_singleton] at hrecords
  obtain ⟨record, rfl, hrecord⟩ := List.map_eq_singleton_iff.mp hrecords
  rw [hlevel, hcMatch] at hread
  obtain ⟨⟨record', cb'⟩, hfirst, hrest⟩ := Option.bind_eq_some_iff.mp hread
  obtain ⟨⟨rest', cb''⟩, hnil, hcons⟩ := Option.map_eq_some_iff.mp hrest
  cases hnil
  cases hcons
  rw [SearchData.recordAt, hentry] at hrecord
  cases hrecord
  exact ⟨_, _, hfirst, rfl, rfl⟩

/-! ### Agreement -/

/-- A request for the first entry of the name `n` in the directory `P`, whatever its attributes
are. A mount takes the size of the root from its directory record. -/
structure ExactSearch (env : FindEnv) (node : VolNode) (p : Request) (P n : List UInt8)
    (sep : UInt8) : Prop where
  malloc : env.malloc = true
  mounted : node.vol.iRootSize = rootRecordSize node.vol.toVolData
  rooted : ∀ c ∈ P.head?, isPathSeparator c = true
  separator : isPathSeparator sep = true
  name : ExactName n
  szName : ∃ drive, p.szName = drive :: 0x3a :: (P ++ sep :: n)
  fits : p.szName.length < CCHMAXPATH
  usLevel : p.usLevel = FIL_STANDARD
  fsAttr : AdmitsAll p.fsAttr.toNat
  cMatch : p.cMatch = 1
  cbData : cbHead p.fsFlags + (255 + 2) ≤ p.cbData.toNat

/-- The search delivers the entry that the lookup finds, the first of the directory with the name,
and the caller reads its name and its size. -/
structure FindsSame (entries : List IsoDirEntry) (n : List UInt8) (p : Request)
    (r : FindFirstReply) (found : Option IsoDirEntry) : Prop where
  delivers : r.rc = .NO_ERROR ↔ ∃ pEntry, found = some pEntry
  nothing : found = none → r.delivered = []
  same : ∀ pEntry, found = some pEntry → r.cMatch = 1 ∧
    (∃ place, r.delivered = [place] ∧ entries[place]? = some pEntry ∧
      entries.findIdx? (matchesComponent n) = some place) ∧
    ∃ record cb, parseRecord FIL_STANDARD p.fsFlags r.pData 0 = some (record, cb) ∧
      record.name = pEntry.chrName ∧ record.cbFile = pEntry.recordSize

section Agreement

variable {env : FindEnv} {node : VolNode} {p : Request} {P n : List UInt8} {sep : UInt8}
  {entries : List IsoDirEntry}

theorem ExactSearch.drop_szName (h : ExactSearch env node p P n sep) :
    p.szName.drop 2 = P ++ sep :: n := by
  obtain ⟨drive, hname⟩ := h.szName
  rw [hname]
  rfl

/-- The request passes the checks. -/
theorem ExactSearch.check (h : ExactSearch env node p P n sep) :
    checkFindFirst env p = .NO_ERROR := by
  obtain ⟨drive, hname⟩ := h.szName
  have hpath : verifyPathName p.szName = false := by
    rw [hname]
    cases hP : P with
    | nil => exact (congrArg not h.separator : _)
    | cons c cs => exact (congrArg not (h.rooted c (by rw [hP]; rfl)) : _)
  have hlength : verifyString p.szName CCHMAXPATH = false := by
    rw [verifyString, decide_eq_false_iff_not]
    exact Nat.not_le.mpr h.fits
  have hlast : (splitPath (p.szName.drop 2)).2 ≠ [] := by
    rw [h.drop_szName, snd_splitPath h.separator h.name]
    exact h.name.ne_nil
  rw [checkFindFirst, hpath, hlength, h.usLevel, h.malloc]
  simp [hlast]

/-- In the search that is set up, the entries wanted are those with the name. -/
theorem ExactSearch.wants (h : ExactSearch env node p P n sep)
    (hdots : ∀ pEntry ∈ entries, ¬ DotAtEnd pEntry.chrName) {pEntry : IsoDirEntry}
    (hmem : pEntry ∈ entries) :
    (newSearch env p entries).wants pEntry = matchesComponent n pEntry := by
  have hname : (newSearch env p entries).szName = n := by
    rw [newSearch, h.drop_szName]
    exact snd_splitPath h.separator h.name
  rw [wants_eq_nameMatches h.fsAttr, hname]
  exact nameMatches_eq_matchesComponent h.name (hdots pEntry hmem)

/-- What the search delivers from the entries of the directory. -/
theorem ExactSearch.findFirstIn (h : ExactSearch env node p P n sep)
    (hdots : ∀ pEntry ∈ entries, ¬ DotAtEnd pEntry.chrName) (pData : Memory) (pos : ℕ) :
    FindsSame entries n p (findFirstIn env node pData p entries pos)
      (entries.find? (matchesComponent n)) := by
  rw [Isofs.findFirstIn]
  by_cases hempty : entries = []
  · rw [if_pos hempty, hempty]
    refine ⟨iff_of_false (fun hrc => ?_) (not_exists.mpr fun pEntry hentry => ?_), fun _ => rfl,
      fun pEntry hentry => ?_⟩
    · cases hrc
    · cases hentry
    · cases hentry
  rw [if_neg hempty]
  have hne : p.cMatch ≠ 0 := by
    rw [h.cMatch]
    decide
  -- the search wants the entries that the walk along a path takes for the component
  have hfindIdx : entries.findIdx? (newSearch env p entries).wants =
      entries.findIdx? (matchesComponent n) := findIdx?_congr fun _ hmem => h.wants hdots hmem
  have hhead : (newSearch env p entries).remaining.head? =
      entries.findIdx? (matchesComponent n) := by
    rw [remaining_newSearch, head?_findIdxs, hfindIdx]
    exact Option.map_id'
  cases hplace : entries.findIdx? (matchesComponent n) with
  | none =>
    have hnone : entries.find? (matchesComponent n) = none := by
      rw [List.find?_eq_none]
      intro pEntry hmem
      rw [List.findIdx?_eq_none_iff.mp hplace pEntry hmem]
      decide
    have hrem := List.head?_eq_none_iff.mp (hhead.trans hplace)
    have hrc := @storeMatches_exhausted env.stack _ pData p hne hrem
    have hdel := storeMatches_delivers env.stack (newSearch env p entries) pData p
    have hdelivered := hdel.none (by rw [hrc]; decide) (by rw [hrc]; decide)
    dsimp only
    rw [hnone, hrc, if_pos (by decide)]
    refine ⟨iff_of_false (fun hrc => ?_) (not_exists.mpr fun pEntry hentry => ?_),
      fun _ => hdelivered, fun pEntry hentry => ?_⟩
    · cases hrc
    · cases hentry
    · cases hentry
  | some place =>
    obtain ⟨hlt, hwanted, hbefore⟩ := List.findIdx?_eq_some_iff_getElem.mp hplace
    have hfound : entries.find? (matchesComponent n) = some entries[place] :=
      List.find?_eq_some_iff_getElem.mpr ⟨hwanted, place, hlt, rfl, fun j hj => by
        simpa using hbefore j hj⟩
    obtain ⟨rest, hrem⟩ := List.head?_eq_some_iff.mp (hhead.trans hplace)
    have hentry : entries[place]? = some entries[place] := List.getElem?_eq_getElem hlt
    have hstored : (newSearch env p entries).storedEntries[place]? = some entries[place] := by
      -- a search that may find long names does not upper-case what it stores
      have hnon83 : (newSearch env p entries).flAttr &&& FILE_NON83 ≠ 0 :=
        h.fsAttr.may FILE_NON83 (by simp)
      rw [getElem?_storedEntries hentry, SearchData.storedEntry, if_neg hnon83]
    obtain ⟨hrc, hcMatch, hdelivered, hrecord⟩ :=
      @storeMatches_one env.stack _ pData p h.cMatch h.usLevel h.cbData _ _ _ hrem hstored
    dsimp only
    rw [hfound, hrc, if_neg (by decide)]
    refine ⟨iff_of_true rfl ⟨_, rfl⟩, fun hnone => ?_, ?_⟩
    · cases hnone
    rintro pEntry ⟨⟩
    exact ⟨hcMatch, ⟨place, hdelivered, hentry, hplace⟩, hrecord⟩

/-- Finding a file by its name and looking it up agree: when no entry of the directory but the two
special ones ends in a dot, the search for the path delivers the entry that the path resolves to.
The lookup may meet another file position and another stack, as long as it meets the same
directory. -/
theorem exact_name_agrees (h : ExactSearch env node p P n sep) {pos : ℕ}
    (hlist : Lists node.vol.toVolData env.sectorStack pos P entries)
    (hdots : ∀ pEntry ∈ entries, ¬ DotAtEnd pEntry.chrName) (pData : Memory) {stack' : Memory}
    {pos' : ℕ} (hlist' : Lists node.vol.toVolData stack' pos' P entries) :
    ∃ r w, fsFindFirst env node pos pData p = some r ∧
      isoQueryIsoEntryFromPath node.vol.toVolData stack' pos' (P ++ sep :: n) = some w ∧
      FindsSame entries n p r w.result := by
  obtain ⟨pos₁, hdir⟩ := searchedDir_of_lists h.mounted h.separator h.rooted h.name hlist
  obtain ⟨w, hw, hresult⟩ :=
    isoQueryIsoEntryFromPath_of_lists h.mounted h.separator h.rooted h.name hlist'
  refine ⟨findFirstIn env node pData p entries pos₁, w, ?_, hw, ?_⟩
  · rw [fsFindFirst, h.check, if_neg (not_not.mpr rfl), h.drop_szName]
    dsimp only
    rw [hdir]
  · rw [hresult]
    exact h.findFirstIn hdots pData pos₁

end Agreement

/-- A search for the file `A` of an image with the file `A` and the directory `B`. -/
def fileARequest : Request :=
  { (default : Request) with
    szName := [0x45, 0x3a, 0x2f, 0x41], usLevel := FIL_STANDARD, cMatch := 1, cbData := 300
    fsAttr := 0x56 }

/-- The root of that image. -/
theorem lists_loopVolume (pos : ℕ) :
    Lists loopVolume.toVolData Memory.zeros pos [] loopEntries := by
  have hsize : rootRecordSize loopVolume.toVolData = 2048 := by decide
  have hget := getDirEntries_loopVolume pos
  rw [contentsOf, hsize] at hget
  refine ⟨⟨some (rootEntry loopVolume.toVolData), pos, []⟩, _, 2120, ?_, rfl, by decide, hget⟩
  rw [isoQueryIsoEntryFromPath, entryLoop_eq_entryWalk, components_nil]
  rfl

/-- The search for `A` and the lookup of `A` find the same entry. -/
theorem exact_name_agrees_loopVolume :
    ∃ r w, fsFindFirst (loopRun 0).env (loopRun 0).node 0 Memory.zeros fileARequest = some r ∧
      isoQueryIsoEntryFromPath loopVolume.toVolData Memory.zeros 2120 [0x2f, 0x41] = some w ∧
      FindsSame loopEntries [0x41] fileARequest r w.result := by
  have hname : ExactName [0x41] :=
    ⟨by decide, List.forall_mem_singleton.2 rfl, List.forall_mem_singleton.2 (by decide),
      by decide⟩
  have hsearch : ExactSearch (loopRun 0).env (loopRun 0).node fileARequest [] [0x41] 0x2f :=
    ⟨rfl, show (2048 : ℤ) = _ by decide, nofun, rfl, hname, ⟨0x45, rfl⟩, by decide, rfl,
      ⟨by decide, by decide⟩, rfl, by decide⟩
  exact exact_name_agrees hsearch (lists_loopVolume 0) (by unfold DotAtEnd; decide) Memory.zeros
    (lists_loopVolume 2120)

end Isofs
