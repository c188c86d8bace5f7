import Isofs.Path.Resolve

/-!
# Agreement of the two path walks

Both walks follow the components of the path only, so they are compared component by
component. They agree on a path and on what its first components name exactly when the
directory tree is well formed along it.
-/

namespace Isofs

open Components

/-- The two walks give the same directory, and neither lists anything but directories. -/
structure WalksAgree (w : Walk (Option IsoDirEntry)) (v : Walk ℤ) : Prop where
  result : ∀ e ≠ 0, v.result = e ↔ ∃ entry, w.result = some entry ∧ entry.isDir ∧ entry.iExtent = e
  listed : ∀ entry ∈ w.listed ++ v.listed, entry.isDir

/-- The two resolvers agree at one path. -/
def ResolversAgree (vol : VolData) (stack : Memory) (pos : ℕ) (pSize : Bool)
    (path : List UInt8) : Prop :=
  ∃ w v, isoQueryIsoEntryFromPath vol stack pos path = some w ∧
    isoQueryDirExtentFromPath vol stack pos vol.iRootExtent path pSize = some v ∧
    WalksAgree w ⟨v.result.1, v.pos, v.listed⟩

/-- The entries on the way along `components` from the directory `found`, or from the root:
those that a component follows are directories, and no directory has extent zero. -/
def SoundWay (vol : VolData) (stack : Memory) : ℕ → Option IsoDirEntry → List (List UInt8) → Prop
  | _, _, [] => True
  | pos, found, component :: rest => ∀ entries pos' e,
    getDirEntries vol stack pos (contentsOf vol found).1 (contentsOf vol found).2 =
      some (entries, pos') →
    entries.find? (matchesComponent component) = some e →
    (e.isDir → e.iExtent ≠ 0) ∧ (rest ≠ [] → e.isDir) ∧ SoundWay vol stack pos' (some e) rest

/-! ### The walks over components -/

/-- `entryLoop` over the components of its path. -/
def entryWalk (vol : VolData) (stack : Memory) :
    ℕ → Option IsoDirEntry → List (List UInt8) → Option (Walk (Option IsoDirEntry))
  | pos, tempEntry, [] => some ⟨some (tempEntry.getD (rootEntry vol)), pos, []⟩
  | pos, tempEntry, component :: rest =>
    match getDirEntries vol stack pos (contentsOf vol tempEntry).1 (contentsOf vol tempEntry).2 with
    | none => none
    | some (entries, pos) =>
      match entries.find? (matchesComponent component) with
      | none => some ⟨none, pos, tempEntry.toList⟩
      | some pEntry => (entryWalk vol stack pos (some pEntry) rest).map (·.after tempEntry)

theorem entryLoop_eq_entryWalk (vol : VolData) (stack : Memory) (pos : ℕ)
    (tempEntry : Option IsoDirEntry) (path : List UInt8) :
    entryLoop vol stack pos tempEntry path =
      entryWalk vol stack pos tempEntry (components isPathSeparator path) := by
  induction path using components.induct isPathSeparator generalizing pos tempEntry with
  | case1 path hnil =>
    rw [components_of_nil _ hnil, entryLoop]
    split
    · rfl
    · next h => rw [hnil] at h; cases h
  | case2 path c cs hcons ih =>
    rw [components_of_cons _ hcons, entryLoop]
    split
    · next h => rw [hcons] at h; cases h
    · next c' cs' h =>
      rw [hcons, List.cons.injEq] at h
      obtain ⟨rfl, rfl⟩ := h
      rw [entryWalk]
      cases hlist : getDirEntries vol stack pos (contentsOf vol tempEntry).1
          (contentsOf vol tempEntry).2 with
      | none => simp only [hlist]
      | some r =>
        simp only [hlist]
        cases r.1.find? (matchesComponent (piece isPathSeparator (c :: cs))) with
        | none => rfl
        | some e => simp only [ih]

/-- `dirExtentLoop` over the components of its path. -/
def dirExtentWalk (vol : VolData) (stack : Memory) (iRootExtent : ℤ) :
    ℕ → Option IsoDirEntry → ℤ → ℤ → List (List UInt8) → Option (Walk (Option (ℤ × ℤ)))
  | pos, _, iExtent, iSize, [] =>
    some ⟨some (if iExtent = 0 then iRootExtent else iExtent, iSize), pos, []⟩
  | pos, found, iExtent, iSize, component :: rest =>
    let (extent, len, source) :=
      if iExtent = 0 then (iRootExtent, rootRecordSize vol, none) else (iExtent, iSize, found)
    match getDirEntries vol stack pos extent len with
    | none => none
    | some (entries, pos) =>
      match entries.find? (matchesComponent component) with
      | none => some ⟨none, pos, source.toList⟩
      | some pEntry =>
        if pEntry.isDir then
          (dirExtentWalk vol stack iRootExtent pos (some pEntry) pEntry.iExtent pEntry.iSize
            rest).map (·.after source)
        else some ⟨none, pos, source.toList⟩

theorem dirExtentLoop_eq_dirExtentWalk (vol : VolData) (stack : Memory) (pos : ℕ)
    (iRootExtent : ℤ) (found : Option IsoDirEntry) (iExtent iSize : ℤ) (path : List UInt8) :
    dirExtentLoop vol stack pos iRootExtent found iExtent iSize path =
      dirExtentWalk vol stack iRootExtent pos found iExtent iSize
        (components isPathSeparator path) := by
  induction path using components.induct isPathSeparator generalizing pos found iExtent iSize with
  | case1 path hnil =>
    rw [components_of_nil _ hnil, dirExtentLoop]
    split
    · rfl
    · next h => rw [hnil] at h; cases h
  | case2 path c cs hcons ih =>
    rw [components_of_cons _ hcons, dirExtentLoop]
    split
    · next h => rw [hcons] at h; cases h
    · next c' cs' h =>
      rw [hcons, List.cons.injEq] at h
      obtain ⟨rfl, rfl⟩ := h
      rw [dirExtentWalk]
      generalize (if iExtent = 0 then (iRootExtent, rootRecordSize vol, none)
        else (iExtent, iSize, found)) = turn
      obtain ⟨extent, len, source⟩ := turn
      cases hlist : getDirEntries vol stack pos extent len with
      | none => simp only [hlist]
      | some r =>
        simp only [hlist]
        cases r.1.find? (matchesComponent (piece isPathSeparator (c :: cs))) with
        | none => rfl
        | some e => simp only [ih]

/-! ### The walks side by side -/

section SideBySide

variable {vol : VolData} {stack : Memory} {pos : ℕ}

/-- The walks stand at the same directory `found`, or at the root. `iSize` matters only
behind the root. -/
structure AtSameDir (found : Option IsoDirEntry) (iExtent iSize : ℤ) : Prop where
  atRoot : found = none → iExtent = 0
  atDir : ∀ e, found = some e → e.isDir ∧ e.iExtent ≠ 0 ∧ iExtent = e.iExtent ∧ iSize = e.iSize

/-- The walks from one state along `components` return and agree. -/
def AgreeAlong (vol : VolData) (stack : Memory) (pos : ℕ) (found : Option IsoDirEntry)
    (iExtent iSize : ℤ) (components : List (List UInt8)) : Prop :=
  ∃ w v, entryWalk vol stack pos found components = some w ∧
    dirExtentWalk vol stack vol.iRootExtent pos found iExtent iSize components = some v ∧
    WalksAgree w ⟨(dirExtentResult false v.result).1, v.pos, v.listed⟩

theorem atSameDir_root (iSize : ℤ) : AtSameDir none 0 iSize :=
  ⟨fun _ => rfl, nofun⟩

theorem atSameDir_some {e : IsoDirEntry} (hdir : e.isDir) (hne : e.iExtent ≠ 0) :
    AtSameDir (some e) e.iExtent e.iSize := by
  refine ⟨nofun, fun d hd => ?_⟩
  cases hd
  exact ⟨hdir, hne, rfl, rfl⟩

/-- From the same directory both walks list the same extent. -/
theorem AtSameDir.source {found : Option IsoDirEntry} {iExtent iSize : ℤ}
    (h : AtSameDir found iExtent iSize) :
    (if iExtent = 0 then (vol.iRootExtent, rootRecordSize vol, none) else (iExtent, iSize, found)) =
      ((contentsOf vol found).1, (contentsOf vol found).2, found) := by
  cases found with
  | none => rw [if_pos (h.atRoot rfl)]; rfl
  | some e =>
    obtain ⟨_, hne, rfl, rfl⟩ := h.atDir e rfl
    rw [if_neg hne]
    rfl

/-- The directory that the walks stand at is one. -/
theorem AtSameDir.isDir_of_mem {found : Option IsoDirEntry} {iExtent iSize : ℤ}
    (h : AtSameDir found iExtent iSize) : ∀ e ∈ found.toList, e.isDir := by
  intro e he
  exact (h.atDir e (Option.mem_toList.mp he)).1

/-- At the end of the path both walks give the directory they stand at. -/
theorem agreeAlong_nil {found : Option IsoDirEntry}
    {iExtent iSize : ℤ} (h : AtSameDir found iExtent iSize) :
    AgreeAlong vol stack pos found iExtent iSize [] := by
  refine ⟨_, _, rfl, rfl, ⟨fun e he => ?_, by simp⟩⟩
  cases found with
  | none =>
    rw [if_pos (h.atRoot rfl)]
    simp [dirExtentResult, rootEntry, IsoDirEntry.isDir]
  | some d =>
    obtain ⟨hdir, hne, rfl, rfl⟩ := h.atDir d rfl
    rw [if_neg hne]
    simp [dirExtentResult, hdir]

section Step

variable {found : Option IsoDirEntry} {iExtent iSize : ℤ} {entries : List IsoDirEntry} {pos' : ℕ}
  {component : List UInt8} {rest : List (List UInt8)}
  (hlist : getDirEntries vol stack pos (contentsOf vol found).1 (contentsOf vol found).2 =
    some (entries, pos'))

include hlist

theorem entryWalk_cons :
    entryWalk vol stack pos found (component :: rest) =
      match entries.find? (matchesComponent component) with
      | none => some ⟨none, pos', found.toList⟩
      | some e => (entryWalk vol stack pos' (some e) rest).map (·.after found) := by
  simp only [entryWalk, hlist]

theorem dirExtentWalk_cons (h : AtSameDir found iExtent iSize) :
    dirExtentWalk vol stack vol.iRootExtent pos found iExtent iSize (component :: rest) =
      match entries.find? (matchesComponent component) with
      | none => some ⟨none, pos', found.toList⟩
      | some e =>
        if e.isDir then
          (dirExtentWalk vol stack vol.iRootExtent pos' (some e) e.iExtent e.iSize rest).map
            (·.after found)
        else some ⟨none, pos', found.toList⟩ := by
  rw [dirExtentWalk, h.source]
  simp only [hlist]

/-- A component that is not found ends both walks. -/
theorem agreeAlong_of_notFound (h : AtSameDir found iExtent iSize)
    (hfind : entries.find? (matchesComponent component) = none) :
    AgreeAlong vol stack pos found iExtent iSize (component :: rest) := by
  refine ⟨⟨none, pos', found.toList⟩, ⟨none, pos', found.toList⟩, ?_, ?_, ⟨fun e he => ?_, ?_⟩⟩
  · rw [entryWalk_cons hlist, hfind]
  · rw [dirExtentWalk_cons hlist h, hfind]
  · simp [dirExtentResult, he.symm]
  · intro e he
    rw [List.mem_append, or_self] at he
    exact h.isDir_of_mem e he

/-- Past a directory with a non-zero extent the walks agree as they do from there. -/
theorem agreeAlong_cons_iff (h : AtSameDir found iExtent iSize) {e : IsoDirEntry}
    (hfind : entries.find? (matchesComponent component) = some e) (hdir : e.isDir) :
    AgreeAlong vol stack pos found iExtent iSize (component :: rest) ↔
      AgreeAlong vol stack pos' (some e) e.iExtent e.iSize rest := by
  rw [AgreeAlong]
  simp only [entryWalk_cons hlist, dirExtentWalk_cons hlist h, hfind, if_pos hdir,
    Option.map_eq_some_iff]
  constructor
  · rintro ⟨_, _, ⟨w, hw, rfl⟩, ⟨v, hv, rfl⟩, hagree⟩
    refine ⟨w, v, hw, hv, hagree.result, fun d hd => hagree.listed d ?_⟩
    simp only [Walk.after, List.mem_append] at hd ⊢
    tauto
  · rintro ⟨w, v, hw, hv, hagree⟩
    refine ⟨_, _, ⟨w, hw, rfl⟩, ⟨v, hv, rfl⟩, hagree.result, fun d hd => ?_⟩
    simp only [Walk.after, List.mem_append] at hd
    rcases hd with (hd | hd) | (hd | hd)
    · exact h.isDir_of_mem d hd
    · exact hagree.listed d (List.mem_append_left _ hd)
    · exact h.isDir_of_mem d hd
    · exact hagree.listed d (List.mem_append_right _ hd)

/-- A last component that names no directory ends both walks without an extent. -/
theorem agreeAlong_of_file (h : AtSameDir found iExtent iSize) {e : IsoDirEntry}
    (hfind : entries.find? (matchesComponent component) = some e) (hfile : ¬ e.isDir) :
    AgreeAlong vol stack pos found iExtent iSize [component] := by
  refine ⟨⟨some e, pos', found.toList ++ []⟩, ⟨none, pos', found.toList⟩, ?_, ?_,
    ⟨fun x hx => ?_, ?_⟩⟩
  · rw [entryWalk_cons hlist, hfind]
    rfl
  · rw [dirExtentWalk_cons hlist h, hfind]
    simp only [if_neg hfile]
  · simp [dirExtentResult, hx.symm, hfile]
  · intro d hd
    rw [List.append_nil, List.mem_append, or_self] at hd
    exact h.isDir_of_mem d hd

/-- Behind an entry that is not a directory the entry walk lists its contents. -/
theorem not_agreeAlong_of_file {e : IsoDirEntry}
    (hfind : entries.find? (matchesComponent component) = some e) (hfile : ¬ e.isDir)
    {next : List UInt8} : ¬ AgreeAlong vol stack pos found iExtent iSize [component, next] := by
  rintro ⟨w, v, hw, -, hagree⟩
  rw [entryWalk_cons hlist, hfind] at hw
  obtain ⟨w', hw', rfl⟩ := Option.map_eq_some_iff.mp hw
  refine hfile (hagree.listed e (List.mem_append_left _ (List.mem_append_right _ ?_)))
  simp only [entryWalk] at hw'
  split at hw'
  · cases hw'
  · split at hw'
    · cases hw'
      exact List.mem_singleton.mpr rfl
    · obtain ⟨_, -, rfl⟩ := Option.map_eq_some_iff.mp hw'
      exact List.mem_append_left _ (List.mem_singleton.mpr rfl)

/-- A directory with extent zero is taken for the root. -/
theorem not_agreeAlong_of_zero (hroot : vol.iRootExtent ≠ 0) (h : AtSameDir found iExtent iSize)
    {e : IsoDirEntry} (hfind : entries.find? (matchesComponent component) = some e)
    (hdir : e.isDir) (hzero : e.iExtent = 0) :
    ¬ AgreeAlong vol stack pos found iExtent iSize [component] := by
  rw [agreeAlong_cons_iff hlist h hfind hdir]
  rintro ⟨w, v, hw, hv, hagree⟩
  cases hw
  cases hv
  have := (hagree.result vol.iRootExtent hroot).mp (by simp [dirExtentResult, hzero])
  obtain ⟨entry, hentry, -, hextent⟩ := this
  cases hentry
  exact hroot (hextent.symm.trans hzero)

end Step

/-- The walks agree along every prefix of `components` exactly when the way is sound. -/
theorem agreeAlong_prefixes_iff (hucs : vol.ucsLevel ≤ 3) (hroot : vol.iRootExtent ≠ 0)
    {found : Option IsoDirEntry} {iExtent iSize : ℤ} (h : AtSameDir found iExtent iSize)
    (components : List (List UInt8)) :
    (∀ ps, ps <+: components → AgreeAlong vol stack pos found iExtent iSize ps) ↔
      SoundWay vol stack pos found components := by
  induction components generalizing pos found iExtent iSize with
  | nil =>
    simp only [List.prefix_nil, forall_eq, SoundWay, iff_true]
    exact agreeAlong_nil h
  | cons component rest ih =>
    obtain ⟨entries, pos', hlist⟩ := getDirEntries_isSome hucs stack pos
      (contentsOf vol found).1 (contentsOf vol found).2
    cases hfind : entries.find? (matchesComponent component) with
    | none =>
      refine iff_of_true ?_ ?_
      · intro ps hps
        rcases List.prefix_cons_iff.mp hps with rfl | ⟨ps, rfl, -⟩
        · exact agreeAlong_nil h
        · exact agreeAlong_of_notFound hlist h hfind
      · intro entries' pos'' e hlist' hfind'
        rw [hlist] at hlist'
        cases hlist'
        rw [hfind] at hfind'
        cases hfind'
    | some e =>
      have hway : SoundWay vol stack pos found (component :: rest) ↔
          (e.isDir → e.iExtent ≠ 0) ∧ (rest ≠ [] → e.isDir) ∧
          SoundWay vol stack pos' (some e) rest := by
        refine ⟨fun hs => hs entries pos' e hlist hfind,
          fun hs entries' pos'' e' hlist' hfind' => ?_⟩
        rw [hlist] at hlist'
        cases hlist'
        rw [hfind] at hfind'
        cases hfind'
        exact hs
      rw [hway]
      -- a directory of extent 0 sends only one of the walks back to the root
      by_cases hdir : e.isDir
      · by_cases hzero : e.iExtent = 0
        · refine iff_of_false (fun hall => ?_) (fun hs => hs.1 hdir hzero)
          exact not_agreeAlong_of_zero hlist hroot h hfind hdir hzero
            (hall [component] (List.prefix_cons_iff.mpr (Or.inr ⟨[], rfl, List.nil_prefix⟩)))
        · rw [← ih (atSameDir_some hdir hzero)]
          constructor
          · intro hall
            refine ⟨fun _ => hzero, fun _ => hdir, fun ps hps => ?_⟩
            exact (agreeAlong_cons_iff hlist h hfind hdir).mp
              (hall (component :: ps) (List.prefix_cons_iff.mpr (Or.inr ⟨ps, rfl, hps⟩)))
          · rintro ⟨-, -, hall⟩ ps hps
            rcases List.prefix_cons_iff.mp hps with rfl | ⟨ps, rfl, htail⟩
            · exact agreeAlong_nil h
            · exact (agreeAlong_cons_iff hlist h hfind hdir).mpr (hall ps htail)
      · cases rest with
        | nil =>
          refine iff_of_true (fun ps hps => ?_)
            ⟨fun hd => absurd hd hdir, fun hne => absurd rfl hne, trivial⟩
          rcases List.prefix_cons_iff.mp hps with rfl | ⟨ps, rfl, htail⟩
          · exact agreeAlong_nil h
          · rw [List.prefix_nil.mp htail]
            exact agreeAlong_of_file hlist h hfind hdir
        -- one walk goes on behind the file, the other stops at it
        | cons next rest =>
          refine iff_of_false (fun hall => ?_) (fun hs => hdir (hs.2.1 (List.cons_ne_nil _ _)))
          exact not_agreeAlong_of_file hlist hfind hdir
            (hall [component, next] (by simp))

end SideBySide

/-! ### The resolvers -/

theorem resolversAgree_iff_agreeAlong (vol : VolData) (stack : Memory) (pos : ℕ) (pSize : Bool)
    (path : List UInt8) :
    ResolversAgree vol stack pos pSize path ↔
      AgreeAlong vol stack pos none 0 (if pSize then vol.iRootSize else 0)
        (components isPathSeparator path) := by
  have hfst : ∀ r, (dirExtentResult pSize r).1 = (dirExtentResult false r).1 := by
    rintro (_ | _) <;> rfl
  rw [ResolversAgree, AgreeAlong, isoQueryIsoEntryFromPath, isoQueryDirExtentFromPath]
  simp only [entryLoop_eq_entryWalk, dirExtentLoop_eq_dirExtentWalk, Option.map_eq_some_iff]
  constructor
  · rintro ⟨w, _, hw, ⟨v, hv, rfl⟩, hagree⟩
    rw [hfst] at hagree
    exact ⟨w, v, hw, hv, hagree⟩
  · rintro ⟨w, v, hw, hv, hagree⟩
    refine ⟨w, _, hw, ⟨v, hv, rfl⟩, ?_⟩
    rwa [hfst]

/-- The resolvers agree on a path and on all paths that name its first components exactly
when every entry found on the way, but for the last, is a directory and no directory found
has extent zero. -/
theorem resolvers_agree_iff (vol : AttachedVolume) (hroot : vol.iRootExtent ≠ 0) (stack : Memory)
    (pos : ℕ) (pSize : Bool) (path : List UInt8) :
    (∀ q, components isPathSeparator q <+: components isPathSeparator path →
      ResolversAgree vol.toVolData stack pos pSize q) ↔
      SoundWay vol.toVolData stack pos none (components isPathSeparator path) := by
  rw [← agreeAlong_prefixes_iff vol.ucsLevel_le hroot (atSameDir_root
    (if pSize then vol.iRootSize else 0))]
  simp only [resolversAgree_iff_agreeAlong]
  constructor
  · intro hall ps hps
    obtain ⟨q, rfl⟩ := exists_components_eq isPathSeparator (s := 0x2f) rfl hps
    exact hall q hps
  · exact fun hall q hq => hall _ hq

/-! ### A file that is walked through -/

/-- The record of an entry with extent 1, 2048 bytes and a name of one character. -/
def loopRecord (fileFlags name : UInt8) : List UInt8 :=
  [36, 0, 1, 0, 0, 0, 0, 0, 0, 1, 0, 8, 0, 0, 0, 0, 8, 0, 0, 0, 0, 0, 0, 0, 0, fileFlags,
    0, 0, 1, 0, 0, 1, 2, 0, name, 0]

/-- An image whose root directory in block 1 holds a file `A` and a directory `B` that both
have the root's own extent. -/
def loopFile : IsoFile where
  bytes := List.replicate 2048 0 ++ (loopRecord 0 0x41 ++ loopRecord 2 0x42)
  size_lt := by
    rw [List.length_append, List.length_replicate]
    decide

def loopVolume : AttachedVolume where
  isoFile := loopFile
  -- the root directory record gives 2048 bytes
  ipd := fun i => if i = rootRecord + 11 then 8 else 0
  iRootExtent := 1
  iRootSize := 2048
  ucsLevel := 3
  nls := none
  ucsLevel_pos := one_le_three
  ucsLevel_le := three_le_three

def loopEntry (stMode : FileMode) (name : UInt8) (hname : name ≠ 0) : IsoDirEntry where
  flFlags := dosFlags stMode
  iExtent := 1
  iSize := 2048
  iParentExtent := 1
  chrName := [name]
  stSize := 2048
  stMode := stMode
  dateBuf := if stMode = .S_IFDIR then [0, 0, 0, 0, 0, 0, 0, 2, 0] else List.replicate 9 0
  chrName_length_lt := by simp
  chrName_no_nul := by simp [hname.symm]
  flFlags_eq := rfl

/-- The sector buffer once the root directory is read. -/
def loopSector : Memory :=
  (Memory.zeros.clear 2048).blit 0 (loopRecord 0 0x41 ++ loopRecord 2 0x42)

theorem seekRead_loopFile (pos : ℕ) :
    loopFile.seekRead pos (IsoFile.blockOffset 1) 2048 (Memory.zeros.clear 2048) =
      (loopSector, 2120) := by
  have hoff : IsoFile.lseek pos (IsoFile.blockOffset 1) = 2048 := IsoFile.lseek_natCast pos 2048
  have hread : loopFile.read 2048 2048 = loopRecord 0 0x41 ++ loopRecord 2 0x42 := by
    rw [IsoFile.read, loopFile, List.drop_left' List.length_replicate]
    exact List.take_of_length_le (by decide)
  simp only [IsoFile.seekRead, hoff, hread, loopSector]
  congr 1

theorem sectorEntries_loopSector :
    sectorEntries loopVolume.toVolData loopSector 1 0 =
      some [loopEntry .S_IFREG 0x41 (by decide), loopEntry .S_IFDIR 0x42 (by decide)] := by
  have hA : decodeRecord loopVolume.toVolData loopSector 1 0 =
    some (loopEntry .S_IFREG 0x41 (by decide)) := by decide
  have hB : decodeRecord loopVolume.toVolData loopSector 1 36 =
    some (loopEntry .S_IFDIR 0x42 (by decide)) := by decide
  have h0 : loopSector 0 = 36 := by decide
  have h36 : loopSector 36 = 36 := by decide
  have h72 : loopSector 72 = 0 := by decide
  have hend : sectorEntries loopVolume.toVolData loopSector 1 72 = some [] := by
    rw [sectorEntries, dif_pos h72]
  have hrest : sectorEntries loopVolume.toVolData loopSector 1 36 =
      some [loopEntry .S_IFDIR 0x42 (by decide)] := by
    rw [sectorEntries, dif_neg (by decide), hB]
    simp only [h36]
    rw [dif_neg (by decide)]
    exact congrArg (Option.map _) hend
  rw [sectorEntries, dif_neg (by decide), hA]
  simp only [h0]
  rw [dif_neg (by decide)]
  exact congrArg (Option.map _) hrest

/-- The root directory of the loop volume. -/
theorem getDirEntries_loopVolume (pos : ℕ) :
    getDirEntries loopVolume.toVolData Memory.zeros pos
      (contentsOf loopVolume.toVolData none).1 (contentsOf loopVolume.toVolData none).2 =
      some ([loopEntry .S_IFREG 0x41 (by decide), loopEntry .S_IFDIR 0x42 (by decide)], 2120) := by
  have hsize : rootRecordSize loopVolume.toVolData = 2048 := by decide
  have hcontents : contentsOf loopVolume.toVolData none = (1, 2048) := by
    rw [contentsOf, hsize]
    rfl
  have hturn := dirSectors_of_pos loopVolume.toVolData (Memory.zeros.clear 2048) pos 1
    (show (0 : ℤ) < 2048 by omega) (seekRead_loopFile pos)
  rw [hcontents, getDirEntries, hturn]
  simp only [sectorEntries_loopSector]
  rw [dirSectors_of_nonpos _ _ _ _ (show (2048 : ℤ) - 2048 ≤ 0 by omega)]
  rfl

/-- The directory `B` of the loop volume is found by both walks. -/
theorem resolvers_agree_loopVolume :
    ResolversAgree loopVolume.toVolData Memory.zeros 0 false [0x2f, 0x42] := by
  have hpath : components isPathSeparator [0x2f, 0x42] = [[0x42]] :=
    @components_join _ isPathSeparator 0x2f rfl [[0x42]] (by simp [IsComponent]; rfl)
  refine (resolvers_agree_iff loopVolume (by decide) Memory.zeros 0 false [0x2f, 0x42]).mpr ?_ _
    List.prefix_rfl
  rw [hpath]
  intro entries pos' e hlist hfind
  rw [getDirEntries_loopVolume] at hlist
  cases hlist
  cases hfind
  exact ⟨by decide, fun h => absurd rfl h, trivial⟩

/-- Behind the file `A` the entry walk finds the directory `B`; the extent walk gives up. -/
theorem resolvers_disagree_behind_file :
    ¬ ResolversAgree loopVolume.toVolData Memory.zeros 0 false [0x2f, 0x41, 0x2f, 0x42] := by
  have hpath : components isPathSeparator [0x2f, 0x41, 0x2f, 0x42] = [[0x41], [0x42]] :=
    @components_join _ isPathSeparator 0x2f rfl [[0x41], [0x42]] (by simp [IsComponent]; decide)
  rw [resolversAgree_iff_agreeAlong, hpath]
  rintro ⟨w, v, hw, hv, hagree⟩
  have hcontents : contentsOf loopVolume.toVolData (some (loopEntry .S_IFREG 0x41 (by decide))) =
      contentsOf loopVolume.toVolData none := by
    have hsize : rootRecordSize loopVolume.toVolData = 2048 := by decide
    rw [contentsOf, contentsOf, hsize]
    rfl
  have hlist := getDirEntries_loopVolume 2120
  rw [← hcontents] at hlist
  have hfile : [loopEntry .S_IFREG 0x41 (by decide), loopEntry .S_IFDIR 0x42 (by decide)].find?
      (matchesComponent [0x41]) = some (loopEntry .S_IFREG 0x41 (by decide)) := rfl
  have hdir : [loopEntry .S_IFREG 0x41 (by decide), loopEntry .S_IFDIR 0x42 (by decide)].find?
      (matchesComponent [0x42]) = some (loopEntry .S_IFDIR 0x42 (by decide)) := rfl
  rw [dirExtentWalk_cons (getDirEntries_loopVolume 0) (atSameDir_root _), hfile] at hv
  cases hv
  rw [entryWalk_cons (getDirEntries_loopVolume 0), hfile] at hw
  simp only [entryWalk_cons hlist, hdir] at hw
  cases hw
  have hfound := (hagree.result 1 (by decide)).mpr ⟨_, rfl, rfl, rfl⟩
  cases hfound

end Isofs
