import Isofs.Find.Search
import Isofs.Path.Agreement

/-!
# Splitting a path

`splitPath` cuts a path at the separators before its last component, and a path resolves to what
its last component names in the directory that the rest resolves to.
-/

namespace Isofs

open Components

/-- The parts of a path that starts with a separator. -/
structure Splits (path front last : List UInt8) : Prop where
  last_free : ∀ c ∈ last, isPathSeparator c = false
  front_starts : ∀ h : front ≠ [], isPathSeparator (front.head h) = true
  front_ends : ∀ h : front ≠ [], isPathSeparator (front.getLast h) = false
  append : ∃ seps, seps ≠ [] ∧ (∀ c ∈ seps, isPathSeparator c = true) ∧ path = front ++ seps ++ last
  components_eq : components isPathSeparator path =
    components isPathSeparator front ++ if last = [] then [] else [last]

/-- The first loop of `splitPath`: the last separator, `p2` if there is none from `p` on. -/
def lastSeparator (p2 p : ℕ) : List UInt8 → ℕ
  | [] => p2
  | c :: cs => lastSeparator (if isPathSeparator c then p else p2) (p + 1) cs

/-- The second loop of `splitPath`: back over separators, at most to the start of the path. -/
def skipBack (pszFull : List UInt8) : ℕ → ℕ
  | 0 => 0
  | p2 + 1 => if isPathSeparator (pszFull.getD (p2 + 1) 0) then skipBack pszFull p2 else p2 + 1

/-- `splitPath`, loop by loop. -/
def splitPathLoops (pszFull : List UInt8) : List UInt8 × List UInt8 :=
  let p2 := lastSeparator 0 0 pszFull
  let pszLast := pszFull.drop (p2 + 1)
  let p2 := skipBack pszFull p2
  (if p2 = 0 then [] else pszFull.take (p2 + 1), pszLast)

/-- Look `last` up in the entry that a walk has found: the entry there and the file position. -/
def lookUpIn (vol : VolData) (stack : Memory) (last : List UInt8) (w : Walk (Option IsoDirEntry)) :
    Option (Option IsoDirEntry × ℕ) :=
  match w.result with
  | none => some (none, w.pos)
  | some pEntry =>
    (getDirEntries vol stack w.pos pEntry.iExtent pEntry.iSize).map fun (entries, pos) =>
      (entries.find? (matchesComponent last), pos)

/-- The entry that a walk has found and the file position. -/
def Walk.found (w : Walk (Option IsoDirEntry)) : Option IsoDirEntry × ℕ := (w.result, w.pos)

/-- Resolve `front`, and look `last` up there. -/
def lookUpLast (vol : VolData) (stack : Memory) (pos : ℕ) (front last : List UInt8) :
    Option (Option IsoDirEntry × ℕ) :=
  (isoQueryIsoEntryFromPath vol stack pos front).bind (lookUpIn vol stack last)

/-! ### The split -/

section Split

variable {s : UInt8} {rest : List UInt8}

/-- What stands before the last component is not empty, and ends with a separator. -/
theorem directoryPart_ends (hs : isPathSeparator s = true) :
    ∃ h : (s :: rest).rdropWhile (!isPathSeparator ·) ≠ [],
      isPathSeparator (((s :: rest).rdropWhile (!isPathSeparator ·)).getLast h) = true := by
  have hne : (s :: rest).rdropWhile (!isPathSeparator ·) ≠ [] := by
    rw [Ne, List.rdropWhile_eq_nil_iff]
    exact fun h => absurd (h s List.mem_cons_self) (by simp [hs])
  exact ⟨hne, by simpa using List.rdropWhile_last_not (!isPathSeparator ·) (s :: rest) hne⟩

/-- A part at the front of the path starts as the path does. -/
theorem head_of_front {l : List UInt8} (h : l <+: s :: rest) (hne : l ≠ []) : l.head hne = s := by
  cases l with
  | nil => exact absurd rfl hne
  | cons c cs => exact (List.cons_prefix_cons.mp h).1

theorem fst_splitPath (hs : isPathSeparator s = true) :
    (splitPath (s :: rest)).1 =
      ((s :: rest).rdropWhile (!isPathSeparator ·)).rdropWhile isPathSeparator := by
  show (if _ then _ else _) = _
  split
  · next hshort =>
    -- a single character would be the first separator of the path, and not a separator
    generalize hfront : ((s :: rest).rdropWhile (!isPathSeparator ·)).rdropWhile isPathSeparator =
      front at hshort
    cases front with
    | nil => rfl
    | cons c cs =>
      obtain rfl : cs = [] := by simpa using hshort
      have hne : ((s :: rest).rdropWhile (!isPathSeparator ·)).rdropWhile isPathSeparator ≠ [] := by
        rw [hfront]
        exact List.cons_ne_nil c []
      have hlast := List.rdropWhile_last_not isPathSeparator _ hne
      have hpre : [c] <+: s :: rest :=
        hfront ▸ (List.rdropWhile_prefix _ _).trans (List.rdropWhile_prefix _ _)
      have hhead : c = s := head_of_front hpre (List.cons_ne_nil c [])
      simp only [hfront, List.getLast_singleton] at hlast
      exact absurd (hhead ▸ hs) hlast
  · rfl

/-- `splitPath` splits a path that starts with a separator. -/
theorem splitPath_splits (hs : isPathSeparator s = true) :
    Splits (s :: rest) (splitPath (s :: rest)).1 (splitPath (s :: rest)).2 := by
  have hfront := @fst_splitPath s rest hs
  have hlast : (splitPath (s :: rest)).2 = (s :: rest).rtakeWhile (!isPathSeparator ·) := rfl
  obtain ⟨hne, hend⟩ := @directoryPart_ends s rest hs
  rw [hfront, hlast]
  have hpath : (s :: rest).rdropWhile (!isPathSeparator ·) ++
      (s :: rest).rtakeWhile (!isPathSeparator ·) = s :: rest := List.rdropWhile_append_rtakeWhile
  generalize hdir : (s :: rest).rdropWhile (!isPathSeparator ·) = dir at hne hend hpath ⊢
  have hparts : dir.rdropWhile isPathSeparator ++ dir.rtakeWhile isPathSeparator = dir :=
    List.rdropWhile_append_rtakeWhile
  have hfree : ∀ c ∈ (s :: rest).rtakeWhile (!isPathSeparator ·), isPathSeparator c = false :=
    fun c hc => by simpa using List.mem_rtakeWhile_imp hc
  have hseps : ∀ c ∈ dir.rtakeWhile isPathSeparator, isPathSeparator c = true :=
    fun c hc => List.mem_rtakeWhile_imp hc
  have hsome : dir.rtakeWhile isPathSeparator ≠ [] := by
    rw [Ne, List.rtakeWhile_eq_nil_iff]
    exact fun h => h hne hend
  have happend : s :: rest = dir.rdropWhile isPathSeparator ++ dir.rtakeWhile isPathSeparator ++
      (s :: rest).rtakeWhile (!isPathSeparator ·) := by
    rw [hparts, hpath]
  refine ⟨hfree, fun h => ?_, fun h => ?_, ⟨_, hsome, hseps, happend⟩, ?_⟩
  · have hpre : dir.rdropWhile isPathSeparator <+: s :: rest :=
      (List.rdropWhile_prefix _ _).trans (hdir ▸ List.rdropWhile_prefix _ _)
    rw [head_of_front hpre h]
    exact hs
  · simpa using List.rdropWhile_last_not isPathSeparator dir h
  -- the separators between the two parts are no component
  · conv_lhs => rw [happend]
    generalize dir.rtakeWhile isPathSeparator = seps at hsome hseps
    generalize (s :: rest).rtakeWhile (!isPathSeparator ·) = last at hfree
    cases seps with
    | nil => exact absurd rfl hsome
    | cons d seps =>
      rw [List.forall_mem_cons] at hseps
      rw [List.append_assoc, List.cons_append, components_append_sep _ hseps.1,
        components_seps_append _ hseps.2]
      by_cases hempty : last = []
      · rw [if_pos hempty, hempty, components_nil]
      · rw [if_neg hempty, components_of_free _ hfree hempty]

/-! ### The loops -/

theorem lastSeparator_append (x y : List UInt8) (p2 p : ℕ) :
    lastSeparator p2 p (x ++ y) = lastSeparator (lastSeparator p2 p x) (p + x.length) y := by
  induction x generalizing p2 p with
  | nil => rfl
  | cons c x ih =>
    rw [List.cons_append, lastSeparator, lastSeparator, ih, List.length_cons]
    congr 1
    omega

theorem lastSeparator_of_free {l : List UInt8} (h : ∀ c ∈ l, isPathSeparator c = false) (p2 p : ℕ) :
    lastSeparator p2 p l = p2 := by
  induction l generalizing p with
  | nil => rfl
  | cons c l ih =>
    rw [List.forall_mem_cons] at h
    rw [lastSeparator, h.1]
    exact ih h.2 (p + 1)

/-- The second loop stops at the last character that is no separator, or at the start. -/
theorem skipBack_eq {l : List UInt8} {m n : ℕ} (hmn : m ≤ n)
    (hseps : ∀ i, m < i → i ≤ n → isPathSeparator (l.getD i 0) = true)
    (hstop : m = 0 ∨ isPathSeparator (l.getD m 0) = false) : skipBack l n = m := by
  induction n with
  | zero => exact (Nat.le_zero.mp hmn).symm
  | succ n ih =>
    rw [skipBack]
    rcases Nat.lt_or_ge m (n + 1) with hlt | hge
    · rw [if_pos (hseps (n + 1) hlt (Nat.le_refl _))]
      exact ih (Nat.lt_succ_iff.mp hlt) fun i hi hin => hseps i hi (Nat.le_succ_of_le hin)
    · obtain rfl : m = n + 1 := Nat.le_antisymm hmn hge
      have hfree := hstop.resolve_left (Nat.succ_ne_zero n)
      rw [hfree]
      rfl

section Loops

variable {front seps last : List UInt8} {d : UInt8}

/-- The first loop finds the separator before the last part. -/
theorem lastSeparator_split (hd : isPathSeparator d = true)
    (hfree : ∀ c ∈ last, isPathSeparator c = false) :
    lastSeparator 0 0 (front ++ d :: last) = front.length := by
  rw [lastSeparator_append, lastSeparator, hd, lastSeparator_of_free hfree]
  exact Nat.zero_add _

/-- The second loop finds the end of the prefix. -/
theorem skipBack_split (hseps : ∀ c ∈ seps, isPathSeparator c = true)
    (hends : ∀ h : front ≠ [], isPathSeparator (front.getLast h) = false) :
    skipBack (front ++ seps ++ last) (front.length + seps.length - 1) = front.length - 1 := by
  refine skipBack_eq (by omega) (fun i hlo hhi => ?_) ?_
  · have hfront : front.length ≤ i := by omega
    have hi : i - front.length < seps.length := by omega
    rw [List.append_assoc, List.getD_eq_getElem?_getD, List.getElem?_append_right hfront,
      List.getElem?_append_left hi, List.getElem?_eq_getElem hi]
    exact hseps _ (List.getElem_mem hi)
  · by_cases hfront : front = []
    · exact Or.inl (by rw [hfront]; rfl)
    · have hpos := List.length_pos_iff.mpr hfront
      have hi : front.length - 1 < front.length := by omega
      have hlast := hends hfront
      rw [List.getLast_eq_getElem] at hlast
      rw [List.append_assoc, List.getD_eq_getElem?_getD, List.getElem?_append_left hi,
        List.getElem?_eq_getElem hi]
      exact Or.inr hlast

end Loops

/-- A prefix that starts with a separator and does not end with one has two characters. -/
theorem one_lt_length_front {front : List UInt8}
    (hstarts : ∀ h : front ≠ [], isPathSeparator (front.head h) = true)
    (hends : ∀ h : front ≠ [], isPathSeparator (front.getLast h) = false) (hne : front ≠ []) :
    1 < front.length := by
  cases front with
  | nil => exact absurd rfl hne
  | cons c cs =>
    cases cs with
    | nil =>
      have hhead := hstarts hne
      have hlast := hends hne
      rw [List.head_cons] at hhead
      rw [List.getLast_singleton, hhead] at hlast
      cases hlast
    | cons d cs => exact Nat.succ_lt_succ (Nat.succ_pos _)

/-- The loops compute the split. -/
theorem splitPathLoops_eq (hs : isPathSeparator s = true) :
    splitPathLoops (s :: rest) = splitPath (s :: rest) := by
  obtain ⟨hfree, hstarts, hends, ⟨seps, hne, hseps, hpath⟩, -⟩ := @splitPath_splits s rest hs
  generalize hfront : (splitPath (s :: rest)).1 = front at hstarts hends hpath
  generalize hlast : (splitPath (s :: rest)).2 = last at hfree hpath
  have hsplit : splitPath (s :: rest) = (front, last) := by rw [← hfront, ← hlast]
  have hback := @skipBack_split front seps last hseps hends
  -- the first loop stops at the last one of the separators
  have hd : isPathSeparator (seps.getLast hne) = true := hseps _ (List.getLast_mem hne)
  have hcut : front ++ seps ++ last = (front ++ seps.dropLast) ++ seps.getLast hne :: last := by
    rw [List.append_assoc, List.append_assoc, ← List.singleton_append,
      ← List.append_assoc seps.dropLast,
      List.dropLast_append_getLast]
  have hlength : (front ++ seps.dropLast).length = front.length + seps.length - 1 := by
    have hpos := List.length_pos_iff.mpr hne
    rw [List.length_append, List.length_dropLast]
    omega
  have hfirst : lastSeparator 0 0 (front ++ seps ++ last) = front.length + seps.length - 1 := by
    rw [hcut, lastSeparator_split hd hfree, hlength]
  have hdrop : (front ++ seps ++ last).drop (front.length + seps.length - 1 + 1) = last := by
    have hpos := List.length_pos_iff.mpr hne
    refine List.drop_left' ?_
    rw [List.length_append]
    omega
  rw [hsplit, hpath, splitPathLoops]
  simp only [hfirst, hback, hdrop]
  by_cases hempty : front = []
  · rw [hempty]
    rfl
  · have htwo := one_lt_length_front hstarts hends hempty
    have hone : front.length - 1 + 1 = front.length := by omega
    rw [if_neg (by omega), hone, List.append_assoc, List.take_left]

end Split

/-! ### The walk along the parts -/

section Walks

variable {vol : VolData} {stack : Memory}

/-- The contents of the root are those of the entry that is made up for it. -/
theorem contentsOf_getD (hroot : vol.iRootSize = rootRecordSize vol)
    (tempEntry : Option IsoDirEntry) :
    contentsOf vol tempEntry =
      ((tempEntry.getD (rootEntry vol)).iExtent, (tempEntry.getD (rootEntry vol)).iSize) := by
  cases tempEntry with
  | none => exact congrArg (vol.iRootExtent, ·) hroot.symm
  | some e => rfl

/-- One more component is looked up in what the components before it lead to. -/
theorem entryWalk_concat (hroot : vol.iRootSize = rootRecordSize vol) (component : List UInt8)
    (ps : List (List UInt8)) (pos : ℕ) (tempEntry : Option IsoDirEntry) :
    (entryWalk vol stack pos tempEntry (ps ++ [component])).map Walk.found =
      (entryWalk vol stack pos tempEntry ps).bind (lookUpIn vol stack component) := by
  induction ps generalizing pos tempEntry with
  | nil =>
    rw [List.nil_append, entryWalk, entryWalk, contentsOf_getD hroot, Option.bind_some, lookUpIn]
    simp only
    cases getDirEntries vol stack pos (tempEntry.getD (rootEntry vol)).iExtent
        (tempEntry.getD (rootEntry vol)).iSize with
    | none => rfl
    | some r =>
      simp only [Option.map_some]
      cases r.1.find? (matchesComponent component) with
      | none => rfl
      | some e => rfl
  | cons p ps ih =>
    rw [List.cons_append, entryWalk, entryWalk]
    cases getDirEntries vol stack pos (contentsOf vol tempEntry).1 (contentsOf vol tempEntry).2 with
    | none => rfl
    | some r =>
      simp only
      cases r.1.find? (matchesComponent p) with
      | none => rfl
      | some e =>
        simp only [Option.map_map, Option.bind_map]
        exact ih r.2 (some e)

/-- Looking the last component up in what the path before it resolves to is resolving the whole
path. -/
theorem lookUpLast_eq (hroot : vol.iRootSize = rootRecordSize vol) (pos : ℕ)
    {path front last : List UInt8} (h : Splits path front last) (hlast : last ≠ []) :
    lookUpLast vol stack pos front last =
      (isoQueryIsoEntryFromPath vol stack pos path).map Walk.found := by
  rw [lookUpLast, isoQueryIsoEntryFromPath, isoQueryIsoEntryFromPath, entryLoop_eq_entryWalk,
    entryLoop_eq_entryWalk, h.components_eq, if_neg hlast, entryWalk_concat hroot]

end Walks

/-- A mount takes the size of the root from its directory record. -/
theorem iRootSize_mountedVolume (env : MountEnv) (pData : Memory) (szDev : List UInt8)
    (isoFile : IsoFile) (scan : ScanState) :
    (mountedVolume env pData szDev isoFile scan).iRootSize =
      rootRecordSize (mountedVolume env pData szDev isoFile scan).toVolData := rfl

/-- The loops of `splitPath` split a path that starts with a separator without loss, and on a
mounted volume its last part, looked up in what its prefix resolves to, is what the path resolves
to. -/
theorem splitPath_resolves {s : UInt8} (hs : isPathSeparator s = true) (rest : List UInt8) :
    splitPathLoops (s :: rest) = splitPath (s :: rest) ∧
    Splits (s :: rest) (splitPath (s :: rest)).1 (splitPath (s :: rest)).2 ∧
    ∀ (env : MountEnv) (pData : Memory) (szDev : List UInt8) (isoFile : IsoFile) (scan : ScanState)
      (stack : Memory) (pos : ℕ), (splitPath (s :: rest)).2 ≠ [] →
      lookUpLast (mountedVolume env pData szDev isoFile scan).toVolData stack pos
          (splitPath (s :: rest)).1 (splitPath (s :: rest)).2 =
        (isoQueryIsoEntryFromPath (mountedVolume env pData szDev isoFile scan).toVolData stack pos
          (s :: rest)).map Walk.found := by
  refine ⟨splitPathLoops_eq hs, splitPath_splits hs,
    fun env pData szDev isoFile scan stack pos hlast => ?_⟩
  exact lookUpLast_eq (iRootSize_mountedVolume env pData szDev isoFile scan) pos
    (splitPath_splits hs) hlast

/-- A mounted volume without a byte. -/
def bareVolume : VolData :=
  (mountedVolume ⟨true, fun _ => none, none, fun _ => none⟩ Memory.zeros []
    ⟨[], IsoFile.length_nil_lt⟩
    ⟨16, Memory.zeros, 0⟩).toVolData

/-- The parts of `/foo//bar`, and what they resolve to. -/
theorem splitPath_resolves_sample :
    Splits [0x2f, 0x66, 0x6f, 0x6f, 0x2f, 0x2f, 0x62, 0x61, 0x72] [0x2f, 0x66, 0x6f, 0x6f]
      [0x62, 0x61, 0x72] ∧
    lookUpLast bareVolume Memory.zeros 0 [0x2f, 0x66, 0x6f, 0x6f] [0x62, 0x61, 0x72] =
      (isoQueryIsoEntryFromPath bareVolume Memory.zeros 0
        [0x2f, 0x66, 0x6f, 0x6f, 0x2f, 0x2f, 0x62, 0x61, 0x72]).map Walk.found := by
  have h := @splitPath_resolves 0x2f (by decide) [0x66, 0x6f, 0x6f, 0x2f, 0x2f, 0x62, 0x61, 0x72]
  exact ⟨h.2.1, h.2.2 _ _ _ _ _ _ _ (by decide)⟩

end Isofs
