import Isofs.Disc.Access
import Isofs.Find.Delivery

/-!
# Searching a disc

A search in a directory of a stored disc delivers those of its named nodes that match, in the order
of the directory.
-/

namespace Isofs

/-! ### Entries of named nodes -/

theorem RecordName.length_codepageName_lt (nls : Option NlsTable) (name : RecordName) :
    (name.codepageName nls).length < 256 := by
  cases name with
  | self => show 1 < 256; decide
  | parent => show 2 < 256; decide
  | chars name h =>
    have hle := length_cString_le (name.map fun c => convertChar nls c.1 c.2)
    rw [List.length_map] at hle
    exact Nat.lt_of_le_of_lt (Nat.le_trans hle h) (by decide)

theorem RecordName.zero_notMem_codepageName (nls : Option NlsTable) (name : RecordName) :
    0 ∉ name.codepageName nls := by
  cases name with
  | self => show 0 ∉ ([0x2e] : List UInt8); decide
  | parent => show 0 ∉ ([0x2e, 0x2e] : List UInt8); decide
  | chars name h => exact zero_notMem_cString _

/-- An entry with this name, of a directory or of a file. -/
def namedEntry (nls : Option NlsTable) (name : RecordName) (isDir : Bool) : IsoDirEntry where
  flFlags := dosFlags (if isDir then .S_IFDIR else .S_IFREG)
  iExtent := 0
  iSize := 0
  iParentExtent := 0
  chrName := name.codepageName nls
  stSize := 0
  stMode := if isDir then .S_IFDIR else .S_IFREG
  dateBuf := []
  chrName_length_lt := name.length_codepageName_lt nls
  chrName_no_nul := name.zero_notMem_codepageName nls
  flFlags_eq := rfl

/-- A search looks at the name and the attributes of an entry only. -/
theorem wants_congr (s : SearchData) {e e' : IsoDirEntry} (hname : e.chrName = e'.chrName)
    (hflags : e.flFlags = e'.flFlags) : s.wants e = s.wants e' := by
  unfold SearchData.wants entryMatches fileMatches2
  rw [hname, hflags]

namespace Disc

variable {ν : Type} (disc : Disc ν) {place : ν → Place}

/-- The search wants the named node. -/
def wantsChild (s : SearchData) (nls : Option NlsTable) (k : RecordName × ν) : Bool :=
  s.wants (namedEntry nls k.1 (disc.content k.2).isDir)

/-- The search that `fsFindFirst` sets up wants what its request asks for. -/
def matchingChildren (env : FindEnv) (nls : Option NlsTable) (q : Request) (n : ν) : List ℕ :=
  (disc.content n).children.findIdxs (disc.wantsChild (newSearch env q []) nls)

variable {disc}

theorem Named.wants {nls : Option NlsTable} {e : IsoDirEntry} {k : RecordName × ν}
    (h : disc.Named place nls e k) (s : SearchData) : s.wants e = disc.wantsChild s nls k := by
  refine wants_congr s h.1 ?_
  have hmode : e.stMode = if (disc.content k.2).isDir then .S_IFDIR else .S_IFREG := by
    have hdir := h.2.isDir
    rw [IsoDirEntry.isDir] at hdir
    cases hmode : e.stMode <;> rw [hmode] at hdir <;> rw [← hdir] <;> rfl
  rw [e.flFlags_eq, hmode]
  rfl

/-- The matching entries stand where the matching nodes do. -/
theorem findIdxs_wants {nls : Option NlsTable} {entries : List IsoDirEntry}
    {children : List (RecordName × ν)} (h : List.Forall₂ (disc.Named place nls) entries children)
    (s : SearchData) (start : ℕ) :
    entries.findIdxs s.wants start = children.findIdxs (disc.wantsChild s nls) start := by
  induction h generalizing start with
  | nil => rfl
  | cons hk _ ih => rw [List.findIdxs_cons, List.findIdxs_cons, hk.wants, ih]

/-! ### The directory that is searched -/

section Searched

variable {node : VolNode} {szDir : List UInt8}

/-- The search looks into the directory that its path names. -/
theorem searchedDir_of_some (hlevel : 1 ≤ node.vol.ucsLevel ∧ node.vol.ucsLevel ≤ 3)
    (h : disc.OnVolume place node.vol.toVolData) {n : ν}
    (hn : disc.resolveDir node.vol.nls szDir = some n) (stack : Memory) (pos : ℕ) :
    ∃ entries pos', searchedDir node.vol.toVolData stack pos szDir = some (.ok entries, pos') ∧
      List.Forall₂ (disc.Named place node.vol.nls) entries (disc.content n).children := by
  obtain ⟨vol, hvol⟩ : ∃ vol : AttachedVolume, vol.toVolData = node.vol.toVolData :=
    ⟨⟨node.vol.toVolData, hlevel.1, hlevel.2⟩, rfl⟩
  obtain ⟨hresolve, hdirs, hdir⟩ := (FileSystem.lookupDir_eq_some_iff h.isDir).mp hn
  rw [← hvol] at h hresolve hdirs ⊢
  obtain ⟨w, hwalk, hresult⟩ := isoQueryIsoEntryFromPath_resolve h hdirs stack pos
  rw [searchedDir]
  split
  · obtain ⟨result, pos', listings⟩ := w
    rw [resolve, hresolve] at hresult
    cases result with
    | none => cases hresult
    | some e =>
      obtain ⟨he⟩ := hresult
      obtain ⟨entries, pos'', hlist, hnamed⟩ := h.stored.getDirEntries hdir stack pos'
      simp only [hwalk, he.isDir, hdir, if_true, he.extent, he.size, hlist, Option.map_some]
      exact ⟨entries, pos'', rfl, hnamed⟩
  · next hempty =>
    obtain rfl := not_not.mp hempty
    -- the empty path names the root
    rw [Components.components_nil] at hresolve
    obtain rfl := Option.some.inj hresolve
    obtain ⟨entries, pos'', hlist, hnamed⟩ := h.stored.getDirEntries hdir stack pos
    rw [h.iRootExtent, h.rootRecordSize, hlist]
    exact ⟨entries, pos'', rfl, hnamed⟩

/-- There is nothing to search under a path that names no directory. -/
theorem searchedDir_of_none (hlevel : 1 ≤ node.vol.ucsLevel ∧ node.vol.ucsLevel ≤ 3)
    (h : disc.OnVolume place node.vol.toVolData)
    (hdirs : disc.PathThroughDirs node.vol.nls szDir)
    (hn : disc.resolveDir node.vol.nls szDir = none) (stack : Memory) (pos : ℕ) :
    ∃ pos', searchedDir node.vol.toVolData stack pos szDir =
      some (.error .ERROR_PATH_NOT_FOUND, pos') := by
  obtain ⟨vol, hvol⟩ : ∃ vol : AttachedVolume, vol.toVolData = node.vol.toVolData :=
    ⟨⟨node.vol.toVolData, hlevel.1, hlevel.2⟩, rfl⟩
  have hiff (n : ν) : disc.resolveDir node.vol.nls szDir = some n ↔ _ :=
    FileSystem.lookupDir_eq_some_iff h.isDir
  have hne : szDir ≠ [] := by
    rintro rfl
    rw [resolveDir, Components.components_nil, FileSystem.lookupDir] at hn
    cases hn
  rw [← hvol] at h hdirs hiff hn ⊢
  obtain ⟨⟨result, pos', listings⟩, hwalk, hresult⟩ :=
    isoQueryIsoEntryFromPath_resolve h hdirs stack pos
  rw [searchedDir, if_pos hne, hwalk]
  cases result with
  | none => exact ⟨pos', rfl⟩
  | some e =>
    cases hresolve : disc.resolve vol.nls szDir with
    | none =>
      rw [hresolve] at hresult
      cases hresult
    | some n =>
      rw [hresolve] at hresult
      obtain ⟨he⟩ := hresult
      have hfile : e.isDir = false := by
        rw [he.isDir, ← Bool.not_eq_true]
        intro hdir
        cases hn.symm.trans ((hiff n).mpr ⟨hresolve, hdirs, hdir⟩)
      simp only [hfile]
      exact ⟨pos', rfl⟩

end Searched

/-- The places of the matching nodes are those at which a node is wanted. -/
theorem mem_matchingChildren {env : FindEnv} {nls : Option NlsTable} {q : Request} {n : ν}
    {i : ℕ} :
    i ∈ disc.matchingChildren env nls q n ↔
      ∃ k, (disc.content n).children[i]? = some k ∧
        disc.wantsChild (newSearch env q []) nls k = true := by
  rw [matchingChildren, List.mem_findIdxs_iff_exists_getElem_pos]
  constructor
  · rintro ⟨hlt, hwants⟩
    exact ⟨_, List.getElem?_eq_getElem hlt, hwants⟩
  · rintro ⟨k, hk, hwants⟩
    obtain ⟨hlt, rfl⟩ := List.getElem?_eq_some_iff.mp hk
    exact ⟨hlt, hwants⟩

/-- What the calls of a search on a directory deliver. -/
theorem deliveredBy_searchRun {node : VolNode} {env : FindEnv} {pos : ℕ} {q : Request} {n : ν}
    (hmatching : (newSearch env q (searchedEntries env node pos q)).remaining =
      disc.matchingChildren env node.vol.nls q n) (pData : Memory) (calls : List FindCall) :
    deliveredBy (searchRun env node pos pData q calls) <+:
        disc.matchingChildren env node.vol.nls q n ∧
      ∀ pre call post, searchRun env node pos pData q calls = pre ++ call :: post →
        ExactCall (disc.matchingChildren env node.vol.nls q n) (deliveredBy pre) call := by
  rcases searchRun_cases env node pos pData q calls with hrun | ⟨r, calls', hdel, hrun⟩
  · rw [hrun]
    exact ⟨List.nil_prefix, fun pre call post hsplit => by simp at hsplit⟩
  · rw [hrun, ← hmatching]
    exact ⟨deliveredBy_cons_continued hdel calls', fun pre call post hsplit =>
      exactCall_of_split hdel hsplit⟩

/-- The only call of a search for a directory that there is not. -/
theorem searchRun_of_error {node : VolNode} {env : FindEnv} {pos pos' : ℕ} {q : Request}
    (hcheck : checkFindFirst env q = .NO_ERROR)
    (hsearched : searchedDir node.vol.toVolData env.sectorStack pos
      (splitPath (q.szName.drop 2)).1 = some (.error .ERROR_PATH_NOT_FOUND, pos'))
    (pData : Memory) (calls : List FindCall) :
    searchRun env node pos pData q calls = [⟨.ERROR_PATH_NOT_FOUND, q.cMatch, []⟩] := by
  have hfirst : fsFindFirst env node pos pData q =
      some (findFirstFails .ERROR_PATH_NOT_FOUND node pData q pos') := by
    unfold fsFindFirst
    simp only [hcheck, hsearched]
    rfl
  unfold searchRun
  simp only [hfirst]
  rfl

/-- A search on a disc delivers the nodes of its directory that match, in their order and none
twice: every call gives those that come next, and the end is reported when all have been given. A
path through directories that names none is reported. -/
theorem search_finds_children {node : VolNode}
    (hlevel : 1 ≤ node.vol.ucsLevel ∧ node.vol.ucsLevel ≤ 3)
    (h : disc.OnVolume place node.vol.toVolData) (env : FindEnv) (pos : ℕ) (pData : Memory)
    (q : Request) (calls : List FindCall) :
    let run := searchRun env node pos pData q calls
    (∀ n, disc.resolveDir node.vol.nls (splitPath (q.szName.drop 2)).1 = some n →
      let matching := disc.matchingChildren env node.vol.nls q n
      matching.Pairwise (· < ·) ∧
        (∀ i, i ∈ matching ↔ ∃ k, (disc.content n).children[i]? = some k ∧
          disc.wantsChild (newSearch env q []) node.vol.nls k = true) ∧
        deliveredBy run <+: matching ∧
        ∀ pre call post, run = pre ++ call :: post →
          ExactCall matching (deliveredBy pre) call) ∧
    (disc.PathThroughDirs node.vol.nls (splitPath (q.szName.drop 2)).1 →
      disc.resolveDir node.vol.nls (splitPath (q.szName.drop 2)).1 = none →
      checkFindFirst env q = .NO_ERROR →
        run = [⟨.ERROR_PATH_NOT_FOUND, q.cMatch, []⟩]) := by
  intro run
  refine ⟨fun n hn => ?_, fun hdirs hn hcheck => ?_⟩
  · obtain ⟨entries, pos', hsearched, hnamed⟩ :=
      searchedDir_of_some hlevel h hn env.sectorStack pos
    have hentries : searchedEntries env node pos q = entries := by
      unfold searchedEntries
      simp only [hsearched]
    have hmatching : (newSearch env q (searchedEntries env node pos q)).remaining =
        disc.matchingChildren env node.vol.nls q n := by
      rw [hentries]
      exact findIdxs_wants hnamed (newSearch env q entries) 0
    exact ⟨List.pairwise_findIdxs, fun i => mem_matchingChildren,
      deliveredBy_searchRun hmatching pData calls⟩
  · obtain ⟨pos', hsearched⟩ := searchedDir_of_none hlevel h hdirs hn env.sectorStack pos
    exact searchRun_of_error hcheck hsearched pData calls

/-- A search for the file in its directory. -/
def searchTwoNames : Request :=
  { (default : Request) with
    rq := .FSRQ_FINDFIRST, pVolData := 1, usLevel := FIL_STANDARD, cMatch := 1
    szName := [0x45, 0x3a, 0x2f, 0x42, 0x2f, 0x43] }

def plainFindEnv : FindEnv := ⟨true, 0, Memory.zeros, Memory.zeros⟩

theorem splitPath_searchTwoNames :
    (splitPath (searchTwoNames.szName.drop 2)).1 = [0x2f, 0x42] := by
  decide +kernel

theorem components_searchTwoNames :
    Components.components isPathSeparator [0x2f, 0x42] = [[0x42]] :=
  @Components.components_join _ isPathSeparator 0x2f rfl [[0x42]]
    (by simp [Components.IsComponent]; decide)

/-- The only file of `/B` is its third entry. -/
theorem search_finds_children_twoNames :
    deliveredBy (searchRun plainFindEnv twoNamesNode 0 Memory.zeros searchTwoNames
      [⟨.next, Memory.zeros, Memory.zeros, searchTwoNames⟩]) <+: [2] := by
  have hdir : twoNamesDisc.resolveDir none [0x2f, 0x42] = some 2 := by
    rw [Disc.resolveDir, components_searchTwoNames]
    decide +kernel
  have hmatching : twoNamesDisc.matchingChildren plainFindEnv none searchTwoNames 2 = [2] := by
    decide +kernel
  rw [← splitPath_searchTwoNames] at hdir
  have hfinds := (@search_finds_children _ _ _ twoNamesNode ⟨one_le_three, three_le_three⟩
    twoNamesDisc.onVolume_volume plainFindEnv 0 Memory.zeros searchTwoNames
    [⟨.next, Memory.zeros, Memory.zeros, searchTwoNames⟩]).1 2 hdir
  rw [← hmatching]
  exact hfinds.2.2.1

end Disc

end Isofs
