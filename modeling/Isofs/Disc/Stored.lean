import Isofs.Directory.Encoding
import Isofs.Library.FileSystem
import Isofs.Path.Prefixes

/-!
# File systems on an image

An image stores a file system when each file stands at its place and each directory has a record
for each of its named nodes. The path walks of `isoaccess.c` then find what the file system has
under the path.
-/

namespace Isofs

open Components FileSystem

/-- A file system with the names of directory records, and the recording date of each node. -/
structure Disc (ν : Type) extends FileSystem ν RecordName UInt8 where
  date : ν → RecordDate

/-- Where an image holds a node, and the size that its record gives. -/
structure Place where
  block : ℕ
  size : ℕ

/-- A path component fits a name, up to case. -/
def fitsName (nls : Option NlsTable) (component : List UInt8) (name : RecordName) : Bool :=
  (name.codepageName nls).length = component.length && equalNoCase (name.codepageName nls) component

namespace Disc

variable {ν : Type} (disc : Disc ν) (place : ν → Place)

/-- The record is that of a named node. -/
structure Records (item : DirItem) (k : RecordName × ν) : Prop where
  name : item.name = k.1
  extent : item.extent = (place k.2).block
  size : item.size = (place k.2).size
  isDir : item.isDir = (disc.content k.2).isDir
  date : item.date = disc.date k.2

/-- The image holds every node at its place. No directory lies in block 0. -/
structure Stored (f : IsoFile) : Prop where
  file : ∀ n bytes, disc.content n = .file bytes →
    (place n).size = bytes.length ∧ f.Holds (place n).block bytes
  dir : ∀ n children, disc.content n = .dir children →
    ∃ d : DirLayout, List.Forall₂ (disc.Records place) d.items children ∧
      (place n).size = 2048 * d.sectors.length ∧ f.Holds (place n).block d.bytes
  block_ne : ∀ n, (disc.content n).isDir = true → (place n).block ≠ 0

/-- The volume has the file system in its image, and the root of it as its root directory. -/
structure OnVolume (vol : VolData) : Prop where
  stored : disc.Stored place vol.isoFile
  isDir : (disc.content disc.root).isDir = true
  iRootExtent : vol.iRootExtent = (place disc.root).block
  rootRecordSize : rootRecordSize vol = (place disc.root).size
  iRootSize : vol.iRootSize = (place disc.root).size
  date : vol.ipd.slice (rootRecord + 18) 7 = (disc.date disc.root).1

/-- The entry is that of a node. -/
structure EntryOf (e : IsoDirEntry) (n : ν) : Prop where
  extent : e.iExtent = (place n).block
  size : e.iSize = (place n).size
  isDir : e.isDir = (disc.content n).isDir
  date : e.dateBuf.take 7 = (disc.date n).1

/-- The node that a path names. -/
def resolve (nls : Option NlsTable) (path : List UInt8) : Option ν :=
  lookup disc.toFileSystem (fitsName nls) disc.root (components isPathSeparator path)

/-- No component of the path follows one that names a file. -/
def PathThroughDirs (nls : Option NlsTable) (path : List UInt8) : Prop :=
  ThroughDirs disc.toFileSystem (fitsName nls) disc.root (components isPathSeparator path)

theorem throughDirs_of_resolve {disc : Disc ν} {nls : Option NlsTable} {path : List UInt8} {n : ν}
    (h : disc.resolve nls path = some n) : disc.PathThroughDirs nls path :=
  throughDirs_of_lookup h

/-- The directory that a path names. -/
def resolveDir (nls : Option NlsTable) (path : List UInt8) : Option ν :=
  lookupDir disc.toFileSystem (fitsName nls) disc.root (components isPathSeparator path)

variable {disc place} {vol : AttachedVolume}

/-- The entry lists a named node. -/
def Named (disc : Disc ν) (place : ν → Place) (nls : Option NlsTable) (e : IsoDirEntry)
    (k : RecordName × ν) : Prop :=
  e.chrName = k.1.codepageName nls ∧ disc.EntryOf place e k.2

theorem named_of_lists {nls : Option NlsTable} {e : IsoDirEntry} {item : DirItem}
    {k : RecordName × ν} (h : DirItem.Lists nls e item) (hk : disc.Records place item k) :
    disc.Named place nls e k :=
  ⟨h.name.trans (by rw [hk.name]), h.extent.trans (by rw [hk.extent]),
    h.size.trans (by rw [hk.size]), h.isDir.trans hk.isDir, h.date.trans (by rw [hk.date])⟩

theorem forall₂_named {nls : Option NlsTable} {entries : List IsoDirEntry} {items : List DirItem}
    {children : List (RecordName × ν)} (h : List.Forall₂ (DirItem.Lists nls) entries items)
    (hitems : List.Forall₂ (disc.Records place) items children) :
    List.Forall₂ (disc.Named place nls) entries children := by
  induction hitems generalizing entries with
  | nil =>
    cases h
    exact .nil
  | cons hk _ ih =>
    cases h with
    | cons he hrest => exact .cons (named_of_lists he hk) (ih hrest)

/-- The listing of a directory gives its named nodes. -/
theorem Stored.getDirEntries (h : disc.Stored place vol.isoFile) {n : ν}
    (hn : (disc.content n).isDir = true) (stack : Memory) (pos : ℕ) :
    ∃ entries pos', Isofs.getDirEntries vol.toVolData stack pos (place n).block (place n).size =
        some (entries, pos') ∧
      List.Forall₂ (disc.Named place vol.nls) entries (disc.content n).children := by
  cases hcontent : disc.content n with
  | file bytes =>
    rw [hcontent] at hn
    cases hn
  | dir children =>
    obtain ⟨d, hitems, hsize, hholds⟩ := h.dir n children hcontent
    obtain ⟨entries, pos', hlist, hall⟩ := d.getDirEntries_items hholds stack pos
    refine ⟨entries, pos', ?_, forall₂_named hall hitems⟩
    rw [hsize, ← hlist]
    rfl

/-- The component picks an entry as it picks the node that the entry lists. -/
theorem Named.matches {nls : Option NlsTable} {e : IsoDirEntry} {k : RecordName × ν}
    (h : disc.Named place nls e k) (component : List UInt8) :
    matchesComponent component e = fitsName nls component k.1 := by
  rw [matchesComponent, fitsName, h.1]

/-- A component leads from a directory to the first of its nodes that has this name. -/
theorem find?_child {nls : Option NlsTable} {entries : List IsoDirEntry} {n : ν}
    (h : List.Forall₂ (disc.Named place nls) entries (disc.content n).children)
    (component : List UInt8) :
    (entries.find? (matchesComponent component) = none ∧
        child disc.toFileSystem (fitsName nls) n component = none) ∨
      ∃ e m, entries.find? (matchesComponent component) = some e ∧
        child disc.toFileSystem (fitsName nls) n component = some m ∧ disc.EntryOf place e m := by
  rw [child]
  rcases @List.Forall₂.find?_cases _ _ _ (matchesComponent component)
    (fun k => fitsName nls component k.1) _ _ h fun e k hk => hk.matches component with
    ⟨hentry, hk⟩ | ⟨e, k, hentry, hk, hnamed⟩
  · exact Or.inl ⟨hentry, by rw [hk, Option.map_none]⟩
  · exact Or.inr ⟨e, k.2, hentry, by rw [hk, Option.map_some], hnamed.2⟩

/-! ### The walks -/

/-- A walk stands at a node: that is what it lists next and what it returns at the end of the
path. -/
structure StandsAt (disc : Disc ν) (place : ν → Place) (vol : VolData)
    (tempEntry : Option IsoDirEntry) (n : ν) : Prop where
  extent : (contentsOf vol tempEntry).1 = (place n).block
  size : (contentsOf vol tempEntry).2 = (place n).size
  entry : disc.EntryOf place (tempEntry.getD (rootEntry vol)) n

theorem EntryOf.standsAt {e : IsoDirEntry} {n : ν} (h : disc.EntryOf place e n) :
    disc.StandsAt place vol.toVolData (some e) n :=
  ⟨h.extent, h.size, h⟩

theorem OnVolume.standsAt_root (h : disc.OnVolume place vol.toVolData) :
    disc.StandsAt place vol.toVolData none disc.root := by
  refine ⟨h.iRootExtent, h.rootRecordSize, h.iRootExtent, h.iRootSize, h.isDir.symm, ?_⟩
  rw [← h.date]
  rfl

/-- The walk of `isoQueryIsoEntryFromPath` finds the node that the components lead to. -/
theorem entryWalk_lookup (hstored : disc.Stored place vol.isoFile) (stack : Memory)
    {cs : List (List UInt8)} {pos : ℕ} {tempEntry : Option IsoDirEntry} {n : ν}
    (hn : cs ≠ [] → (disc.content n).isDir = true)
    (hstands : disc.StandsAt place vol.toVolData tempEntry n)
    (hdirs : ThroughDirs disc.toFileSystem (fitsName vol.nls) n cs) :
    ∃ w, entryWalk vol.toVolData stack pos tempEntry cs = some w ∧
      Option.Rel (disc.EntryOf place) w.result
        (lookup disc.toFileSystem (fitsName vol.nls) n cs) := by
  induction cs generalizing pos tempEntry n with
  | nil => exact ⟨_, entryWalk.eq_1 .., .some hstands.entry⟩
  | cons c cs ih =>
    obtain ⟨entries, pos', hlist, hall⟩ :=
      hstored.getDirEntries (hn (List.cons_ne_nil c cs)) stack pos
    rw [← hstands.extent, ← hstands.size] at hlist
    rw [entryWalk_cons hlist]
    rw [ThroughDirs] at hdirs
    rcases find?_child hall c with ⟨hentry, hchild⟩ | ⟨e, m, hentry, hchild, he⟩
    · rw [hentry, lookup_cons_of_none hchild]
      exact ⟨_, rfl, .none⟩
    · obtain ⟨hdir, hrest⟩ := hdirs m hchild
      obtain ⟨w, hw, hresult⟩ := @ih pos' _ _ hdir he.standsAt hrest
      rw [hentry, lookup_cons_of_some hchild]
      exact ⟨w.after tempEntry, by simp only [hw, Option.map_some], hresult⟩

/-- A path is resolved to the entry of the node that it names, if no component follows one that
names a file. -/
theorem isoQueryIsoEntryFromPath_resolve (h : disc.OnVolume place vol.toVolData) {path : List UInt8}
    (hdirs : disc.PathThroughDirs vol.nls path) (stack : Memory) (pos : ℕ) :
    ∃ w, isoQueryIsoEntryFromPath vol.toVolData stack pos path = some w ∧
      Option.Rel (disc.EntryOf place) w.result (disc.resolve vol.nls path) := by
  rw [isoQueryIsoEntryFromPath, entryLoop_eq_entryWalk]
  exact entryWalk_lookup h.stored stack (fun _ => h.isDir) h.standsAt_root hdirs

/-- What `isoQueryDirExtentFromPath` gives for a directory, or for none. -/
def extentResult (place : ν → Place) (pSize : Bool) : Option ν → ℤ × Option ℤ
  | none => (0, none)
  | some n => ((place n).block, if pSize then some ((place n).size : ℤ) else none)

/-- The walk of `isoQueryDirExtentFromPath` finds the directory that the components lead to. At the
root `iExtent` is zero, and `iSize` is asked for only with `pSize`. -/
theorem dirExtentWalk_lookupDir (h : disc.OnVolume place vol.toVolData) (stack : Memory)
    (pSize : Bool) {cs : List (List UInt8)} {pos : ℕ} {found : Option IsoDirEntry}
    {iExtent iSize : ℤ} {n : ν} (hn : (disc.content n).isDir = true)
    (hroot : iExtent = 0 → n = disc.root ∧ (pSize = true → iSize = vol.iRootSize))
    (hdir : iExtent ≠ 0 → iExtent = (place n).block ∧ iSize = (place n).size) :
    ∃ v, dirExtentWalk vol.toVolData stack vol.iRootExtent pos found iExtent iSize cs = some v ∧
      dirExtentResult pSize v.result =
        extentResult place pSize (lookupDir disc.toFileSystem (fitsName vol.nls) n cs) := by
  induction cs generalizing pos found iExtent iSize n with
  | nil =>
    refine ⟨_, dirExtentWalk.eq_1 .., ?_⟩
    rw [lookupDir, extentResult, dirExtentResult]
    by_cases hzero : iExtent = 0
    · obtain ⟨rfl, hsize⟩ := hroot hzero
      rw [if_pos hzero, h.iRootExtent]
      cases pSize with
      | false => rfl
      | true => rw [hsize rfl, h.iRootSize]
    · obtain ⟨hextent, hsize⟩ := hdir hzero
      rw [if_neg hzero, hextent, hsize]
  | cons c cs ih =>
    obtain ⟨entries, pos', hlist, hall⟩ := h.stored.getDirEntries hn stack pos
    obtain ⟨source, hturn⟩ : ∃ source, (if iExtent = 0 then
        (vol.iRootExtent, Isofs.rootRecordSize vol.toVolData, none) else (iExtent, iSize, found)) =
        (((place n).block : ℤ), ((place n).size : ℤ), source) := by
      by_cases hzero : iExtent = 0
      · obtain ⟨rfl, -⟩ := hroot hzero
        exact ⟨none, by rw [if_pos hzero, h.iRootExtent, h.rootRecordSize]⟩
      · obtain ⟨hextent, hsize⟩ := hdir hzero
        exact ⟨found, by rw [if_neg hzero, hextent, hsize]⟩
    rw [dirExtentWalk, hturn]
    simp only [hlist]
    rcases find?_child hall c with ⟨hentry, hchild⟩ | ⟨e, m, hentry, hchild, he⟩
    · rw [lookupDir, hentry, hchild]
      exact ⟨_, rfl, rfl⟩
    · rw [lookupDir, hentry, hchild]
      by_cases hm : (disc.content m).isDir = true
      · have hblock := h.stored.block_ne m hm
        obtain ⟨v, hv, hresult⟩ := @ih pos' (some e) e.iExtent e.iSize _ hm
          (fun hzero => absurd (he.extent.symm.trans hzero) (by omega))
          fun _ => ⟨he.extent, he.size⟩
        simp only [he.isDir, hm, if_true, hv, Option.map_some]
        exact ⟨_, rfl, hresult⟩
      · simp only [he.isDir, hm]
        exact ⟨_, rfl, rfl⟩

/-- The extent of a directory is found under its path, and no other is. -/
theorem isoQueryDirExtentFromPath_resolveDir (h : disc.OnVolume place vol.toVolData)
    (path : List UInt8) (stack : Memory) (pos : ℕ) (pSize : Bool) :
    ∃ v, isoQueryDirExtentFromPath vol.toVolData stack pos vol.iRootExtent path pSize = some v ∧
      v.result = extentResult place pSize (disc.resolveDir vol.nls path) := by
  obtain ⟨v, hv, hresult⟩ := @dirExtentWalk_lookupDir _ _ _ _ h stack pSize
    (components isPathSeparator path) pos none 0 (if pSize then vol.iRootSize else 0) _ h.isDir
    (fun _ => ⟨rfl, fun hsize => by rw [if_pos hsize]⟩) fun hne => absurd rfl hne
  rw [isoQueryDirExtentFromPath, dirExtentLoop_eq_dirExtentWalk, hv]
  exact ⟨_, rfl, hresult⟩

end Disc

end Isofs
