import Isofs.Daemon.Sessions
import Isofs.Disc.Writer

/-!
# Using a disc

What the programs find on a volume that has a file system: its paths, its directories and the bytes
of its files. A disc that was written is mounted as such a volume.
-/

namespace Isofs

/-! ### A disc -/

/-- The name of one letter. -/
def letter (c : UInt8) : RecordName := .chars [(0, c)] (Nat.le_of_ble_eq_true rfl)

/-- A disc with the file `A` of two bytes, which is also `C` in the directory `B`. -/
def twoNamesDisc : WritableDisc 3 where
  root := 0
  content
    | 0 => .dir [(.self, 0), (.parent, 0), (letter 0x41, 1), (letter 0x42, 2)]
    | 1 => .file [0x68, 0x69]
    | 2 => .dir [(.self, 2), (.parent, 0), (letter 0x43, 1)]
  date _ := ⟨List.replicate 7 0, List.length_replicate⟩
  session := 0
  before := List.replicate 32768 0
  volumeId := List.replicate 32 0x44
  length_before := List.length_replicate
  length_volumeId := List.length_replicate
  isDir_root := rfl
  blocks_lt := by decide +kernel

/-- The volume of a written disc, without a translation table. -/
def WritableDisc.volume {k : ℕ} (d : WritableDisc k) : AttachedVolume where
  isoFile := d.image
  ipd := descriptor d.image d.session 1
  iRootExtent := isonum733 (descriptor d.image d.session 1) (rootRecord + 2)
  iRootSize := isonum733 (descriptor d.image d.session 1) (rootRecord + 10)
  ucsLevel := 3
  nls := none
  ucsLevel_pos := one_le_three
  ucsLevel_le := three_le_three

theorem WritableDisc.onVolume_volume {k : ℕ} (d : WritableDisc k) :
    d.OnVolume d.place d.volume.toVolData :=
  d.onVolume rfl rfl rfl rfl

theorem components_twoNames :
    Components.components isPathSeparator [0x2f, 0x42, 0x2f, 0x43] = [[0x42], [0x43]] :=
  @Components.components_join _ isPathSeparator 0x2f rfl [[0x42], [0x43]]
    (by simp [Components.IsComponent]; decide)

/-- The path `/B/C` names the file. -/
theorem resolve_twoNames : twoNamesDisc.resolve none [0x2f, 0x42, 0x2f, 0x43] = some 1 := by
  rw [Disc.resolve, components_twoNames]
  decide +kernel

theorem throughDirs_twoNames : twoNamesDisc.PathThroughDirs none [0x2f, 0x42, 0x2f, 0x43] := by
  have hb : FileSystem.child twoNamesDisc.toFileSystem (fitsName none) 0 [0x42] = some 2 := by
    decide +kernel
  rw [Disc.PathThroughDirs, components_twoNames]
  intro m hm
  obtain rfl := Option.some.inj (hb.symm.trans hm)
  exact ⟨fun _ => rfl, fun m _ => ⟨fun hne => absurd rfl hne, trivial⟩⟩

namespace Disc

variable {ν : Type} {disc : Disc ν} {place : ν → Place}

/-- Both path walks find what the file system has under a path, and the listing of a directory
gives its named nodes. -/
theorem paths_resolve {vol : AttachedVolume} (h : disc.OnVolume place vol.toVolData)
    (path : List UInt8) (stack : Memory) (pos : ℕ) :
    (disc.PathThroughDirs vol.nls path →
      ∃ w, isoQueryIsoEntryFromPath vol.toVolData stack pos path = some w ∧
        Option.Rel (disc.EntryOf place) w.result (disc.resolve vol.nls path)) ∧
    (∀ pSize, ∃ v,
      isoQueryDirExtentFromPath vol.toVolData stack pos vol.iRootExtent path pSize = some v ∧
        v.result = extentResult place pSize (disc.resolveDir vol.nls path)) ∧
    (∀ n, disc.resolveDir vol.nls path = some n ↔
      disc.resolve vol.nls path = some n ∧ disc.PathThroughDirs vol.nls path ∧
        (disc.content n).isDir = true) ∧
    ∀ n, disc.resolveDir vol.nls path = some n →
      ∃ entries pos', getDirEntries vol.toVolData stack pos (place n).block (place n).size =
          some (entries, pos') ∧
        List.Forall₂ (disc.Named place vol.nls) entries (disc.content n).children := by
  have hdir (n : ν) : disc.resolveDir vol.nls path = some n ↔
      disc.resolve vol.nls path = some n ∧ disc.PathThroughDirs vol.nls path ∧
        (disc.content n).isDir = true := FileSystem.lookupDir_eq_some_iff h.isDir
  exact ⟨fun hdirs => isoQueryIsoEntryFromPath_resolve h hdirs stack pos,
    isoQueryDirExtentFromPath_resolveDir h path stack pos, hdir,
    fun n hn => h.stored.getDirEntries ((hdir n).mp hn).2.2 stack pos⟩

theorem paths_resolve_twoNames :
    ∃ w, isoQueryIsoEntryFromPath twoNamesDisc.volume.toVolData Memory.zeros 0
        [0x2f, 0x42, 0x2f, 0x43] = some w ∧
      Option.Rel (twoNamesDisc.EntryOf twoNamesDisc.place) w.result (some 1) := by
  rw [← resolve_twoNames]
  exact (paths_resolve twoNamesDisc.onVolume_volume [0x2f, 0x42, 0x2f, 0x43] Memory.zeros 0).1
    throughDirs_twoNames

/-! ### Files -/

/-- A request opens a file of the disc for reading. -/
structure OpensFile (disc : Disc ν) (node : VolNode) (r : Daemon.Posted) (bytes : List UInt8) :
    Prop where
  rq : r.request.rq = .FSRQ_OPENCREATE
  mode : Daemon.OpensToRead r.request
  malloc : r.env.malloc = true
  names : ∃ n, disc.resolve node.vol.nls (r.request.szName.drop 2) = some n ∧
    disc.content n = .file bytes

/-- The size in the entry of a stored file. -/
theorem Stored.toNat_size {f : IsoFile} (h : disc.Stored place f) {n : ν} {bytes : List UInt8}
    (hn : disc.content n = .file bytes) :
    (UInt32.ofInt ((place n).size : ℤ)).toNat = bytes.length := by
  obtain ⟨hsize, hholds⟩ := h.file n bytes hn
  have hlt := f.size_lt
  have hle : bytes.length < 2 ^ 32 := by
    by_cases hnil : bytes = []
    · rw [hnil]
      decide
    · have hend := hholds.length_le hnil
      omega
  have hint := toNat_ofInt (Int.natCast_nonneg bytes.length) (by omega)
  rw [hsize]
  omega

/-- Behind the open of a stored file its session is one of its bytes, from their start on. -/
theorem Stored.follows {vol : MountedVolume} (h : disc.Stored place vol.isoFile) {n : ν}
    {bytes : List UInt8} (hn : disc.content n = .file bytes) {e : IsoDirEntry}
    (he : disc.EntryOf place e n) {v : Ptr} {t : Daemon.State}
    (hleaves : Daemon.OpenLeaves v vol e t) :
    Daemon.Session.Follows v t.request.pOpenFileData vol bytes (place n).block
        ⟨t, t.request.sffsi⟩ ∧
      t.request.sffsi.sfiSize.toNat = bytes.length ∧
      fileCursor bytes t.request.sffsi = ⟨bytes, 0⟩ := by
  obtain ⟨⟨file, hhas, hextent⟩, hsize, hposition⟩ := hleaves
  have hlength : t.request.sffsi.sfiSize.toNat = bytes.length := by
    rw [hsize, he.size]
    exact h.toNat_size hn
  refine ⟨⟨(h.file n bytes hn).2, file, hhas, hextent.trans he.extent, hlength⟩, hlength, ?_⟩
  rw [fileCursor, hposition]
  rfl

/-- A file that is opened by its path is read as its bytes: until its final close or the detach of
its volume the reads of its owner give what a cursor in the bytes gives, whatever requests are made
between them. Without seeks they give the file from its start on. -/
theorem opened_file_reads {s : Daemon.State} {r : Daemon.Posted} {node : VolNode}
    {bytes : List UInt8} (hnode : s.core.volumes r.request.pVolData = some node)
    (hlevel : 1 ≤ node.vol.ucsLevel ∧ node.vol.ucsLevel ≤ 3)
    (h : disc.OnVolume place node.vol.toVolData) (hr : disc.OpensFile node r bytes) :
    ∃ t, Daemon.serveAny s r = (.ret .NO_ERROR, t) ∧
      t.request.sffsi.sfiSize.toNat = bytes.length ∧ t.request.sffsi.sfiPosition = 0 ∧
      ∀ ts : List Daemon.Turn,
      Daemon.Session.Fits r.request.pVolData t.request.pOpenFileData ⟨t, t.request.sffsi⟩ ts →
        let given := Daemon.Session.answers r.request.pVolData t.request.pOpenFileData
          ⟨t, t.request.sffsi⟩ ts
        given = Daemon.cursorGives ⟨bytes, 0⟩ ts ∧
          ((∀ turn ∈ ts, turn.isStraight = true) →
            (given.map Prod.snd).flatten = bytes.take (ts.flatMap Daemon.Turn.asked).sum) := by
  obtain ⟨n, hn, hcontent⟩ := hr.names
  obtain ⟨w, hwalk, hresult⟩ := @isoQueryIsoEntryFromPath_resolve _ disc place
    ⟨node.vol.toVolData, hlevel.1, hlevel.2⟩ h _ (throughDirs_of_resolve hn) r.env.sectorStack
    r.env.pos
  rw [hn] at hresult
  cases hfound : w.result with
  | none =>
    rw [hfound] at hresult
    cases hresult
  | some e =>
    rw [hfound] at hresult
    obtain ⟨he⟩ := hresult
    have hfile : e.isDir = false := by
      rw [he.isDir, hcontent]
      rfl
    obtain ⟨t, ht, hleaves⟩ := Daemon.serveAny_openCreate hr.rq hr.malloc hr.mode hnode hlevel.2
      hwalk hfound hfile
    obtain ⟨hfollows, hlength, hcursor⟩ := h.stored.follows hcontent he hleaves
    refine ⟨t, ht, hlength, hleaves.position, fun ts hts => ?_⟩
    have hgiven := (hfollows.answers hts).1
    rw [hcursor] at hgiven
    refine ⟨hgiven, fun hstraight => ?_⟩
    rw [hgiven, Daemon.flatten_cursorGives hstraight]
    rfl

/-- The volume of the disc, mounted. -/
def twoNamesNode : VolNode where
  vol :=
    { twoNamesDisc.volume.toVolData with
      chDrive := 0x45, fReadOnly := true, fileName := [], chrCDName := [], iSectorOffset := 0
      szCharSet := [] }
  cOpenFiles := 0
  cSearches := 0
  pNext := 0
  pPrev := 0

/-- A daemon with the volume at address 1. -/
def twoNamesDaemon : Daemon.State :=
  { Daemon.initial with server := ⟨1, ((Heap.empty).malloc twoNamesNode).2, 1, 0⟩ }

/-- The open of the file. -/
def openTwoNames : Daemon.Posted where
  request :=
    { (default : Request) with
      rq := .FSRQ_OPENCREATE, pVolData := 1, fsOpenFlag := OPEN_ACTION_OPEN_IF_EXISTS
      szName := [0x45, 0x3a, 0x2f, 0x42, 0x2f, 0x43] }
  pData := Memory.zeros
  env := Daemon.jolietRequestEnv
  control := Daemon.plainControl
  sizes := ⟨18, 17, 13⟩

theorem opensFile_twoNames : twoNamesDisc.OpensFile twoNamesNode openTwoNames [0x68, 0x69] where
  rq := rfl
  mode := ⟨by decide, by decide, by decide, by decide⟩
  malloc := rfl
  names := ⟨1, resolve_twoNames, rfl⟩

/-- A read of five bytes gives the two that there are. -/
theorem opened_file_reads_twoNames : ∃ t, Daemon.serveAny twoNamesDaemon openTwoNames =
      (.ret .NO_ERROR, t) ∧
    Daemon.Session.answers 1 t.request.pOpenFileData ⟨t, t.request.sffsi⟩ [.read 5 openTwoNames] =
      [(.ret .NO_ERROR, [0x68, 0x69])] := by
  obtain ⟨t, ht, hsize, hposition, hreads⟩ := opened_file_reads (s := twoNamesDaemon) rfl
    ⟨one_le_three, three_le_three⟩ twoNamesDisc.onVolume_volume opensFile_twoNames
  refine ⟨t, ht, (hreads [.read 5 openTwoNames] ⟨?_, trivial⟩).1⟩
  show t.request.sffsi.sfiPosition.toNat ≤ t.request.sffsi.sfiSize.toNat
  rw [hposition, hsize]
  decide

end Disc

/-! ### Writing and mounting -/

/-- The table for the characters of a volume that is attached with these parameters. -/
def attachedNls (env : MountEnv) (pData : Memory) : Option NlsTable :=
  (loadTable env (charSetParm pData)).2

namespace WritableDisc

variable {k : ℕ} (d : WritableDisc k)

/-- The volume name stands in the primary descriptor. -/
theorem slice_volumeId : (descriptor d.image d.session 0).slice 40 32 = d.volumeId := by
  have h := d.holdsAt_primary
  rw [primary, descriptorHead] at h
  simp only [Memory.holdsAt_append] at h
  have hslice := h.1.1.1.2.slice
  rw [d.length_volumeId] at hslice
  exact hslice

/-- What `FS_FSINFO` gives of the volume: as many units as there are blocks, of 2048 bytes each. -/
theorem fsAllocate_supplementary {vol : VolData} (hipd : vol.ipd = descriptor d.image d.session 1) :
    fsAllocate vol = Memory.le32Bytes 0 ++ Memory.le32Bytes 1 ++
      Memory.le32Bytes (d.bytes.length / 2048) ++ Memory.le32Bytes 0 ++ le16Bytes 2048 := by
  have h := d.holdsAt_supplementary
  rw [← hipd] at h
  simp only [supplementary, Memory.holdsAt_append, length_descriptorHead] at h
  have hlow : vol.ipd 128 = 0 := h.1.1.2 40 (by decide)
  have hhigh : vol.ipd 129 = 8 := h.1.1.2 41 (by decide)
  have hhead := h.1.1.1
  rw [descriptorHead, Memory.holdsAt_append] at hhead
  have hunits := DirItem.isonum733_bothEndian (by
    have hlt := d.blocks_lt
    rw [counts]
    omega) hhead.2
  simp only [List.length_append, List.length_replicate, d.length_volumeId] at hunits
  have hblocks : (isonum733 vol.ipd 80 % 2 ^ 32).toNat = d.bytes.length / 2048 := by
    have hlength := d.length_bytes
    have hlt := d.blocks_lt
    rw [counts] at hlength hunits
    refine (congrArg (fun x : ℤ => (x % 2 ^ 32).toNat) hunits).trans ?_
    omega
  rw [fsAllocate, hblocks, isonum723, hlow, hhigh]
  rfl

/-- The volume has the file system of the disc. -/
structure MountedAs (nls : Option NlsTable) (vol : MountedVolume) : Prop where
  nls : vol.nls = nls
  level : 1 ≤ vol.ucsLevel ∧ vol.ucsLevel ≤ 3
  onVolume : d.OnVolume d.place vol.toVolData

theorem mountedAs_mountedVolume {env : MountEnv} {pData : Memory} {szDev : List UInt8}
    {scan : ScanState} (hscan : scan.ipd = descriptor d.image d.session 1) :
    d.MountedAs (attachedNls env pData) (mountedVolume env pData szDev d.image scan) := by
  have hlevel : (mountedVolume env pData szDev d.image scan).ucsLevel = 3 := by
    have hescape := d.escapeSequence_supplementary (i := 2) (by decide)
    rw [ucsLevel_mountedVolume, hscan, hescape]
    rfl
  refine ⟨rfl, by omega, d.onVolume rfl ?_ rfl rfl⟩
  rw [← hscan]
  rfl

/-- A disc that was written is mounted with a volume that has its file system: every directory
lists what was put into it, and every file is read as its bytes. The volume has the name and the
size of the disc. -/
theorem written_disc_mounts {env : MountEnv} {fuel : ℕ} {pData : Memory} {pattach : Request}
    {server : ServerData} (hcheck : checkAttachParms pattach.cbParm pData = .NO_ERROR)
    (hmalloc : env.malloc = true) (hopen : env.fopen (cString (szBasePath pData)) = some d.image)
    (hoffset : iOffsetParm pData = d.session) (hfuel : 1 ≤ fuel) :
    ∃ (vol : MountedVolume) (server' : ServerData),
      attachVolume env fuel pData pattach server =
        some (.NO_ERROR, { pattach with pVolData := server.volumes.next }, server') ∧
      server'.pFirstVolume = server.volumes.next ∧
      (server'.volumes.objects server.volumes.next).map VolNode.vol = some vol ∧
      d.OnVolume d.place vol.toVolData ∧ vol.chrCDName = d.volumeId ∧
      fsAllocate vol.toVolData = Memory.le32Bytes 0 ++ Memory.le32Bytes 1 ++
        Memory.le32Bytes (d.bytes.length / 2048) ++ Memory.le32Bytes 0 ++ le16Bytes 2048 ∧
      ∀ (n : Fin k) (stack : Memory) (pos : ℕ),
        (∀ children, d.content n = .dir children →
          ∃ entries pos', getDirEntries vol.toVolData stack pos (d.place n).block (d.place n).size =
              some (entries, pos') ∧
            List.Forall₂ (d.Named d.place vol.nls) entries children) ∧
        ∀ bytes, d.content n = .file bytes → ∀ (pData : Memory) (pread : ReadParams),
          FileOf bytes (d.place n).block pread.iExtent pread.sffsi →
          (fileCursor bytes pread.sffsi).pos ≤ bytes.length →
            ReadsCursor (fileCursor bytes pread.sffsi) pread.cbLen.toNat
              (fsRead vol.toVolData stack pos pData pread) := by
  have hfirst : FirstJoliet d.image (iOffsetParm pData) 1 := hoffset ▸ d.firstJoliet
  obtain ⟨scan, hscan, hattach⟩ := @attachVolume_of_joliet _ _ _ pattach server _ _ hcheck hmalloc
    hopen hfirst hfuel
  rw [hoffset] at hscan
  obtain ⟨vol, hvol⟩ : ∃ vol, vol = mountedVolume env pData pattach.szDev d.image scan := ⟨_, rfl⟩
  rw [← hvol] at hattach
  have hipd : vol.ipd = descriptor d.image d.session 1 := by
    rw [hvol, ← hscan]
    rfl
  have hmounted : d.MountedAs (attachedNls env pData) vol :=
    hvol ▸ d.mountedAs_mountedVolume hscan
  have hon := hmounted.onVolume
  have hname : vol.chrCDName = d.volumeId := by
    -- the name is taken from the first descriptor that is read
    have hzero := (hfirst.1.mono (Nat.zero_le 1)).iterate (iOffsetParm_nonneg hcheck)
    have hslice := d.slice_volumeId
    rw [← hoffset, ← hzero] at hslice
    rw [hvol]
    exact hslice
  refine ⟨vol, _, hattach, rfl, ?_, hon, hname, d.fsAllocate_supplementary hipd, fun n stack pos =>
    ⟨fun children hn => ?_, fun bytes hn pData pread hof hpos => ?_⟩⟩
  · exact vol_mount env pData server vol
  · obtain ⟨entries, pos', hlist, hnamed⟩ := @Disc.Stored.getDirEntries _ _ _
      ⟨vol.toVolData, hmounted.level.1, hmounted.level.2⟩ hon.stored n (by rw [hn]; rfl) stack pos
    rw [hn] at hnamed
    exact ⟨entries, pos', hlist, hnamed⟩
  · exact fsRead_readsCursor (hon.stored.file n bytes hn).2 hof hpos stack pos pData

theorem written_disc_mounts_twoNames : ∃ (vol : MountedVolume) (server' : ServerData),
    attachVolume { jolietEnv with fopen := fun _ => some twoNamesDisc.image } 1 attachParms
        Daemon.attachRequest.request Daemon.initial.server =
      some (.NO_ERROR, { Daemon.attachRequest.request with pVolData := 1 }, server') ∧
    (server'.volumes.objects 1).map VolNode.vol = some vol ∧
      twoNamesDisc.OnVolume twoNamesDisc.place vol.toVolData := by
  obtain ⟨vol, server', hattach, -, hvol, hon, -⟩ := @written_disc_mounts _ twoNamesDisc
    { jolietEnv with fopen := fun _ => some twoNamesDisc.image } 1 attachParms
    Daemon.attachRequest.request Daemon.initial.server checkAttachParms_attachParms rfl rfl
    iOffsetParm_attachParms (Nat.le_refl 1)
  exact ⟨vol, server', hattach, hvol, hon⟩

end WritableDisc

end Isofs
