import Isofs.Disc.Access
import Isofs.Stub.Sessions

/-!
# Using a disc through the driver

What a program gets of the files of a disc: the entry points of the driver, the daemon behind them
and the image together.
-/

namespace Isofs

namespace Stub

open Proc

namespace OpenCall

variable {ν : Type} {disc : Disc ν} {place : ν → Place} {w : Wiring} {o : OpenCall} {f : OpenFile}
  {s : StubState Daemon.State} {node : VolNode}

/-- The open of the daemon is answered, and when it is granted, it has opened the file of a path. -/
theorem posted_answer
    (hnode : s.daemon.core.volumes (w.stub.queryVPFSD o.cdfsi.cdiHVPB) = some node)
    (hlevel : node.vol.ucsLevel ≤ 3) :
    (∃ rc, (Daemon.serveAny s.daemon (o.posted w f s)).1 = .ret rc) ∧
      ((Daemon.serveAny s.daemon (o.posted w f s)).1 = .ret .NO_ERROR → ∃ found e,
        isoQueryIsoEntryFromPath node.vol.toVolData w.daemonEnv.sectorStack w.daemonEnv.pos
          (o.pszName.drop 2) = some found ∧ found.result = some e ∧ e.isDir = false ∧
        Daemon.OpenLeaves (w.stub.queryVPFSD o.cdfsi.cdiHVPB) node.vol e
          (Daemon.serveAny s.daemon (o.posted w f s)).2 ∧
        (Daemon.serveAny s.daemon (o.posted w f s)).2.request.sffsi.sfiType =
          (f.sffsi.sfiType &&& STYPE_FCB) ||| STYPE_FILE) := by
  have hserve := Daemon.serveAny_of_openCreate (r := o.posted w f s) rfl s.daemon
  obtain ⟨hanswered, hgranted⟩ := Ends.run (@Daemon.fsOpenCreate_answer w.daemonEnv
    { s.daemon with request := (o.posted w f s).request, pData := (o.posted w f s).pData }
    node hnode hlevel)
  have hopened := Ends.run (@Daemon.fsOpenCreate_opened w.daemonEnv
    { s.daemon with request := (o.posted w f s).request, pData := (o.posted w f s).pData })
  rw [hserve]
  refine ⟨hanswered, fun hok => ?_⟩
  obtain ⟨found, e, hwalk, hfound, hfile, hleaves⟩ := hgranted hok
  exact ⟨found, e, hwalk, hfound, hfile, hleaves, (hopened hok).sfiType⟩

/-- An open that succeeds on a disc opens the file that its path names. -/
theorem session_follows
    (hnode : s.daemon.core.volumes (w.stub.queryVPFSD o.cdfsi.cdiHVPB) = some node)
    (hlevel : 1 ≤ node.vol.ucsLevel ∧ node.vol.ucsLevel ≤ 3)
    (h : disc.OnVolume place node.vol.toVolData)
    (hthrough : disc.PathThroughDirs node.vol.nls (o.pszName.drop 2))
    (htype : f.sffsi.sfiType &&& STYPE_FCB = 0) (hopen : (o.run w f s).1 = .NO_ERROR) :
    ∃ n bytes, disc.resolve node.vol.nls (o.pszName.drop 2) = some n ∧
      disc.content n = .file bytes ∧
      (o.session w f s).file.sffsi.sfiSize.toNat = bytes.length ∧
      (o.session w f s).file.sffsi.sfiPosition = 0 ∧
      (o.session w f s).atDaemon.Follows (w.stub.queryVPFSD o.cdfsi.cdiHVPB)
        (o.session w f s).file.sffsd node.vol bytes (place n).block ∧
      fileCursor bytes (o.session w f s).file.sffsi = ⟨bytes, 0⟩ := by
  obtain ⟨hanswered, hgranted⟩ := @posted_answer w o f s node hnode hlevel.2
  obtain ⟨hok, hsession⟩ := o.granted_of_run hopen hanswered
  obtain ⟨found, e, hwalk, hfound, hfile, hleaves, htype'⟩ := hgranted hok
  generalize (Daemon.serveAny s.daemon (o.posted w f s)).2 = d at hsession hleaves htype'
  have hpassed : passedOn f d.request = ⟨d.request.sffsi, d.request.pOpenFileData⟩ := by
    rw [passedOn, if_pos (htype'.trans (by rw [htype]; rfl))]
  rw [hpassed] at hsession
  obtain ⟨found', hwalk', hresult⟩ := @Disc.isoQueryIsoEntryFromPath_resolve _ disc place
    ⟨node.vol.toVolData, hlevel.1, hlevel.2⟩ h _ hthrough w.daemonEnv.sectorStack w.daemonEnv.pos
  obtain rfl := Option.some.inj (hwalk.symm.trans hwalk')
  rw [hfound] at hresult
  cases hn : disc.resolve node.vol.nls (o.pszName.drop 2) with
  | none =>
    rw [hn] at hresult
    cases hresult
  | some n =>
    rw [hn] at hresult
    obtain ⟨he⟩ := hresult
    cases hcontent : disc.content n with
    | dir children =>
      have hdir := he.isDir
      rw [hfile, hcontent] at hdir
      cases hdir
    | file bytes =>
      obtain ⟨hfollows, hlength, hcursor⟩ := h.stored.follows hcontent he hleaves
      rw [hsession]
      exact ⟨n, bytes, rfl, hcontent, hlength, hleaves.position, hfollows, hcursor⟩

/-- An open that succeeds on a disc opens the file that its path names, and what is read of it
through the driver are its bytes: until the final close or the detach of the volume every `FS_READ`
of the owner gets to its memory what a cursor in the bytes gives, whatever requests are made between
the reads. -/
theorem driver_reads_file
    (hnode : s.daemon.core.volumes (w.stub.queryVPFSD o.cdfsi.cdiHVPB) = some node)
    (hlevel : 1 ≤ node.vol.ucsLevel ∧ node.vol.ucsLevel ≤ 3)
    (h : disc.OnVolume place node.vol.toVolData)
    (hthrough : disc.PathThroughDirs node.vol.nls (o.pszName.drop 2))
    (htype : f.sffsi.sfiType &&& STYPE_FCB = 0) (hopen : (o.run w f s).1 = .NO_ERROR) :
    ∃ n bytes, disc.resolve node.vol.nls (o.pszName.drop 2) = some n ∧
      disc.content n = .file bytes ∧
      (o.session w f s).file.sffsi.sfiSize.toNat = bytes.length ∧
      (o.session w f s).file.sffsi.sfiPosition = 0 ∧
      ∀ ts : List FileTurn,
        (o.session w f s).Fits (w.stub.queryVPFSD o.cdfsi.cdiHVPB) ts →
          (o.session w f s).answers ts = driverGives ⟨bytes, 0⟩ ts := by
  obtain ⟨n, bytes, hn, hcontent, hsize, hposition, hfollows, hcursor⟩ :=
    session_follows hnode hlevel h hthrough htype hopen
  refine ⟨n, bytes, hn, hcontent, hsize, hposition, fun ts hts => ?_⟩
  rw [DriverSession.answers_of_follows hfollows hts, hcursor]

/-- An open without extended attributes that the daemon grants succeeds. -/
theorem run_of_granted (hacquires : Acquires w.stub) (hsignalled : Signalled w.stub)
    (hreleases : w.stub.releaseSem = .NO_ERROR) (hname : o.pszName.length < CCHMAXPATH)
    (hEAs : o.pEABuf = none)
    (hgranted : (Daemon.serveAny s.daemon (o.posted w f s)).1 = .ret .NO_ERROR) :
    (o.run w f s).1 = .NO_ERROR := by
  have hfilled : o.Filled w.stub s.caller := ⟨hname, by rw [hEAs]; rfl⟩
  refine Ends.run (Q := fun _ _ => False)
    (R := fun (rc : ApiRet) (_ : StubState Daemon.State) => rc = .NO_ERROR) ?_
  rw [body_eq]
  refine exchange_served rfl (fun h => absurd hacquires h) (o.fill_silent _)
    (o.fill_prepared.consequence (fun _ h => h) (fun _ _ h => h)
      fun _ _ h => absurd hfilled (o.not_filled h.1)) (fun h => absurd hsignalled h) fun t ht => ?_
  have hrc : exitCode w.stub t.pRequest.rc = .NO_ERROR := by
    rw [exitCode, if_neg (not_not.mpr hreleases), ht.request]
    show (Link.reply (Daemon.serveAny s.daemon (o.posted w f s)).1 _).rc = _
    rw [hgranted]
    rfl
  have hrest {u : StubState Daemon.State} (hu : u.pRequest = t.pRequest) :
      Ends (o.rest w.stub) (fun rc _ => exitCode w.stub rc = .NO_ERROR)
        (fun rc _ => rc = .NO_ERROR) u := by
    rw [rest, hEAs]
    refine Ends.bind (Ends.of_ok rfl (Ends.bind (Ends.update (Ends.bind (Ends.of_ok rfl
      (Ends.bind (Ends.update (Ends.of_ok rfl ?_))))))))
    show exitCode w.stub u.pRequest.rc = _
    rw [hu, hrc]
  exact Ends.bind (Ends.of_ok rfl (Ends.bind (Ends.update (Ends.bind (Ends.of_ok rfl
    (Ends.bind (Ends.onlyIf (fun _ => Ends.update (hrest rfl)) fun _ => hrest rfl)))))))

/-- An open to read of a path that names a file of the disc succeeds. -/
theorem run_of_named (hacquires : Acquires w.stub) (hsignalled : Signalled w.stub)
    (hreleases : w.stub.releaseSem = .NO_ERROR) (hname : o.pszName.length < CCHMAXPATH)
    (hEAs : o.pEABuf = none) (hmode : Daemon.OpensToRead (o.posted w f s).request)
    (hmalloc : w.daemonEnv.malloc = true)
    (hnode : s.daemon.core.volumes (w.stub.queryVPFSD o.cdfsi.cdiHVPB) = some node)
    (hlevel : 1 ≤ node.vol.ucsLevel ∧ node.vol.ucsLevel ≤ 3)
    (h : disc.OnVolume place node.vol.toVolData)
    {n : ν} {bytes : List UInt8}
    (hn : disc.resolve node.vol.nls (o.pszName.drop 2) = some n)
    (hbytes : disc.content n = .file bytes) : (o.run w f s).1 = .NO_ERROR := by
  apply run_of_granted hacquires hsignalled hreleases hname hEAs
  obtain ⟨found, hwalk, hresult⟩ := @Disc.isoQueryIsoEntryFromPath_resolve _ disc place
    ⟨node.vol.toVolData, hlevel.1, hlevel.2⟩ h _ (Disc.throughDirs_of_resolve hn)
    w.daemonEnv.sectorStack w.daemonEnv.pos
  rw [hn] at hresult
  cases hfound : found.result with
  | none =>
    rw [hfound] at hresult
    cases hresult
  | some e =>
    rw [hfound] at hresult
    obtain ⟨he⟩ := hresult
    have hfile : e.isDir = false := by
      rw [he.isDir, hbytes]
      rfl
    obtain ⟨t, ht, -⟩ := Daemon.serveAny_openCreate (s := s.daemon) (r := o.posted w f s) rfl
      hmalloc hmode hnode hlevel.2 hwalk hfound hfile
    exact congrArg Prod.fst ht

end OpenCall

/-! ### A file of the disc -/

/-- The driver and the daemon when all goes well; the disc is mounted at address 1. -/
def plainWiring : Wiring where
  env := { quietEnv fun _ => .NO_ERROR with
    queryVPFSD := fun _ => 1
    daemon := fun d q m => (d, q, m) }
  daemonEnv := Daemon.jolietRequestEnv
  control := Daemon.plainControl
  sizes := ⟨18, 17, 13⟩

/-- The open of the file in its directory. -/
def openInDirectory : OpenCall where
  cdfsi := default
  cdfsd := []
  pszName := [0x45, 0x3a, 0x2f, 0x42, 0x2f, 0x43]
  iCurDirEnd := 0
  flOpenMode := 0
  fsOpenFlag := OPEN_ACTION_OPEN_IF_EXISTS
  fsAttr := 0
  pEABuf := none

/-- A read of five bytes from the file. -/
def readFive : FileTurn := .read ⟨plainWiring, default, Memory.zeros, Memory.zeros⟩ 100 5 0

theorem openInDirectory_succeeds :
    (openInDirectory.run plainWiring ⟨default, 0⟩ (startWith Disc.twoNamesDaemon)).1 =
      .NO_ERROR := by
  have hnode : (startWith Disc.twoNamesDaemon).daemon.core.volumes 1 = some Disc.twoNamesNode := rfl
  exact OpenCall.run_of_named ⟨rfl, rfl, rfl, rfl⟩ ⟨rfl, rfl, rfl, rfl⟩ rfl (by decide) rfl
    ⟨by decide, by decide, by decide, by decide⟩ rfl hnode ⟨one_le_three, three_le_three⟩
    twoNamesDisc.onVolume_volume resolve_twoNames rfl

/-- The two bytes of the file get to address 100. -/
theorem driver_reads_file_twoNames :
    (openInDirectory.session plainWiring ⟨default, 0⟩ (startWith Disc.twoNamesDaemon)).answers
        [readFive] =
      [(.NO_ERROR, 2, Memory.zeros.blit 100 [0x68, 0x69])] := by
  obtain ⟨n, bytes, hn, hbytes, hsize, hposition, hreads⟩ := @OpenCall.driver_reads_file _ _ _
    plainWiring openInDirectory ⟨default, 0⟩ (startWith Disc.twoNamesDaemon) Disc.twoNamesNode rfl
    ⟨one_le_three, three_le_three⟩ twoNamesDisc.onVolume_volume throughDirs_twoNames (by decide)
    openInDirectory_succeeds
  obtain rfl := Option.some.inj (resolve_twoNames.symm.trans hn)
  obtain rfl : [0x68, 0x69] = bytes := FileContent.file.inj hbytes
  refine (hreads [readFive] ⟨⟨⟨⟨rfl, rfl, rfl, rfl⟩, ⟨rfl, rfl, rfl, rfl⟩, rfl, rfl⟩, rfl, ?_⟩,
    trivial⟩)
  rw [hposition]
  exact Nat.zero_le _

end Stub

end Isofs
