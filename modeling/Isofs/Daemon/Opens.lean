import Isofs.Daemon.Lifetimes

/-!
# Opens and closes of files

What an `FS_OPENCREATE` that succeeds leaves, when one does, and what the final close of its object
releases.
-/

namespace Isofs

namespace Daemon

open Proc

/-! ### What an open leaves -/

/-- What an open that succeeds leaves: a new object, and a reply with its address and with the type
of the file. -/
structure Opened (s s' : State) : Prop where
  fresh : s.openFiles.objects s'.request.pOpenFileData = none
  live : Live s'.openFiles.objects s'.request.pOpenFileData
  sfiType : s'.request.sffsi.sfiType = (s.request.sffsi.sfiType &&& STYPE_FCB) ||| STYPE_FILE

section Open

variable {env : Env} {s : State}

theorem finalizeOpen_opened (pszName : List UInt8) (e : IsoDirEntry) (node : Ptr) :
    Ends (finalizeOpen env pszName e node) (fun _ _ => False)
      (fun o s' => o = .ret .NO_ERROR → Opened s s') s := by
  have hobject : (s.openFiles.malloc ⟨e.iExtent, e.iSize, pszName, node, e⟩).2.objects
      s.openFiles.next = some ⟨e.iExtent, e.iSize, pszName, node, e⟩ := by
    rw [Heap.objects_malloc, Function.update_self]
  refine Ends.bind (Ends.onlyIf (fun _ => done_ends nofun) fun _ => ?_)
  refine Ends.bind (Ends.read (Ends.bind (Ends.update (Ends.bind (Ends.update
    (Ends.bind (Ends.read ?_)))))))
  refine Ends.bind (access_ends volumes (fun _ => nofun) fun volume _ => ?_)
  refine Ends.bind (Ends.update (Ends.bind (Ends.update (done_ends fun _ => ?_))))
  exact ⟨s.openFiles.objects_next, ⟨_, hobject⟩, rfl⟩

theorem openFound_opened (p : Request) (e : IsoDirEntry) {node : Ptr} {nodes : Heap Unit}
    (hfree : s.isoDirEntries.objects node = none)
    (hnodes : nodes.objects = Function.update s.isoDirEntries.objects node (some ())) :
    Ends (openFound env p e node) (fun _ _ => False)
      (fun o s' => o = .ret .NO_ERROR → Opened s s') (s.withNodes nodes) := by
  have hrefused {rc : ApiRet} (hrc : rc ≠ .NO_ERROR) :
      Ends (freeAndReturn node rc) (fun _ _ => False)
        (fun o s' => o = .ret .NO_ERROR → Opened s s') (s.withNodes nodes) :=
    freeAndReturn_ends hfree hnodes fun _ _ h => absurd (Outcome.ret.inj h) hrc
  have hopened : Ends (finalizeOpen env e.chrName e node) (fun _ _ => False)
      (fun o s' => o = .ret .NO_ERROR → Opened s s') (s.withNodes nodes) :=
    (finalizeOpen_opened e.chrName e node).mono (fun _ _ h => h) fun o s' h hrc =>
      ⟨(h hrc).fresh, (h hrc).live, (h hrc).sfiType⟩
  refine Ends.ite (fun _ => hrefused (by decide)) fun _ => Ends.ite (fun _ => hrefused (by decide))
    fun _ => Ends.ite (fun _ => hrefused (by decide)) fun _ => Ends.ite (fun _ => ?_)
    fun _ => Ends.ite (fun _ => hrefused (by decide)) fun _ => hrefused (by decide)
  refine Ends.ite (fun _ => hopened) fun _ => ?_
  exact Ends.ite (fun _ => hrefused (by decide)) fun _ => hopened

theorem fsOpenCreate_opened :
    Ends (fsOpenCreate env) (fun _ _ => False) (fun o s' => o = .ret .NO_ERROR → Opened s s')
      s := by
  refine Ends.bind (Ends.update (Ends.bind (Ends.read ?_)))
  refine Ends.bind (Ends.onlyIf (fun _ => done_ends nofun) fun _ => ?_)
  refine Ends.bind (Ends.onlyIf (fun _ => done_ends nofun) fun _ => ?_)
  refine Ends.bind (access_ends volumes (fun _ => nofun) fun node _ => ?_)
  refine Ends.bind (isoQueryIsoEntryFromPath_ends (fun _ _ => nofun)
    (fun _ _ _ _ _ => done_ends nofun)
    fun w e n nodes _ _ hfree hnodes => ?_)
  refine (openFound_opened (s := { s with request := _ }) _ e hfree hnodes).mono
    (fun _ _ h => h) fun o s' h hrc => ?_
  exact ⟨(h hrc).fresh, (h hrc).live, (h hrc).sfiType⟩

/-! ### A file that is opened -/

/-- A file that is opened for reading only. -/
structure OpensForReading (q : Request) (e : IsoDirEntry) : Prop where
  path : badPath q.szName = false
  action : q.fsOpenFlag &&& 0x000f = OPEN_ACTION_OPEN_IF_EXISTS
  dasd : q.flOpenMode &&& OPEN_FLAGS_DASD = 0
  mode : (q.flOpenMode &&& OPEN_ACCESS_WRITEONLY) ||| (q.flOpenMode &&& OPEN_ACCESS_READWRITE) = 0
  name : e.chrName.length < CCHMAXPATH
  file : e.flFlags &&& FILE_DIRECTORY = 0

/-- An open of such a file succeeds when its volume is there and its path leads to it. -/
theorem fsOpenCreate_of_file {node : VolNode} {w : Walk (Option IsoDirEntry)} {e : IsoDirEntry}
    (hmalloc : env.malloc = true) (hnode : s.core.volumes s.request.pVolData = some node)
    (hlevel : node.vol.ucsLevel ≤ 3)
    (hwalk : Isofs.isoQueryIsoEntryFromPath node.vol.toVolData env.sectorStack env.pos
      (s.request.szName.drop 2) = some w) (he : w.result = some e)
    (hopens : OpensForReading s.request e) : EndsIn (.ret .NO_ERROR) (fsOpenCreate env) s := by
  -- `finalizeOpen` succeeds for any name
  have hfinal (name : List UInt8) (n : Ptr) (s' : State)
      (hvol : s'.core.volumes s'.request.pVolData = some node) :
      EndsIn (.ret .NO_ERROR) (finalizeOpen env name e n) s' := by
    refine Ends.bind (Ends.onlyIf (fun h => absurd (hmalloc.symm.trans h) nofun) fun _ => ?_)
    refine Ends.bind (Ends.read (Ends.bind (Ends.update (Ends.bind (Ends.update
      (Ends.bind (Ends.read ?_)))))))
    refine Ends.bind (access_ends volumes (fun hdead => absurd ⟨node, hvol⟩ hdead) fun _ _ => ?_)
    exact Ends.bind (Ends.update (Ends.bind (Ends.update (done_ends rfl))))
  refine Ends.bind (Ends.update (Ends.bind (Ends.read ?_)))
  refine Ends.bind (Ends.onlyIf (fun h => absurd (hopens.path.symm.trans h) nofun) fun _ => ?_)
  refine Ends.bind (Ends.onlyIf (fun h => absurd hopens.dasd h) fun _ => ?_)
  refine Ends.bind (access_ends volumes (fun hdead => absurd ⟨node, hnode⟩ hdead)
    fun node' hnode' => ?_)
  obtain rfl := Option.some.inj (hnode.symm.trans hnode')
  refine Ends.bind (isoQueryIsoEntryFromPath_ends (fun h => absurd hlevel (Nat.not_le.mpr h))
    (fun w' _ hw' hnone _ => ?_) fun w' e' n nodes hw' he' _ _ => ?_)
  · obtain rfl := Option.some.inj (hwalk.symm.trans hw')
    cases he.symm.trans hnone
  · obtain rfl := Option.some.inj (hwalk.symm.trans hw')
    obtain rfl := Option.some.inj (he.symm.trans he')
    have hactions : ¬ s.request.fsOpenFlag &&& 0x000f = OPEN_ACTION_FAIL_IF_EXISTS := by
      rw [hopens.action]
      decide
    refine Ends.ite (fun h => absurd h hactions) fun _ =>
      Ends.ite (fun h => absurd hopens.name (Nat.not_lt.mpr h)) fun _ =>
      Ends.ite (fun h => absurd hopens.file h) fun _ =>
      Ends.ite (fun _ => ?_) fun h => absurd hopens.action h
    exact Ends.ite (fun _ => hfinal _ _ _ hnode) fun _ =>
      Ends.ite (fun h => absurd hopens.mode h) fun _ => hfinal _ _ _ hnode

end Open

/-! ### A file that is closed -/

/-- A final close of an object that is there releases exactly that object. -/
theorem serve_close {env : Env} {d : State} {q : Request} {m : Memory}
    (hfinal : q.usType = FS_CL_FORSYS)
    (hobject : ∃ n, d.core.openFiles q.pOpenFileData = some n ∧ Live d.core.isoDirEntries n)
    (hvolume : Live d.core.volumes q.pVolData) :
    ∃ d', serve d ⟨.close, q, m, env⟩ = (.ret .NO_ERROR, d') ∧
      Applies d.core d'.core (.close q.pVolData q.pOpenFileData) := by
  have hrc : (serve d ⟨.close, q, m, env⟩).1 = .ret .NO_ERROR :=
    Ends.run (fsClose_ends (s := { d with request := q, pData := m }) hfinal hobject
      (absurd hvolume) fun _ => rfl)
  have hserve : serve d ⟨.close, q, m, env⟩ =
      (.ret .NO_ERROR, (serve d ⟨.close, q, m, env⟩).2) := Prod.ext hrc rfl
  have hserved := serve_served d ⟨.close, q, m, env⟩
  rw [hrc] at hserved
  have hreplied : Replied ⟨.close, q, m, env⟩ d.core .NO_ERROR _ _ := hserved
  rw [Replied, Incoming.event] at hreplied
  dsimp only at hreplied
  rw [if_pos ⟨rfl, hfinal⟩] at hreplied
  exact ⟨_, hserve, hreplied⟩

end Daemon

/-- The root directory of the volume. -/
theorem rootEntries_jolietVolume :
    getDirEntries jolietVolume Memory.zeros 0 (contentsOf jolietVolume none).1
      (contentsOf jolietVolume none).2 = some ([loopEntry .S_IFREG 0x41 (by decide),
        loopEntry .S_IFDIR 0x42 (by decide)], 4096) := by
  have hsize : rootRecordSize jolietVolume = 2048 := by decide +kernel
  have hcontents : contentsOf jolietVolume none = (1, 2048) := by
    rw [contentsOf, hsize]
    rfl
  rw [hcontents]
  exact getDirEntries_jolietVolume 0

/-- The walk to the file `A`. -/
theorem isoQueryIsoEntryFromPath_jolietVolume :
    isoQueryIsoEntryFromPath jolietVolume Memory.zeros 0 [0x2f, 0x41] =
      some ⟨some (loopEntry .S_IFREG 0x41 (by decide)), 4096, []⟩ := by
  have hpath : Components.components isPathSeparator [0x2f, 0x41] = [[0x41]] :=
    @Components.components_join _ isPathSeparator 0x2f rfl [[0x41]]
      (by simp [Components.IsComponent]; decide)
  have hfind : [loopEntry .S_IFREG 0x41 (by decide), loopEntry .S_IFDIR 0x42 (by decide)].find?
      (matchesComponent [0x41]) = some (loopEntry .S_IFREG 0x41 (by decide)) := rfl
  rw [isoQueryIsoEntryFromPath, entryLoop_eq_entryWalk, hpath,
    entryWalk_cons rootEntries_jolietVolume, hfind]
  rfl

/-- There is no file `X`. -/
theorem isoQueryIsoEntryFromPath_jolietVolume_none :
    ∃ w, isoQueryIsoEntryFromPath jolietVolume Memory.zeros 0 [0x2f, 0x58] = some w ∧
      w.result = none := by
  have hpath : Components.components isPathSeparator [0x2f, 0x58] = [[0x58]] :=
    @Components.components_join _ isPathSeparator 0x2f rfl [[0x58]]
      (by simp [Components.IsComponent]; decide)
  have hfind : [loopEntry .S_IFREG 0x41 (by decide), loopEntry .S_IFDIR 0x42 (by decide)].find?
      (matchesComponent [0x58]) = none := rfl
  rw [isoQueryIsoEntryFromPath, entryLoop_eq_entryWalk, hpath,
    entryWalk_cons rootEntries_jolietVolume, hfind]
  exact ⟨_, rfl, rfl⟩

end Isofs
