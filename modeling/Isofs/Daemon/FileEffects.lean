import Isofs.Daemon.Effects

/-!
# What the requests on volumes and files do
-/

namespace Isofs.Daemon

open Proc

section Rules

variable {s : State} {R : Outcome → State → Prop}

theorem freeEntry_ends {p : Ptr} {Q : Unit → State → Prop}
    (hdead : ¬ Live s.isoDirEntries.objects p → R .dead s)
    (hlive : Live s.isoDirEntries.objects p → Q () (s.withNodes (s.isoDirEntries.free p))) :
    Ends (freeEntry p) Q R s :=
  Ends.bind (access_ends State.isoDirEntries hdead fun b hb =>
    Ends.update (hlive ⟨b, hb⟩))

/-- The entry that a walk has found can be released. -/
theorem freeFound_ends {node : Ptr} {nodes : Heap Unit} {Q : Unit → State → Prop}
    (hfree : s.isoDirEntries.objects node = none)
    (hnodes : nodes.objects = Function.update s.isoDirEntries.objects node (some ()))
    (h : ∀ nodes' : Heap Unit, nodes'.objects = s.isoDirEntries.objects →
      Q () (s.withNodes nodes')) :
    Ends (freeEntry node) Q R (s.withNodes nodes) := by
  have hlive : nodes.objects node = some () := by rw [hnodes, Function.update_self]
  refine freeEntry_ends (fun hdead => absurd ⟨(), hlive⟩ hdead) fun _ => ?_
  refine h (nodes.free node) ?_
  rw [Heap.objects_free, hnodes, Function.update_idem, ← hfree, Function.update_eq_self]

theorem freeAndReturn_ends {node : Ptr} {nodes : Heap Unit} {rc : ApiRet}
    {Q : Empty → State → Prop} (hfree : s.isoDirEntries.objects node = none)
    (hnodes : nodes.objects = Function.update s.isoDirEntries.objects node (some ()))
    (h : ∀ nodes' : Heap Unit, nodes'.objects = s.isoDirEntries.objects →
      R (.ret rc) (s.withNodes nodes')) :
    Ends (freeAndReturn node rc) Q R (s.withNodes nodes) :=
  Ends.bind (freeFound_ends hfree hnodes fun nodes' hnodes' => done_ends (h nodes' hnodes'))

end Rules

section Handlers

variable {q : Request} {pData : Memory} {env : Env} {s : State}

/-- A handler that ends as `Served` says. -/
def Serves (r : Incoming) (m : Handler Empty) : Prop :=
  ∀ s : State, s.request = r.request → s.pData = r.pData →
    Ends m (fun _ _ => False) (Served r s.core) s

theorem fsClose_serves : Serves ⟨.close, q, pData, env⟩ fsClose := by
  rintro s rfl -
  have hleaks := not_leaks_of_call s.core (r := ⟨.close, s.request, pData, env⟩) nofun
  refine Ends.bind (Ends.read ?_)
  refine Ends.bind (Ends.onlyIf (fun htype => ?_) fun htype => ?_)
  swap
  · -- not the final close
    exact done_ends (served_of_eq (if_neg fun h => htype h.2) hleaks rfl)
  refine Ends.bind (access_ends State.openFiles (fun hdead => ?_) fun file hfile => ?_)
  · intro hready
    obtain ⟨⟨n, hn, -⟩, -⟩ := hready htype
    obtain ⟨file, hfile, -⟩ := Option.map_eq_some_iff.mp hn
    exact hdead ⟨file, hfile⟩
  have hentry : s.core.openFiles s.request.pOpenFileData = some file.pIsoEntry := by
    show (s.openFiles.objects s.request.pOpenFileData).map _ = _
    rw [hfile]
    rfl
  refine Ends.bind (freeEntry_ends (fun hdead hready => ?_) fun hnode => ?_)
  · obtain ⟨⟨n, hn, hlive⟩, -⟩ := hready htype
    rw [hentry, Option.some.injEq] at hn
    exact hdead (hn ▸ hlive)
  refine Ends.bind (Ends.update ?_)
  refine Ends.bind (access_ends volumes (fun hdead hready => hdead (hready htype).2)
    fun node hvol => ?_)
  refine Ends.update (done_ends ?_)
  refine served_of_event (e := .close _ _) (if_pos ⟨rfl, htype⟩) ?_
  refine ⟨file.pIsoEntry, ⟨node, hvol⟩, hentry, hnode, ?_⟩
  simp only [State.core, State.withNodes, Core.countFiles, Heap.objects_free,
    Heap.objects_modify, Function.comp_update, Option.map_none]
  rfl

theorem fsRead_serves : Serves ⟨.read, q, pData, env⟩ (fsRead env) := by
  rintro s rfl -
  refine Ends.bind (Ends.read ?_)
  refine Ends.bind (access_ends volumes (fun hdead hready => hdead hready.2)
    fun node hvol => ?_)
  refine Ends.bind (access_ends State.openFiles (fun hdead hready => ?_)
    fun file hfile => ?_)
  · obtain ⟨⟨n, hn⟩, -⟩ := hready
    obtain ⟨file, hfile, -⟩ := Option.map_eq_some_iff.mp hn
    exact hdead ⟨file, hfile⟩
  refine Ends.bind (Ends.read (Ends.bind (Ends.update (Ends.bind (Ends.update ?_)))))
  exact done_ends (served_of_eq rfl (not_leaks_of_call _ nofun) rfl)

theorem fsFileInfo_serves : Serves ⟨.fileInfo, q, pData, env⟩ (fsFileInfo env) := by
  rintro s rfl -
  refine Ends.bind (Ends.read ?_)
  refine Ends.bind (access_ends State.openFiles (fun hdead hready => ?_)
    fun file hfile => ?_)
  · obtain ⟨⟨n, hn⟩, -⟩ := hready
    obtain ⟨file, hfile, -⟩ := Option.map_eq_some_iff.mp hn
    exact hdead ⟨file, hfile⟩
  refine Ends.bind (access_ends volumes (fun hdead hready => hdead hready.2)
    fun node hvol => ?_)
  refine Ends.bind (Ends.read (Ends.bind (Ends.update ?_)))
  exact done_ends (served_of_eq rfl (not_leaks_of_call _ nofun) rfl)

theorem fsPathInfo_serves : Serves ⟨.pathInfo, q, pData, env⟩ (fsPathInfo env) := by
  rintro s rfl -
  have hleaks : ¬ Leaks s.core ⟨.pathInfo, s.request, pData, env⟩ := not_leaks_of_call _ nofun
  refine Ends.bind (Ends.read ?_)
  refine Ends.bind (Ends.onlyIf (fun _ => done_ends (served_of_eq rfl hleaks rfl)) fun _ => ?_)
  refine Ends.bind (access_ends volumes (fun hdead hready => hdead hready)
    fun node hvol => ?_)
  refine Ends.bind (isoQueryIsoEntryFromPath_ends (fun h _ => ⟨node, hvol, h⟩)
    (fun w nodes _ _ hnodes => ?_) fun w e n nodes _ _ hfree hnodes => ?_)
  · exact done_ends (served_of_eq rfl hleaks (core_withNodes hnodes))
  · refine Ends.bind (Ends.read (Ends.bind (Ends.update ?_)))
    refine freeAndReturn_ends (s := { s with pData := _ }) hfree hnodes fun nodes' hnodes' => ?_
    exact served_of_eq rfl hleaks (core_withNodes hnodes')

theorem fsFileAttribute_serves : Serves ⟨.fileAttribute, q, pData, env⟩ (fsFileAttribute env) := by
  rintro s rfl -
  have hleaks : ¬ Leaks s.core ⟨.fileAttribute, s.request, pData, env⟩ :=
    not_leaks_of_call _ nofun
  refine Ends.bind (Ends.read ?_)
  refine Ends.bind (Ends.onlyIf (fun _ => done_ends (served_of_eq rfl hleaks rfl)) fun _ => ?_)
  refine Ends.bind (access_ends volumes (fun hdead hready => hdead hready)
    fun node hvol => ?_)
  refine Ends.bind (isoQueryIsoEntryFromPath_ends (fun h _ => ⟨node, hvol, h⟩)
    (fun w nodes _ _ hnodes => ?_) fun w e n nodes _ _ hfree hnodes => ?_)
  · exact done_ends (served_of_eq rfl hleaks (core_withNodes hnodes))
  · refine Ends.ite (fun _ => ?_) fun _ => Ends.bind (Ends.update ?_)
    · refine freeAndReturn_ends hfree hnodes fun nodes' hnodes' => ?_
      exact served_of_eq rfl hleaks (core_withNodes hnodes')
    · refine freeAndReturn_ends (s := { s with request := _ }) hfree hnodes
        fun nodes' hnodes' => ?_
      exact served_of_eq rfl hleaks (core_withNodes hnodes')

theorem fsChDir_serves : Serves ⟨.chDir, q, pData, env⟩ (fsChDir env) := by
  rintro s rfl -
  have hleaks : ¬ Leaks s.core ⟨.chDir, s.request, pData, env⟩ := not_leaks_of_call _ nofun
  have hdone (rc : ApiRet) : Ends (done rc : Handler Empty) (fun _ _ => False)
      (Served ⟨.chDir, s.request, pData, env⟩ s.core) s :=
    done_ends (served_of_eq rfl hleaks rfl)
  refine Ends.bind (Ends.read ?_)
  refine Ends.bind (Ends.onlyIf (fun _ => done_ends (served_of_eq rfl hleaks rfl)) fun _ => ?_)
  refine Ends.ite (fun _ => ?_) fun _ => Ends.ite (fun _ => hdone _) fun _ => hdone _
  refine Ends.bind (Ends.read ?_)
  refine Ends.bind (Ends.onlyIf (fun _ => done_ends (served_of_eq rfl hleaks rfl)) fun _ => ?_)
  refine Ends.bind (access_ends volumes (fun hdead hready => hdead hready)
    fun node hvol => ?_)
  refine Ends.bind (Ends.bind ((dirExtentLoop_ends (fun h _ => ⟨node, hvol, h⟩) env.pos
    node.vol.iRootExtent none 0 0 (s.request.szName.drop 2)).mono ?_ fun _ _ h => h))
  rintro found s' ⟨-, nodes, hnodes, rfl⟩
  have hend (rc : ApiRet) : Ends (done rc : Handler Empty) (fun _ _ => False)
      (Served ⟨.chDir, s.request, pData, env⟩ s.core) (s.withNodes nodes) :=
    done_ends (served_of_eq rfl hleaks (core_withNodes hnodes))
  exact Ends.pure (Ends.bind (Ends.onlyIf
    (fun _ => done_ends (served_of_eq rfl hleaks (core_withNodes hnodes))) fun _ => hend _))

/-- The core before the entry was allocated, with its node. -/
theorem core_withNodes_entry {node : Ptr} {nodes : Heap Unit}
    (hnodes : nodes.objects = Function.update s.isoDirEntries.objects node (some ())) :
    (s.withNodes nodes).core = s.core.withNodes [node] := by
  rw [State.core, State.withNodes, hnodes, Core.withNodes, State.core]
  congr 1
  funext p
  by_cases hp : p = node
  · rw [hp, Function.update_self, if_pos List.mem_cons_self]
  · rw [Function.update_of_ne hp, if_neg (by simpa using hp)]

theorem fresh_singleton {c : Core} {node : Ptr} (h : c.isoDirEntries node = none) :
    Fresh c [node] := by
  refine ⟨List.nodup_singleton node, fun n hn => ?_⟩
  rw [List.mem_singleton.mp hn]
  exact h

theorem finalizeOpen_ends {node : Ptr} {nodes : Heap Unit} (pszName : List UInt8)
    (e : IsoDirEntry) (hvol : Live s.core.volumes s.request.pVolData)
    (hfree : s.isoDirEntries.objects node = none)
    (hnodes : nodes.objects = Function.update s.isoDirEntries.objects node (some ())) :
    Ends (finalizeOpen env pszName e node) (fun _ _ => False)
      (Served ⟨.openCreate, { q with pVolData := s.request.pVolData }, pData, env⟩ s.core)
      (s.withNodes nodes) := by
  refine Ends.bind (Ends.onlyIf (fun hmalloc => done_ends ?_) fun _ => ?_)
  · -- the entry is not given back
    refine ⟨[node], fresh_singleton hfree, core_withNodes_entry hnodes, fun h => ?_⟩
    rw [hmalloc] at h
    cases h
  refine Ends.bind (Ends.read (Ends.bind (Ends.update (Ends.bind (Ends.update
    (Ends.bind (Ends.read ?_)))))))
  refine Ends.bind (access_ends volumes (fun hdead => absurd hvol hdead)
    fun volume _ => ?_)
  refine Ends.bind (Ends.update (Ends.bind (Ends.update (done_ends ?_))))
  refine served_of_event (e := .open _ _) rfl ?_
  refine ⟨node, hvol, ?_, fresh_singleton hfree, ?_⟩
  · show (s.openFiles.objects s.openFiles.next).map _ = none
    rw [s.openFiles.objects_next]
    rfl
  · have hcore := core_withNodes_entry hnodes
    rw [← hcore]
    simp only [State.core, State.withNodes, Core.countFiles, Heap.objects_malloc,
      Heap.objects_modify, Function.comp_update, Option.map_some]

theorem openFound_ends {node : Ptr} {nodes : Heap Unit} (p : Request) (e : IsoDirEntry)
    (hvol : Live s.core.volumes s.request.pVolData)
    (hfree : s.isoDirEntries.objects node = none)
    (hnodes : nodes.objects = Function.update s.isoDirEntries.objects node (some ())) :
    Ends (openFound env p e node) (fun _ _ => False)
      (Served ⟨.openCreate, { q with pVolData := s.request.pVolData }, pData, env⟩ s.core)
      (s.withNodes nodes) := by
  have hleaks : ¬ Leaks s.core
      ⟨.openCreate, { q with pVolData := s.request.pVolData }, pData, env⟩ :=
    not_leaks_of_call _ nofun
  have hrefused {rc : ApiRet} (hrc : rc ≠ .NO_ERROR) :
      Ends (freeAndReturn node rc) (fun _ _ => False)
        (Served ⟨.openCreate, { q with pVolData := s.request.pVolData }, pData, env⟩ s.core)
        (s.withNodes nodes) :=
    freeAndReturn_ends hfree hnodes fun _ hnodes' =>
      served_of_eq (if_neg hrc) hleaks (core_withNodes hnodes')
  have hopened : Ends (finalizeOpen env e.chrName e node) (fun _ _ => False)
      (Served ⟨.openCreate, { q with pVolData := s.request.pVolData }, pData, env⟩ s.core)
      (s.withNodes nodes) := finalizeOpen_ends e.chrName e hvol hfree hnodes
  refine Ends.ite (fun _ => hrefused (by decide)) fun _ => ?_
  refine Ends.ite (fun _ => hrefused (by decide)) fun _ => ?_
  refine Ends.ite (fun _ => hrefused (by decide)) fun _ => ?_
  refine Ends.ite (fun _ => ?_) fun _ => Ends.ite (fun _ => hrefused (by decide))
    fun _ => hrefused (by decide)
  refine Ends.ite (fun _ => hopened) fun _ => ?_
  exact Ends.ite (fun _ => hrefused (by decide)) fun _ => hopened

theorem fsOpenCreate_serves : Serves ⟨.openCreate, q, pData, env⟩ (fsOpenCreate env) := by
  rintro s rfl -
  have hleaks : ¬ Leaks s.core ⟨.openCreate, s.request, pData, env⟩ := not_leaks_of_call _ nofun
  refine Ends.bind (Ends.update (Ends.bind (Ends.read ?_)))
  refine Ends.bind (Ends.onlyIf (fun _ => done_ends (served_of_eq rfl hleaks rfl)) fun _ => ?_)
  refine Ends.bind (Ends.onlyIf (fun _ => done_ends (served_of_eq rfl hleaks rfl)) fun _ => ?_)
  refine Ends.bind (access_ends volumes (fun hdead hready => hdead hready)
    fun node hvol => ?_)
  refine Ends.bind (isoQueryIsoEntryFromPath_ends (fun h _ => ⟨node, hvol, h⟩)
    (fun w nodes _ _ hnodes => ?_) fun w e n nodes _ _ hfree hnodes => ?_)
  · exact done_ends (served_of_eq rfl hleaks (core_withNodes hnodes))
  · exact openFound_ends (q := s.request) (s := { s with request := _ }) _ e ⟨node, hvol⟩ hfree
      hnodes

/-! ### Volumes -/

theorem volLinks_next (node : VolNode) : volLinks.next node = node.pNext := rfl

theorem volLinks_prev (node : VolNode) : volLinks.prev node = node.pPrev := rfl

theorem objects_unlink (server : ServerData) (node : VolNode) :
    (unlink server node).volumes.objects = volLinks.unlink server.volumes.objects node := by
  rw [unlink, Links.unlink, volLinks_next, volLinks_prev, Links.relinkNext, Links.relinkPrev]
  by_cases hprev : node.pPrev ≠ 0
  · rw [if_pos hprev, if_pos hprev]
    by_cases hnext : node.pNext ≠ 0
    · rw [if_pos hnext, if_pos hnext]
      rfl
    · rw [if_neg hnext, if_neg hnext]
      rfl
  · rw [if_neg hprev, if_neg hprev]
    by_cases hnext : node.pNext ≠ 0
    · rw [if_pos hnext, if_pos hnext]
      rfl
    · rw [if_neg hnext, if_neg hnext]

theorem pFirstVolume_unlink (server : ServerData) (node : VolNode) :
    (unlink server node).pFirstVolume =
      if node.pPrev ≠ 0 then server.pFirstVolume else node.pNext := by
  rw [unlink]
  split <;> rfl

theorem detachVolume_ends (hflag : q.fsFlag = FSA_DETACH) (hreq : s.request = q) :
    Ends detachVolume (fun _ _ => False) (Served ⟨.attach, q, pData, env⟩ s.core) s := by
  subst hreq
  have hleaks : ¬ Leaks s.core ⟨.attach, s.request, pData, env⟩ := not_leaks_of_call _ nofun
  have hready : Ready s.core ⟨.attach, s.request, pData, env⟩ →
      ∃ node, s.core.volumes s.request.pVolData = some node ∧ LinkLive s.core node.pNext ∧
        LinkLive s.core node.pPrev := fun h => h.2 hflag
  refine Ends.bind (Ends.read (Ends.bind (Ends.read ?_)))
  refine Ends.bind (access_ends volumes (fun hdead h => ?_) fun node hvol => ?_)
  · obtain ⟨node, hnode, -, -⟩ := hready h
    exact hdead ⟨node, hnode⟩
  refine Ends.bind (Ends.onlyIf (fun _ => done_ends (served_of_eq rfl hleaks rfl)) fun _ => ?_)
  refine Ends.bind (Ends.onlyIf (fun _ => done_ends (served_of_eq rfl hleaks rfl)) fun _ => ?_)
  have hlinks (h : Ready s.core ⟨.attach, s.request, pData, env⟩) :
      LinkLive s.core node.pNext ∧ LinkLive s.core node.pPrev := by
    obtain ⟨node', hnode, hlive⟩ := hready h
    obtain rfl := Option.some.inj (hnode.symm.trans hvol)
    exact hlive
  refine Ends.bind (accessLink_ends (fun hdead h => hdead (hlinks h).1) fun _ => ?_)
  refine Ends.bind (accessLink_ends (fun hdead h => hdead (hlinks h).2) fun _ => ?_)
  refine Ends.bind (Ends.update (done_ends ?_))
  -- past its checks a detach always succeeds
  have hevent : (⟨.attach, s.request, pData, env⟩ : Incoming).event .NO_ERROR s.request =
      some (.detach s.request.pVolData) := by
    rw [Incoming.event]
    dsimp only
    rw [hflag]
    rfl
  refine served_of_event hevent ?_
  refine ⟨node, hvol, ?_⟩
  simp only [State.core, Heap.objects_free, countTable_volumes, countTable_pFirstVolume,
    objects_unlink, pFirstVolume_unlink]

theorem attachVolume_ends {R : Outcome → State → Prop} {Q : ApiRet → State → Prop}
    (hwaiting : R .waiting s) (hdead : ¬ LinkLive s.core s.server.pFirstVolume → R .dead s)
    (h : ∀ rc reply server,
      Isofs.attachVolume env.mount env.fuel s.pData s.request s.server = some (rc, reply, server) →
      Q rc { s with request := reply, server := server }) : Ends (attachVolume env) Q R s := by
  refine Ends.bind (Ends.read ?_)
  cases hattach : Isofs.attachVolume env.mount env.fuel s.pData s.request s.server with
  | none =>
    simp only [id, hattach]
    exact Ends.ret hwaiting
  | some r =>
    obtain ⟨rc, reply, server⟩ := r
    simp only [id, hattach]
    have hend : Ends (update fun s => { s with request := reply, server := server })
        (fun _ => Ends (pure rc : Handler ApiRet) Q R) R s :=
      Ends.update (Ends.pure (h rc reply server hattach))
    refine Ends.bind (Ends.onlyIf (fun _ => ?_) fun _ => Ends.bind hend)
    exact accessLink_ends hdead fun _ => Ends.bind hend

theorem served_of_attached (hflag : s.request.fsFlag = FSA_ATTACH) {rc : ApiRet} {reply : Request}
    {server : ServerData} (h : Attached s.server s.request (rc, reply, server)) (m : Memory) :
    Served ⟨.attach, s.request, pData, env⟩ s.core (.ret rc)
      { s with request := reply, server := server, pData := m } := by
  cases h with
  | fails hrc hfirst hvolumes =>
    refine served_of_eq (if_pos hrc) (not_leaks_of_call _ nofun) ?_
    rw [State.core, State.core, hfirst, hvolumes]
  | succeeds vol hpos hle hfirst hvolumes =>
    have hevent : (⟨.attach, s.request, pData, env⟩ : Incoming).event .NO_ERROR
        { s.request with pVolData := s.server.volumes.next } =
        some (.attach s.server.volumes.next) := by
      rw [Incoming.event]
      dsimp only
      rw [hflag]
      rfl
    refine served_of_event hevent ?_
    refine ⟨vol, s.server.volumes.next_ne_zero, s.server.volumes.objects_next, hpos, hle, ?_⟩
    rw [State.core, hfirst, hvolumes]
    rfl

theorem fsAttach_serves : Serves ⟨.attach, q, pData, env⟩ (fsAttach env) := by
  rintro s rfl -
  have hleaks : ¬ Leaks s.core ⟨.attach, s.request, pData, env⟩ := not_leaks_of_call _ nofun
  refine Ends.bind (Ends.read ?_)
  refine Ends.bind (Ends.onlyIf (fun _ => done_ends (served_of_eq rfl hleaks rfl)) fun _ => ?_)
  refine Ends.ite (fun hflag => ?_) fun hattach => Ends.ite (fun hflag => ?_) fun hdetach =>
    Ends.ite (fun _ => ?_) fun _ => done_ends (served_of_eq rfl hleaks rfl)
  · refine Ends.bind (attachVolume_ends rfl (fun hdead h => hdead (h.1 hflag))
      fun rc reply server h => ?_)
    exact Ends.bind (Ends.update (done_ends
      (served_of_attached hflag (attachVolume_attached h) _)))
  · exact detachVolume_ends hflag rfl
  · refine Ends.bind (Ends.read (Ends.bind (Ends.update ?_)))
    refine Ends.bind (Ends.onlyIf (fun _ => done_ends (served_of_eq rfl hleaks rfl)) fun _ => ?_)
    refine Ends.bind (Ends.update (done_ends (served_of_eq ?_ hleaks rfl)))
    rw [Incoming.event]
    dsimp only
    rw [if_neg (by decide), if_neg hattach, if_neg hdetach]

end Handlers

end Isofs.Daemon
