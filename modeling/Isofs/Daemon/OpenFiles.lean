import Isofs.Daemon.Requests

/-!
# What the requests leave of an open file

While a file is open its object stays as it is, and so does the image of its volume, whatever
requests the daemon gets, except for the final close of the file and the detach of the volume.
-/

namespace Isofs.Daemon

open Proc

/-- The object of an open file is there. -/
def FileAt (p : Ptr) (file : OpenFileData) (s : State) : Prop := s.openFiles.objects p = some file

section FileAt

variable {p : Ptr} {file : OpenFileData} {α β : Type} {env : Env}

theorem access_preserves (heap : State → Heap β) (q : Ptr) :
    Preserves (FileAt p file) (access heap q) := by
  intro s hs
  exact access_ends heap (fun _ => hs) fun _ _ => hs

theorem accessLink_preserves (heap : State → Heap β) (q : Ptr) :
    Preserves (FileAt p file) (accessLink heap q) :=
  Preserves.onlyIf ((access_preserves heap q).bind fun _ => Preserves.pure)

theorem done_preserves (rc : ApiRet) : Preserves (FileAt p file) (done rc : Handler α) :=
  Preserves.ret

theorem setRequest_preserves (f : Request → Request) : Preserves (FileAt p file) (setRequest f) :=
  Preserves.update fun _ h => h

theorem setData_preserves (pData : Memory) : Preserves (FileAt p file) (setData pData) :=
  Preserves.update fun _ h => h

theorem setVolume_preserves (v : Ptr) (f : VolNode → VolNode) :
    Preserves (FileAt p file) (setVolume v f) :=
  Preserves.update fun _ h => h

/-! ### Nodes and walks -/

theorem mallocEntries_preserves (n : ℕ) : Preserves (FileAt p file) (mallocEntries n) :=
  fun _ h => h

theorem freeEntry_preserves (q : Ptr) : Preserves (FileAt p file) (freeEntry q) :=
  (access_preserves _ q).bind fun _ => Preserves.update fun _ h => h

theorem isoFreeDirEntries_preserves (ps : List Ptr) :
    Preserves (FileAt p file) (isoFreeDirEntries ps) := by
  induction ps with
  | nil => exact Preserves.pure
  | cons q ps ih => exact (freeEntry_preserves q).bind fun _ => ih

theorem getDirEntries_preserves (vol : VolData) (pos : ℕ) (extent len : ℤ) :
    Preserves (FileAt p file) (getDirEntries vol env pos extent len) := by
  rw [getDirEntries]
  split
  · exact Preserves.ret
  · exact (mallocEntries_preserves _).bind fun _ => Preserves.pure

theorem entryLoop_preserves (vol : VolData) (pos : ℕ) (tempEntry : Option IsoDirEntry)
    (pszPath : List UInt8) :
    Preserves (FileAt p file) (entryLoop vol env pos tempEntry pszPath) := by
  induction pszPath using Components.components.induct isPathSeparator
    generalizing pos tempEntry with
  | case1 path hnil =>
    rw [entryLoop]
    split
    · exact ((mallocEntries_preserves 1).bind fun _ => Preserves.pure).bind fun _ => Preserves.pure
    · next heq =>
      rw [hnil] at heq
      cases heq
  | case2 path c cs hcons ih =>
    rw [entryLoop]
    split
    · next heq =>
      rw [hcons] at heq
      cases heq
    · next c' cs' heq =>
      obtain ⟨rfl, rfl⟩ := List.cons.inj (hcons.symm.trans heq)
      refine (getDirEntries_preserves vol pos _ _).bind fun listed => ?_
      dsimp only
      cases listed.1.find? (matchesComponent (Components.piece isPathSeparator (c :: cs))) with
      | none => exact (isoFreeDirEntries_preserves _).bind fun _ => Preserves.pure
      | some pEntry => exact (isoFreeDirEntries_preserves _).bind fun _ => ih _ _

theorem dirExtentLoop_preserves (vol : VolData) (pos : ℕ) (iRootExtent iExtent iSize : ℤ)
    (pszPath : List UInt8) :
    Preserves (FileAt p file) (dirExtentLoop vol env pos iRootExtent iExtent iSize pszPath) := by
  induction pszPath using Components.components.induct isPathSeparator
    generalizing pos iExtent iSize with
  | case1 path hnil =>
    rw [dirExtentLoop]
    split
    · exact Preserves.pure
    · next heq =>
      rw [hnil] at heq
      cases heq
  | case2 path c cs hcons ih =>
    rw [dirExtentLoop]
    split
    · next heq =>
      rw [hcons] at heq
      cases heq
    · next c' cs' heq =>
      obtain ⟨rfl, rfl⟩ := List.cons.inj (hcons.symm.trans heq)
      refine (getDirEntries_preserves vol pos _ _).bind fun listed => ?_
      dsimp only
      cases listed.1.find? (matchesComponent (Components.piece isPathSeparator (c :: cs))) with
      | none => exact (isoFreeDirEntries_preserves _).bind fun _ => Preserves.pure
      | some pEntry =>
        exact Preserves.ite ((isoFreeDirEntries_preserves _).bind fun _ => ih _ _ _)
          ((isoFreeDirEntries_preserves _).bind fun _ => Preserves.pure)

/-! ### Handlers -/

theorem freeAndReturn_preserves (node : Ptr) (rc : ApiRet) :
    Preserves (FileAt p file) (freeAndReturn node rc) :=
  (freeEntry_preserves node).bind fun _ => done_preserves rc

theorem detachVolume_preserves : Preserves (FileAt p file) detachVolume := by
  refine Preserves.read.bind fun q => Preserves.read.bind fun forced =>
    (access_preserves volumes _).bind fun node => ?_
  refine (Preserves.onlyIf (done_preserves _)).bind fun _ =>
    (Preserves.onlyIf (done_preserves _)).bind fun _ => ?_
  refine (accessLink_preserves volumes _).bind fun _ =>
    (accessLink_preserves volumes _).bind fun _ => ?_
  exact Preserves.bind (Preserves.update fun _ h => h) fun _ => done_preserves _

theorem attachVolume_preserves : Preserves (FileAt p file) (attachVolume env) := by
  refine Preserves.read.bind fun s => ?_
  cases Isofs.attachVolume env.mount env.fuel s.pData s.request s.server with
  | none => exact Preserves.ret
  | some r =>
    obtain ⟨rc, reply, server⟩ := r
    refine (Preserves.onlyIf (accessLink_preserves volumes _)).bind fun _ => ?_
    exact Preserves.bind (Preserves.update fun _ h => h) fun _ => Preserves.pure

theorem fsAttach_preserves : Preserves (FileAt p file) (fsAttach env) := by
  refine Preserves.read.bind fun q => (Preserves.onlyIf (done_preserves _)).bind fun _ => ?_
  refine Preserves.ite ?_ (Preserves.ite detachVolume_preserves
    (Preserves.ite ?_ (done_preserves _)))
  · exact attachVolume_preserves.bind fun rc =>
      Preserves.bind (Preserves.update fun _ h => h) fun _ => done_preserves rc
  · refine Preserves.read.bind fun _ => (setRequest_preserves _).bind fun _ => ?_
    refine (Preserves.onlyIf (done_preserves _)).bind fun _ => ?_
    exact Preserves.bind (Preserves.update fun _ h => h) fun _ => done_preserves _

/-- An open gives the new object an address of its own. -/
theorem finalizeOpen_preserves (pszName : List UInt8) (e : IsoDirEntry) (node : Ptr) :
    Preserves (FileAt p file) (finalizeOpen env pszName e node) := by
  refine (Preserves.onlyIf (done_preserves _)).bind fun _ => Preserves.read.bind fun new => ?_
  refine Preserves.bind (Preserves.update fun s hs => ?_) fun _ =>
    (setRequest_preserves _).bind fun _ => Preserves.read.bind fun v =>
      (access_preserves volumes v).bind fun _ => (setVolume_preserves v _).bind fun _ =>
        (setRequest_preserves _).bind fun _ => done_preserves _
  have hne : p ≠ s.openFiles.next := by
    rintro rfl
    rw [FileAt, s.openFiles.objects_next] at hs
    cases hs
  show (s.openFiles.malloc _).2.objects p = some file
  rwa [Heap.objects_malloc, Function.update_of_ne hne]

theorem openFound_preserves (q : Request) (e : IsoDirEntry) (node : Ptr) :
    Preserves (FileAt p file) (openFound env q e node) := by
  have hrefused (rc : ApiRet) := @freeAndReturn_preserves p file node rc
  have hopened := @finalizeOpen_preserves p file env e.chrName e node
  refine Preserves.ite (hrefused _) (Preserves.ite (hrefused _) (Preserves.ite (hrefused _)
    (Preserves.ite ?_ (Preserves.ite (hrefused _) (hrefused _)))))
  exact Preserves.ite hopened (Preserves.ite (hrefused _) hopened)

theorem fsOpenCreate_preserves : Preserves (FileAt p file) (fsOpenCreate env) := by
  refine (setRequest_preserves _).bind fun _ => Preserves.read.bind fun q => ?_
  refine (Preserves.onlyIf (done_preserves _)).bind fun _ =>
    (Preserves.onlyIf (done_preserves _)).bind fun _ => ?_
  refine (access_preserves volumes _).bind fun node => ?_
  refine (entryLoop_preserves _ _ _ _).bind fun found => ?_
  obtain ⟨found, pos⟩ := found
  cases found with
  | none => exact done_preserves _
  | some found => exact openFound_preserves q found.1 found.2

/-- Only the final close of the file releases its object. -/
theorem fsClose_preserves {s : State} (hs : FileAt p file s)
    (hother : ¬ (s.request.usType = FS_CL_FORSYS ∧ s.request.pOpenFileData = p)) :
    FileAt p file (fsClose.run s).2 := by
  refine @Ends.run _ _ (fun _ => FileAt p file) s fsClose (fun _ => FileAt p file) ?_
  refine Ends.bind (Ends.read (Ends.bind (Ends.onlyIf (fun hfinal => ?_) fun _ => hs)))
  have hne : p ≠ s.request.pOpenFileData := fun h => hother ⟨hfinal, h.symm⟩
  refine Ends.bind (access_ends State.openFiles (fun _ => hs) fun closed _ => ?_)
  refine Ends.bind ((freeEntry_preserves closed.pIsoEntry s hs).mono (fun _ t ht => ?_)
    fun _ _ h => h)
  refine Ends.bind (Ends.update ?_)
  refine Preserves.bind (access_preserves volumes _) (fun _ => setVolume_preserves _ _) _ ?_
  show (t.openFiles.free _).objects p = some file
  rwa [Heap.objects_free, Function.update_of_ne hne]

theorem fsRead_preserves : Preserves (FileAt p file) (fsRead env) := by
  refine Preserves.read.bind fun q => (access_preserves volumes _).bind fun node =>
    (access_preserves State.openFiles _).bind fun open' => Preserves.read.bind fun pData => ?_
  exact (setRequest_preserves _).bind fun _ => (setData_preserves _).bind fun _ => done_preserves _

theorem fsFileInfo_preserves : Preserves (FileAt p file) (fsFileInfo env) := by
  refine Preserves.read.bind fun q => (access_preserves State.openFiles _).bind fun open' =>
    (access_preserves volumes _).bind fun _ => Preserves.read.bind fun pData => ?_
  exact (setData_preserves _).bind fun _ => done_preserves _

theorem fsPathInfo_preserves : Preserves (FileAt p file) (fsPathInfo env) := by
  refine Preserves.read.bind fun q => (Preserves.onlyIf (done_preserves _)).bind fun _ =>
    (access_preserves volumes _).bind fun node => (entryLoop_preserves _ _ _ _).bind fun found => ?_
  obtain ⟨found, pos⟩ := found
  cases found with
  | none => exact done_preserves _
  | some found =>
    exact Preserves.read.bind fun pData => (setData_preserves _).bind fun _ =>
      freeAndReturn_preserves _ _

theorem fsFileAttribute_preserves : Preserves (FileAt p file) (fsFileAttribute env) := by
  refine Preserves.read.bind fun q => (Preserves.onlyIf (done_preserves _)).bind fun _ =>
    (access_preserves volumes _).bind fun node => (entryLoop_preserves _ _ _ _).bind fun found => ?_
  obtain ⟨found, pos⟩ := found
  cases found with
  | none => exact done_preserves _
  | some found =>
    exact Preserves.ite (freeAndReturn_preserves _ _)
      ((setRequest_preserves _).bind fun _ => freeAndReturn_preserves _ _)

theorem fsChDir_preserves : Preserves (FileAt p file) (fsChDir env) := by
  refine Preserves.read.bind fun q => (Preserves.onlyIf (done_preserves _)).bind fun _ => ?_
  refine Preserves.ite ?_ (Preserves.ite (done_preserves _) (done_preserves _))
  refine Preserves.read.bind fun q => (Preserves.onlyIf (done_preserves _)).bind fun _ =>
    (access_preserves volumes _).bind fun node => ?_
  refine ((dirExtentLoop_preserves _ _ _ _ _ _).bind fun _ => Preserves.pure).bind fun iExtent => ?_
  exact (Preserves.onlyIf (done_preserves _)).bind fun _ => done_preserves _

/-! ### Searches -/

theorem setSearch_preserves (q : Ptr) (f : SearchNode → SearchNode) :
    Preserves (FileAt p file) (setSearch q f) :=
  Preserves.update fun _ h => h

theorem freeSearchData_preserves (q : Ptr) : Preserves (FileAt p file) (freeSearchData q) :=
  (access_preserves _ q).bind fun _ => Preserves.update fun _ h => h

theorem closeAndReturn_preserves (q : Ptr) (rc : ApiRet) :
    Preserves (FileAt p file) (closeAndReturn q rc : Handler α) :=
  (freeSearchData_preserves q).bind fun _ => done_preserves rc

theorem storeReply_preserves (q : Ptr) (r : FindReply) :
    Preserves (FileAt p file) (storeReply q r) :=
  (setSearch_preserves q _).bind fun _ => (setRequest_preserves _).bind fun _ =>
    setData_preserves _

theorem searchedExtent_preserves (vol : VolData) (q : Ptr) (szDir : List UInt8) :
    Preserves (FileAt p file) (searchedExtent vol env q szDir) := by
  refine Preserves.ite ((entryLoop_preserves _ _ _ _).bind fun found => ?_) Preserves.pure
  obtain ⟨found, pos⟩ := found
  cases found with
  | none => exact closeAndReturn_preserves _ _
  | some found =>
    refine Preserves.ite ?_ ?_
    · exact (freeEntry_preserves _).bind fun _ => Preserves.pure
    · exact (freeEntry_preserves _).bind fun _ => closeAndReturn_preserves _ _

theorem findFirstIn_preserves (q : Request) (pSearchData : Ptr) (entries : List IsoDirEntry)
    (nodes : List Ptr) :
    Preserves (FileAt p file) (findFirstIn env q pSearchData entries nodes) := by
  refine (setSearch_preserves _ _).bind fun _ =>
    (Preserves.onlyIf (closeAndReturn_preserves _ _)).bind fun _ => Preserves.read.bind fun m => ?_
  refine (storeReply_preserves _ _).bind fun _ =>
    (Preserves.onlyIf (closeAndReturn_preserves _ _)).bind fun _ => ?_
  exact (setRequest_preserves _).bind fun _ => (setVolume_preserves _ _).bind fun _ =>
    done_preserves _

theorem findFirstFrom_preserves (q : Request) (vol : VolData) (pSearchData : Ptr) :
    Preserves (FileAt p file) (findFirstFrom env q vol pSearchData) := by
  refine (Preserves.onlyIf (closeAndReturn_preserves _ _)).bind fun _ =>
    (searchedExtent_preserves vol _ _).bind fun dir => ?_
  obtain ⟨iExtent, iSize, pos⟩ := dir
  refine (getDirEntries_preserves vol pos iExtent iSize).bind fun listed => ?_
  obtain ⟨entries, nodes, pos'⟩ := listed
  exact findFirstIn_preserves q pSearchData entries nodes

theorem fsFindFirst_preserves : Preserves (FileAt p file) (fsFindFirst env) := by
  refine Preserves.read.bind fun q => (access_preserves volumes _).bind fun node =>
    (setRequest_preserves _).bind fun _ => (Preserves.onlyIf (done_preserves _)).bind fun _ =>
      (Preserves.onlyIf (done_preserves _)).bind fun _ =>
        (Preserves.onlyIf (done_preserves _)).bind fun _ => ?_
  have hmalloc : Preserves (FileAt p file) (mallocSearch (newSearch env.toFindEnv q [])) :=
    fun _ h => h
  exact hmalloc.bind fun pSearchData => findFirstFrom_preserves q _ pSearchData

theorem findMore_preserves (q : Request) : Preserves (FileAt p file) (findMore env q) :=
  (access_preserves State.searches _).bind fun _ => Preserves.read.bind fun _ =>
    (storeReply_preserves _ _).bind fun _ => done_preserves _

theorem fsFindNext_preserves : Preserves (FileAt p file) (fsFindNext env) :=
  Preserves.read.bind fun q => (access_preserves volumes _).bind fun _ => findMore_preserves q

theorem fsFindFromName_preserves : Preserves (FileAt p file) (fsFindFromName env) :=
  Preserves.read.bind fun q => (access_preserves volumes _).bind fun _ =>
    (Preserves.onlyIf (done_preserves _)).bind fun _ => findMore_preserves q

theorem fsFindClose_preserves : Preserves (FileAt p file) fsFindClose :=
  Preserves.read.bind fun _ => (freeSearchData_preserves _).bind fun _ =>
    (access_preserves volumes _).bind fun _ => (setVolume_preserves _ _).bind fun _ =>
      done_preserves _

/-- Of the requests that use objects only the final close of the file releases its object. -/
theorem serve_preserves {s : State} {r : Incoming} (hs : FileAt p file s)
    (hother : ¬ (r.call = .close ∧ r.request.usType = FS_CL_FORSYS ∧ r.request.pOpenFileData = p)) :
    FileAt p file (serve s r).2 := by
  obtain ⟨call, q, pData, env⟩ := r
  have hbuffers : FileAt p file { s with request := q, pData := pData } := hs
  cases call with
  | attach => exact fsAttach_preserves.run hbuffers
  | openCreate => exact fsOpenCreate_preserves.run hbuffers
  | close => exact fsClose_preserves hbuffers fun h => hother ⟨rfl, h⟩
  | read => exact fsRead_preserves.run hbuffers
  | fileInfo => exact fsFileInfo_preserves.run hbuffers
  | pathInfo => exact fsPathInfo_preserves.run hbuffers
  | fileAttribute => exact fsFileAttribute_preserves.run hbuffers
  | chDir => exact fsChDir_preserves.run hbuffers
  | findFirst => exact fsFindFirst_preserves.run hbuffers
  | findNext => exact fsFindNext_preserves.run hbuffers
  | findFromName => exact fsFindFromName_preserves.run hbuffers
  | findClose => exact fsFindClose_preserves.run hbuffers

end FileAt

/-! ### The file and its volume -/

/-- The daemon has the file at `p`, and its volume at `v` with this image. -/
structure HasFile (v p : Ptr) (vol : MountedVolume) (file : OpenFileData) (s : State) : Prop where
  volume : (s.core.volumes v).map VolNode.vol = some vol
  file : FileAt p file s

/-- The request ends the use of the file: its final close, or the detach of its volume. -/
def Posted.EndsFile (v p : Ptr) (r : Posted) : Prop :=
  (r.request.rq = .FSRQ_CLOSE ∧ r.request.usType = FS_CL_FORSYS ∧ r.request.pOpenFileData = p) ∨
    (r.request.rq = .FSRQ_ATTACH ∧ r.request.fsFlag = FSA_DETACH ∧ r.request.pVolData = v)

section HasFile

variable {v p : Ptr} {vol : MountedVolume} {file : OpenFileData}

/-- The volume of a book. -/
theorem map_vol_of_book {x y : Option VolNode} (h : x.map VolNode.book = y.map VolNode.book) :
    x.map VolNode.vol = y.map VolNode.vol := by
  have hfst := congrArg (Option.map Prod.fst) h
  rwa [Option.map_map, Option.map_map] at hfst

theorem map_vol_update {volumes : Ptr → Option VolNode} {w : Ptr} {f : VolNode → VolNode}
    (hf : ∀ node, (f node).vol = node.vol) :
    (Function.update volumes w ((volumes w).map f) v).map VolNode.vol =
      (volumes v).map VolNode.vol := by
  by_cases hv : v = w
  · rw [hv, Function.update_self, Option.map_map]
    exact congrArg (fun g => (volumes w).map g) (funext hf)
  · rw [Function.update_of_ne hv]

theorem map_vol_countFiles (c : Core) (w : Ptr) (n : ℤ) :
    ((c.countFiles w n).volumes v).map VolNode.vol = (c.volumes v).map VolNode.vol :=
  @map_vol_update v c.volumes w (fun node => { node with cOpenFiles := node.cOpenFiles + n })
    fun _ => rfl

theorem map_vol_countSearches (c : Core) (w : Ptr) (n : ℤ) :
    ((c.countSearches w n).volumes v).map VolNode.vol = (c.volumes v).map VolNode.vol :=
  @map_vol_update v c.volumes w (fun node => { node with cSearches := node.cSearches + n })
    fun _ => rfl

/-- Every event but a detach leaves the image of a volume. -/
theorem Applies.map_vol {c c' : Core} {e : Event} (happ : Applies c c' e)
    (h : (c.volumes v).map VolNode.vol = some vol) (hdetach : e ≠ .detach v) :
    (c'.volumes v).map VolNode.vol = some vol := by
  cases e with
  | attach q =>
    obtain ⟨vol', -, hfree, -, -, rfl⟩ := happ
    have hbook := volLinks.map_push (f := VolNode.book) (fun _ _ => rfl) c.volumes
      c.pFirstVolume q (newVolume c.pFirstVolume vol') v
    have hne : v ≠ q := by
      rintro rfl
      rw [hfree] at h
      cases h
    rw [if_neg hne] at hbook
    exact (map_vol_of_book hbook).trans h
  | detach q =>
    obtain ⟨node, -, rfl⟩ := happ
    have hne : v ≠ q := fun hv => hdetach (congrArg Event.detach hv.symm)
    have hbook := volLinks.map_unlink (f := VolNode.book) (fun _ _ => rfl) (fun _ _ => rfl)
      c.volumes node v
    refine Eq.trans ?_ h
    dsimp only
    rw [Function.update_of_ne hne]
    exact map_vol_of_book hbook
  | «open» w q =>
    obtain ⟨n, -, -, -, rfl⟩ := happ
    exact (map_vol_countFiles (c.withNodes [n]) w 1).trans h
  | close w q =>
    obtain ⟨n, -, -, -, rfl⟩ := happ
    exact (map_vol_countFiles c w (-1)).trans h
  | find w q =>
    obtain ⟨ns, -, -, -, -, rfl⟩ := happ
    exact (map_vol_countSearches (c.withNodes ns) w 1).trans h
  | findClose w q =>
    obtain ⟨-, -, rfl⟩ := happ
    exact (map_vol_countSearches c w (-1)).trans h

/-- Only an `FS_ATTACH` with `FSA_DETACH` detaches. -/
theorem Incoming.detaches {r : Incoming} {rc : ApiRet} {reply : Request}
    (h : r.event rc reply = some (.detach v)) :
    r.call = .attach ∧ r.request.fsFlag = FSA_DETACH ∧ r.request.pVolData = v := by
  obtain ⟨call, q, pData, env⟩ := r
  rw [Incoming.event] at h
  cases call
  case attach =>
    dsimp only at h
    split_ifs at h with _ _ hflag
    · cases h
    · obtain rfl := Event.detach.inj (Option.some.inj h)
      exact ⟨rfl, hflag, rfl⟩
  all_goals
    dsimp only at h
    first | cases h | (split_ifs at h; cases h)

/-- The code of the request. -/
theorem Posted.rq_of_incoming {r : Posted} {i : Incoming} (h : r.incoming = some i) :
    i.request = r.request ∧ (i.call = .close → r.request.rq = .FSRQ_CLOSE) ∧
      (i.call = .attach → r.request.rq = .FSRQ_ATTACH) := by
  obtain ⟨call, hcall, rfl⟩ := Option.map_eq_some_iff.mp h
  refine ⟨rfl, ?_, ?_⟩
  · rintro rfl
    cases hrq : r.request.rq <;> rw [hrq] at hcall <;> cases hcall
  · rintro rfl
    cases hrq : r.request.rq <;> rw [hrq] at hcall <;> cases hcall

/-- The request detaches the volume. -/
def Posted.Detaches (v : Ptr) (r : Posted) : Prop :=
  r.request.rq = .FSRQ_ATTACH ∧ r.request.fsFlag = FSA_DETACH ∧ r.request.pVolData = v

/-- A request that is answered and does not detach the volume leaves its image as it is. -/
theorem map_vol_serveAny {s : State} (h : (s.core.volumes v).map VolNode.vol = some vol)
    {r : Posted} (hr : ¬ r.Detaches v) {rc : ApiRet} (hrc : (serveAny s r).1 = .ret rc) :
    ((serveAny s r).2.core.volumes v).map VolNode.vol = some vol := by
  cases hi : r.incoming with
  | none =>
    obtain ⟨q, m, hsame⟩ := serveAny_sameObjects hi s
    rw [hsame]
    exact h
  | some i =>
    obtain ⟨hrequest, -, hattach⟩ := Posted.rq_of_incoming hi
    rw [serveAny_of_some hi] at hrc ⊢
    have hserved := serve_served s i
    rw [hrc] at hserved
    have hreplied : Replied i s.core rc (serve s i).2.request (serve s i).2.core := hserved
    rw [Replied] at hreplied
    cases hevent : i.event rc (serve s i).2.request with
    | none =>
      rw [hevent] at hreplied
      obtain ⟨ns, -, hcore, -⟩ := hreplied
      rw [hcore]
      exact h
    | some e =>
      rw [hevent] at hreplied
      refine hreplied.map_vol h ?_
      rintro rfl
      obtain ⟨hcall, hflag, hv⟩ := Incoming.detaches hevent
      rw [hrequest] at hflag hv
      exact hr ⟨hattach hcall, hflag, hv⟩

/-- A request that is answered and does not end the use of the file leaves it as it is. -/
theorem HasFile.serveAny {s : State} (h : HasFile v p vol file s) {r : Posted}
    (hr : ¬ r.EndsFile v p) {rc : ApiRet} (hrc : (serveAny s r).1 = .ret rc) :
    HasFile v p vol file (serveAny s r).2 := by
  refine ⟨map_vol_serveAny h.volume (fun hdetach => hr (Or.inr hdetach)) hrc, ?_⟩
  cases hi : r.incoming with
  | none =>
    obtain ⟨q, m, hsame⟩ := serveAny_sameObjects hi s
    rw [hsame]
    exact h.file
  | some i =>
    obtain ⟨hrequest, hclose, -⟩ := Posted.rq_of_incoming hi
    rw [serveAny_of_some hi]
    refine serve_preserves h.file fun hfinal => hr (Or.inl ?_)
    exact ⟨hclose hfinal.1, hrequest ▸ hfinal.2⟩

end HasFile

end Isofs.Daemon
