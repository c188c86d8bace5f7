import Isofs.Daemon.Answers

/-!
# No handler uses a dead object

In a run in which every handle is used until its own final close, the objects that a request uses
are live, but for one kind of request: the close of a file or of a search whose volume has been
detached by force looks at the volume.
-/

namespace Isofs

open Memory

namespace Daemon

/-- A request that uses its handles before their final close. A close may come after its volume
was detached. -/
def Legal (sys : System) (r : Incoming) : Prop :=
  let q := r.request
  let attached := q.pVolData ∈ sys.ledger.volumes
  let isFile := q.pOpenFileData ∈ Handles.addresses sys.ledger.files
  let isSearch := q.pSearchData ∈ Handles.addresses sys.ledger.searches
  match r.call with
  | .attach => q.fsFlag = FSA_DETACH → attached
  | .openCreate | .pathInfo | .fileAttribute | .chDir | .findFirst => attached
  | .read | .fileInfo => attached ∧ isFile
  | .findNext | .findFromName => attached ∧ isSearch
  | .close => isFile ∧ (attached ∨ (q.pOpenFileData, q.pVolData) ∈ sys.ledger.files)
  | .findClose => isSearch ∧ (attached ∨ (q.pSearchData, q.pVolData) ∈ sys.ledger.searches)

/-- The final close of a handle whose volume has been detached. -/
def ClosesDetached (sys : System) (r : Incoming) : Prop :=
  r.request.pVolData ∉ sys.ledger.volumes ∧
    (r.call = .findClose ∨ r.call = .close ∧ r.request.usType = FS_CL_FORSYS)

section Represents

variable {l : Ledger} {c : Core}

theorem Represents.live_volume (h : Represents l c) {v : Ptr} :
    Live c.volumes v ↔ v ∈ l.volumes :=
  h.listed.live v

/-- The node of an open file is there. -/
theorem Represents.live_file (h : Represents l c) {p : Ptr} (hp : p ∈ Handles.addresses l.files) :
    ∃ n, c.openFiles p = some n ∧ Live c.isoDirEntries n := by
  obtain ⟨n, hn⟩ := (h.files.live p).mpr hp
  exact ⟨n, hn, h.owned.live (.file p) n hn⟩

theorem Represents.live_search (h : Represents l c) {p : Ptr}
    (hp : p ∈ Handles.addresses l.searches) : Live c.searches p :=
  (h.searches.live p).mpr hp

/-- The list starts with a volume, or is empty. -/
theorem Represents.linkLive_first (h : Represents l c) : LinkLive c c.pFirstVolume := by
  by_cases hfirst : c.pFirstVolume = 0
  · exact Or.inl hfirst
  · exact Or.inr (h.live_volume.mpr (h.listed.linked.first_mem hfirst))

/-- The links of a volume lead to volumes. -/
theorem Represents.linkLive_links (h : Represents l c) {v : Ptr} {node : VolNode}
    (hv : c.volumes v = some node) : LinkLive c node.pNext ∧ LinkLive c node.pPrev := by
  obtain ⟨xs, ys, hsplit⟩ := List.append_of_mem (h.live_volume.mp ⟨node, hv⟩)
  have hlinked := h.listed.linked
  rw [hsplit] at hlinked
  obtain ⟨hprev, hnext⟩ := hlinked.links hv
  have hlive {q : Ptr} (hq : q ∈ xs ∨ q ∈ ys) : LinkLive c q := by
    refine Or.inr (h.live_volume.mpr ?_)
    rw [hsplit, List.mem_append]
    exact hq.imp_right (List.mem_cons_of_mem v)
  constructor
  · rw [show node.pNext = ys.headD 0 from hnext]
    cases ys with
    | nil => exact Or.inl rfl
    | cons y ys => exact hlive (Or.inr List.mem_cons_self)
  · rw [show node.pPrev = xs.getLastD 0 from hprev]
    cases xs with
    | nil => exact Or.inl rfl
    | cons x xs => exact hlive (Or.inl (by rw [List.getLastD_cons]; exact List.getLastD_mem_cons))

end Represents

/-- What a legal request uses is there, unless it closes a handle of a detached volume. -/
theorem ready_of_legal {sys : System} (h : Represents sys.ledger sys.daemon.core) {r : Incoming}
    (hlegal : Legal sys r) (hopen : ¬ ClosesDetached sys r) : Ready sys.daemon.core r := by
  obtain ⟨call, q, pData, env⟩ := r
  -- a close that does not come too late
  have hvol (hclose : call = .findClose ∨ call = .close ∧ q.usType = FS_CL_FORSYS) :
      Live sys.daemon.core.volumes q.pVolData :=
    h.live_volume.mpr (not_not.mp fun hv => hopen ⟨hv, hclose⟩)
  cases call with
  | attach =>
    refine ⟨fun _ => h.linkLive_first, fun hflag => ?_⟩
    obtain ⟨node, hnode⟩ := h.live_volume.mpr (hlegal hflag)
    exact ⟨node, hnode, h.linkLive_links hnode⟩
  | openCreate => exact h.live_volume.mpr hlegal
  | pathInfo => exact h.live_volume.mpr hlegal
  | fileAttribute => exact h.live_volume.mpr hlegal
  | chDir => exact h.live_volume.mpr hlegal
  | findFirst => exact h.live_volume.mpr hlegal
  | read => exact ⟨(h.files.live _).mpr hlegal.2, h.live_volume.mpr hlegal.1⟩
  | fileInfo => exact ⟨(h.files.live _).mpr hlegal.2, h.live_volume.mpr hlegal.1⟩
  | findNext => exact ⟨h.live_search hlegal.2, h.live_volume.mpr hlegal.1⟩
  | findFromName => exact ⟨h.live_search hlegal.2, h.live_volume.mpr hlegal.1⟩
  | close => exact fun hfinal => ⟨h.live_file hlegal.1, hvol (Or.inr ⟨rfl, hfinal⟩)⟩
  | findClose => exact ⟨h.live_search hlegal.1, hvol (Or.inl rfl)⟩

/-- A request whose objects are there does not end at one that is not. -/
theorem next_ne_dead_of_ready {sys : System} {r : Incoming} (h : Ready sys.daemon.core r) :
    (sys.next r).1 ≠ .dead := by
  have hserved := serve_served sys.daemon r
  rw [next_outcome]
  intro hdead
  rw [hdead] at hserved
  exact hserved h

/-- The close of a handle looks at the volume, which may be gone. -/
theorem next_dead_of_closesDetached {sys : System} (h : Represents sys.ledger sys.daemon.core)
    {r : Incoming} (hlegal : Legal sys r) (hclose : ClosesDetached sys r) :
    (sys.next r).1 = .dead := by
  obtain ⟨call, q, pData, env⟩ := r
  obtain ⟨hgone, hcall⟩ := hclose
  have hvol {s : State} (hs : s.core = sys.daemon.core) (hq : s.request = q) :
      ¬ Live s.core.volumes s.request.pVolData := by
    rw [hs, hq, h.live_volume]
    exact hgone
  refine next_of_endsIn fun s hs hq hdata => ?_
  rcases hcall with rfl | ⟨rfl, hfinal⟩
  · have hsearch : Live s.core.searches s.request.pSearchData := by
      rw [hs, hq]
      exact h.live_search hlegal.1
    exact fsFindClose_ends hsearch (fun _ => rfl) fun hv => absurd hv (hvol hs hq)
  · have hfile : ∃ n, s.core.openFiles s.request.pOpenFileData = some n ∧
        Live s.core.isoDirEntries n := by
      rw [hs, hq]
      exact h.live_file hlegal.1
    exact fsClose_ends (by rw [hq]; exact hfinal) hfile (fun _ => rfl)
      fun hv => absurd hv (hvol hs hq)

/-- A detach succeeds unless the volume is in use. -/
theorem next_detach {sys : System} (h : Represents sys.ledger sys.daemon.core) {r : Incoming}
    {node : VolNode} (hcall : r.call = .attach) (hflag : r.request.fsFlag = FSA_DETACH)
    (hnode : sys.daemon.core.volumes r.request.pVolData = some node) :
    (sys.next r).1 = .ret (detachCode node r.request r.pData) := by
  obtain ⟨call, q, pData, env⟩ := r
  obtain rfl : call = .attach := hcall
  refine next_of_endsIn fun s hs hq hdata => ?_
  obtain ⟨hnext, hprev⟩ := h.linkLive_links hnode
  dsimp only at hflag hnode hq hdata
  subst hq hdata
  rw [← hs] at hnode hnext hprev
  exact fsAttach_detach hflag hnode hnext hprev

/-- What is left of the ledger by a detach that succeeds. -/
theorem next_detached {sys : System} (h : Represents sys.ledger sys.daemon.core) {r : Incoming}
    {node : VolNode} (hcall : r.call = .attach) (hflag : r.request.fsFlag = FSA_DETACH)
    (hnode : sys.daemon.core.volumes r.request.pVolData = some node)
    (hcode : detachCode node r.request r.pData = .NO_ERROR) :
    ∃ sys', sys.next r = (.ret .NO_ERROR, sys') ∧
      Applies sys.daemon.core sys'.daemon.core (.detach r.request.pVolData) ∧
      sys'.ledger = sys.ledger.after (.detach r.request.pVolData) := by
  have hnext : sys.next r = (.ret .NO_ERROR, (sys.next r).2) :=
    Prod.ext (hcode ▸ next_detach h hcall hflag hnode) rfl
  have hevent : r.event .NO_ERROR (sys.next r).2.daemon.request =
      some (.detach r.request.pVolData) := by
    have hattach : r.request.fsFlag ≠ FSA_ATTACH := by rw [hflag]; decide
    rw [Incoming.event, hcall]
    dsimp only
    rw [if_neg (not_not.mpr rfl), if_neg hattach, if_pos hflag]
  refine ⟨_, hnext, ?_⟩
  rcases next_replied hnext with ⟨e, he, happ, hledger⟩ | ⟨he, -⟩
  · obtain rfl := Option.some.inj (hevent.symm.trans he)
    exact ⟨happ, hledger⟩
  · cases hevent.symm.trans he

/-- In a run of legal requests a request uses a dead object exactly when it closes a handle of a
detached volume. -/
theorem dead_iff_closesDetached {sys : System} (hsys : Reachable Legal sys) {r : Incoming}
    (hlegal : Legal sys r) : (sys.next r).1 = .dead ↔ ClosesDetached sys r := by
  have h := reachable_represents hsys
  refine ⟨fun hdead => ?_, next_dead_of_closesDetached h hlegal⟩
  by_contra hopen
  exact next_ne_dead_of_ready (ready_of_legal h hlegal hopen) hdead

end Daemon

/-! ### A volume to mount -/

/-- A descriptor of level 3 whose root directory is in block 1. -/
def jolietDescriptor : List UInt8 :=
  2 :: List.replicate 87 0 ++ [0x25, 0x2f, 0x45, 0] ++ List.replicate 64 0 ++
    [34, 0, 1, 0, 0, 0, 0, 0, 0, 1, 0, 8, 0, 0, 0, 0, 8, 0] ++ List.replicate 1874 0

theorem length_jolietDescriptor : jolietDescriptor.length = 2048 := by decide +kernel

/-- The loop image with this descriptor in block 16. -/
def jolietFile : IsoFile where
  bytes := List.replicate 2048 0 ++ ((loopRecord 0 0x41 ++ loopRecord 2 0x42) ++
    (List.replicate 30648 0 ++ jolietDescriptor))
  size_lt := by
    simp only [List.length_append, List.length_replicate, length_jolietDescriptor]
    decide

def jolietVolume : VolData where
  isoFile := jolietFile
  ipd := Memory.zeros.blit 0 jolietDescriptor
  iRootExtent := 1
  iRootSize := 2048
  ucsLevel := 3
  nls := none

theorem descriptor_jolietFile :
    descriptor jolietFile 0 0 = Memory.zeros.blit 0 jolietDescriptor := by
  have hread : jolietFile.read 32768 2048 = jolietDescriptor := by
    have hlen : (List.replicate 2048 (0 : UInt8) ++ (loopRecord 0 0x41 ++ loopRecord 2 0x42) ++
        List.replicate 30648 0).length = 32768 := by
      simp only [List.length_append, List.length_replicate]
      decide
    have hbytes : jolietFile.bytes = List.replicate 2048 (0 : UInt8) ++
        (loopRecord 0 0x41 ++ loopRecord 2 0x42) ++ List.replicate 30648 0 ++ jolietDescriptor := by
      simp only [jolietFile, List.append_assoc]
    rw [IsoFile.read, hbytes, List.drop_left' hlen]
    exact List.take_of_length_le (Nat.le_of_eq length_jolietDescriptor)
  rw [descriptor]
  exact congrArg _ hread

theorem firstJoliet_jolietFile : FirstJoliet jolietFile 0 0 := by
  refine ⟨?_, ?_, fun j hj => absurd hj (Nat.not_lt_zero j)⟩
  · rw [InFile, jolietFile]
    simp only [List.length_append, List.length_replicate, length_jolietDescriptor]
    decide
  · rw [descriptor_jolietFile]
    decide +kernel

/-- A system on which the image is a file. -/
def jolietEnv : MountEnv where
  malloc := true
  loadNls _ := none
  queryCp := none
  fopen _ := some jolietFile

theorem iOffsetParm_attachParms : iOffsetParm attachParms = 0 := by decide +kernel

theorem mountedVolume_joliet {szDev : List UInt8} {scan : ScanState}
    (h : scan.ipd = descriptor jolietFile 0 0) :
    (mountedVolume jolietEnv attachParms szDev jolietFile scan).toVolData = jolietVolume := by
  have hextent : isonum733 (Memory.zeros.blit 0 jolietDescriptor) (rootRecord + 2) = 1 := by
    decide +kernel
  have hsize : isonum733 (Memory.zeros.blit 0 jolietDescriptor) (rootRecord + 10) = 2048 := by
    decide +kernel
  have hlevel : ucsLevelOf (escapeSequence (Memory.zeros.blit 0 jolietDescriptor) 2) = 3 := by
    decide +kernel
  have hset : charSetParm attachParms = [] := by decide +kernel
  rw [descriptor_jolietFile] at h
  rw [mountedVolume, jolietVolume, h, hextent, hsize, hlevel, hset]
  rfl

/-- The sector buffer once the root directory is read. -/
theorem seekRead_jolietFile (pos : ℕ) :
    jolietFile.seekRead pos (IsoFile.blockOffset 1) 2048 (Memory.zeros.clear 2048) =
      (loopSector, 4096) := by
  have hoff : IsoFile.lseek pos (IsoFile.blockOffset 1) = 2048 := IsoFile.lseek_natCast pos 2048
  have hread : jolietFile.read 2048 2048 =
      (loopRecord 0 0x41 ++ loopRecord 2 0x42) ++ List.replicate 1976 0 := by
    rw [IsoFile.read, jolietFile, List.drop_left' List.length_replicate, List.take_append,
      List.take_of_length_le (by decide)]
    have hrest : 2048 - (loopRecord 0 0x41 ++ loopRecord 2 0x42).length = 1976 := by decide
    rw [hrest, List.take_append_of_le_length (by rw [List.length_replicate]; omega),
      List.take_replicate, show min 1976 30648 = 1976 by omega]
  have hzeros : loopSector.blit 72 (List.replicate 1976 0) = loopSector := by
    funext i
    by_cases hi : 72 ≤ i ∧ i < 72 + 1976
    · rw [blit_of_lt _ hi.1 (by rw [List.length_replicate]; omega), List.getElem_replicate,
        loopSector, blit_of_not _ (Or.inr hi.1), clear]
      exact (ite_self _).symm
    · rw [blit_of_not]
      rw [List.length_replicate]
      omega
  have hblit := blit_append (Memory.zeros.clear 2048) 0 (loopRecord 0 0x41 ++ loopRecord 2 0x42)
    (List.replicate 1976 0)
  have hlen : (loopRecord 0 0x41 ++ loopRecord 2 0x42).length = 72 := by decide
  rw [hlen] at hblit
  have hlen' : ((loopRecord 0 0x41 ++ loopRecord 2 0x42) ++
      List.replicate 1976 (0 : UInt8)).length = 2048 := by
    rw [List.length_append, hlen, List.length_replicate]
  simp only [IsoFile.seekRead, hoff, hread, hlen']
  rw [← hblit]
  exact congrArg (fun m => (m, 4096)) hzeros

theorem sectorEntries_jolietVolume :
    sectorEntries jolietVolume loopSector 1 0 =
      some [loopEntry .S_IFREG 0x41 (by decide), loopEntry .S_IFDIR 0x42 (by decide)] := by
  have hlevel : jolietVolume.ucsLevel = loopVolume.ucsLevel := show (3 : ℕ) = 3 from rfl
  have hnls : jolietVolume.nls = loopVolume.nls := show (none : Option NlsTable) = none from rfl
  exact (sectorEntries_congr hlevel hnls loopSector 1 0).trans sectorEntries_loopSector

/-- The root directory of the volume. -/
theorem getDirEntries_jolietVolume (pos : ℕ) :
    getDirEntries jolietVolume Memory.zeros pos 1 2048 =
      some ([loopEntry .S_IFREG 0x41 (by decide), loopEntry .S_IFDIR 0x42 (by decide)], 4096) := by
  have hturn := dirSectors_of_pos jolietVolume (Memory.zeros.clear 2048) pos 1
    (show (0 : ℤ) < 2048 by omega) (seekRead_jolietFile pos)
  rw [getDirEntries, hturn]
  simp only [sectorEntries_jolietVolume]
  rw [dirSectors_of_nonpos _ _ _ _ (show (2048 : ℤ) - 2048 ≤ 0 by omega)]
  rfl

namespace Daemon

open Proc

def jolietRequestEnv : Env where
  malloc := true
  iNext := 0
  sectorStack := Memory.zeros
  stack := Memory.zeros
  mount := jolietEnv
  fuel := 0
  pos := 0

/-- The image is attached as drive E. -/
def attachRequest : Incoming where
  call := .attach
  request := { (default : Request) with cbParm := 524, fsFlag := FSA_ATTACH, szDev := [0x45, 0x3a] }
  pData := attachParms
  env := jolietRequestEnv

/-- The file `A` is searched for. -/
def findRequest : Incoming where
  call := .findFirst
  request :=
    { (default : Request) with
      pVolData := 1, szName := [0x45, 0x3a, 0x2f, 0x41], usLevel := FIL_STANDARD, cMatch := 1
      cbData := 300 }
  pData := Memory.zeros
  env := jolietRequestEnv

/-- The drive is detached by force. -/
def forcedDetachRequest : Incoming where
  call := .attach
  request :=
    { (default : Request) with
      pVolData := 1, cbParm := sizeofAefsDetach, fsFlag := FSA_DETACH, szDev := [0x45, 0x3a] }
  pData := Memory.zeros.blit 0 [1]
  env := jolietRequestEnv

def findCloseRequest (p : Ptr) : Incoming where
  call := .findClose
  request := { (default : Request) with pVolData := 1, pSearchData := p }
  pData := Memory.zeros
  env := jolietRequestEnv

/-- The drive is attached. -/
theorem next_attachRequest : ∃ sys node, System.initial.next attachRequest = (.ret .NO_ERROR, sys) ∧
    sys.ledger = ⟨[1], [], []⟩ ∧ sys.daemon.core.volumes 1 = some node ∧
    node.vol.toVolData = jolietVolume := by
  have hfirst : FirstJoliet jolietFile (iOffsetParm attachParms) 0 := by
    rw [iOffsetParm_attachParms]
    exact firstJoliet_jolietFile
  obtain ⟨scan, hipd, hmount⟩ := @attachVolume_of_joliet jolietEnv 0 attachParms
    attachRequest.request initial.server jolietFile 0 checkAttachParms_attachParms rfl rfl hfirst
    (Nat.le_refl 0)
  rw [iOffsetParm_attachParms] at hipd
  have hdrive : IsDrive attachRequest.request.szDev := by decide
  obtain ⟨sys, hnext, hserver, hledger⟩ := @next_mount System.initial attachRequest _ _
    rfl hdrive rfl (Or.inl rfl) hmount
  refine ⟨sys, newVolume 0 (mountedVolume jolietEnv attachParms attachRequest.request.szDev
    jolietFile scan), hnext, hledger, ?_, mountedVolume_joliet hipd⟩
  refine (congrArg (fun server : ServerData => server.volumes.objects 1) hserver).trans ?_
  exact (congrFun (objects_mount ..) 1).trans rfl

/-- The search for `A` has a first batch. -/
theorem next_findRequest {sys : System} {node : VolNode}
    (hnode : sys.daemon.core.volumes 1 = some node) (hvol : node.vol.toVolData = jolietVolume) :
    ∃ rc p sys', sys.next findRequest = (.ret rc, sys') ∧
      Applies sys.daemon.core sys'.daemon.core (.find 1 p) ∧
      sys'.ledger = sys.ledger.after (.find 1 p) := by
  have hlevel : node.vol.ucsLevel ≤ 3 := by
    rw [hvol]
    exact Nat.le_refl 3
  have hsplit : splitPath (findRequest.request.szName.drop 2) = ([], [0x41]) := by decide
  have hsize : rootRecordSize jolietVolume = 2048 := by decide +kernel
  have hsearched : SearchedEntries sys.daemon.core findRequest
      [loopEntry .S_IFREG 0x41 (by decide), loopEntry .S_IFDIR 0x42 (by decide)] := by
    refine ⟨node, 4096, hnode, by decide, ?_⟩
    rw [hvol, hsplit, searchedDir, if_neg (not_not.mpr rfl), hsize]
    exact congrArg (Option.map _) (getDirEntries_jolietVolume 0)
  have hfits : FirstFits findRequest
      [loopEntry .S_IFREG 0x41 (by decide), loopEntry .S_IFDIR 0x42 (by decide)] :=
    ⟨by decide, loopEntry .S_IFREG 0x41 (by decide), by decide, by decide⟩
  obtain ⟨rc, hrc, hout⟩ := next_findFirst_of_fits rfl hnode hlevel hsearched (List.cons_ne_nil _ _)
    hfits
  have hnext : sys.next findRequest = (.ret rc, (sys.next findRequest).2) := Prod.ext hout rfl
  have hevent : findRequest.event rc (sys.next findRequest).2.daemon.request =
      some (.find 1 (sys.next findRequest).2.daemon.request.pSearchData) := if_pos hrc
  rcases next_replied hnext with ⟨e, he, happ, hledger⟩ | ⟨he, -⟩
  · obtain rfl := Option.some.inj (hevent.symm.trans he)
    exact ⟨rc, _, _, hnext, happ, hledger⟩
  · cases hevent.symm.trans he

/-- A search whose volume has been detached by force can still be closed. -/
theorem exists_detached_search : ∃ sys p, Reachable Legal sys ∧ Legal sys (findCloseRequest p) ∧
    ClosesDetached sys (findCloseRequest p) := by
  obtain ⟨sys₁, node, hattach, hledger₁, hnode, hvol⟩ := next_attachRequest
  obtain ⟨rc, p, sys₂, hfind, -, hledger₂⟩ := next_findRequest hnode hvol
  rw [hledger₁] at hledger₂
  have hreach₁ : Reachable Legal sys₁ := .single
    ⟨attachRequest, _, fun h => absurd h (by decide), hattach⟩
  have hmem : (1 : Ptr) ∈ sys₁.ledger.volumes := by rw [hledger₁]; exact List.mem_singleton_self 1
  have hreach₂ : Reachable Legal sys₂ := hreach₁.tail ⟨findRequest, rc, hmem, hfind⟩
  have hrepr := reachable_represents hreach₂
  have hmem₂ : (1 : Ptr) ∈ sys₂.ledger.volumes := by rw [hledger₂]; exact List.mem_singleton_self 1
  obtain ⟨node₂, hnode₂⟩ := hrepr.live_volume.mpr hmem₂
  have hforced : isForced forcedDetachRequest.request forcedDetachRequest.pData = true := by
    decide +kernel
  obtain ⟨sys₃, hdetach, -, hledger₃⟩ := next_detached (r := forcedDetachRequest) hrepr rfl
    rfl hnode₂ (detachCode_eq_noError_iff.mpr ⟨by decide, fun _ => hforced⟩)
  rw [hledger₂] at hledger₃
  refine ⟨sys₃, p, hreach₂.tail ⟨forcedDetachRequest, _, fun _ => hmem₂, hdetach⟩, ?_, ?_,
    Or.inl rfl⟩
  · have hsearch : (p, (1 : Ptr)) ∈ sys₃.ledger.searches := by
      rw [hledger₃]
      exact List.mem_singleton_self _
    exact ⟨List.mem_map_of_mem hsearch, Or.inr hsearch⟩
  · rw [hledger₃]
    exact List.not_mem_nil

/-- The close of that search obeys the rule. -/
theorem dead_iff_closesDetached_findClose : ∃ sys p,
    ((sys.next (findCloseRequest p)).1 = .dead ↔ ClosesDetached sys (findCloseRequest p)) ∧
      ClosesDetached sys (findCloseRequest p) := by
  obtain ⟨sys, p, hsys, hlegal, hclose⟩ := exists_detached_search
  exact ⟨sys, p, dead_iff_closesDetached hsys hlegal, hclose⟩

/-- A handler can use a volume that is gone. -/
theorem findClose_uses_dead_volume :
    ¬ ∀ sys, Reachable Legal sys → ∀ r, Legal sys r → (sys.next r).1 ≠ .dead := by
  intro h
  obtain ⟨sys, p, hsys, hlegal, hclose⟩ := exists_detached_search
  exact h sys hsys _ hlegal (next_dead_of_closesDetached (reachable_represents hsys) hlegal hclose)

end Daemon

end Isofs
