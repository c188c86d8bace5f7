import Isofs.Daemon.Searches
import Isofs.Volume.Mount

/-!
# What a request does to the daemon

The volumes, the files, the searches and the nodes of the daemon as functions of addresses,
and what a request may do to them: nothing, or one of six changes that its code and its reply
tell.
-/

namespace Isofs.Daemon

open Proc

/-- What the requests change. A file is given by the node of its entry, and a search by the
nodes of its list. -/
@[ext]
structure Core where
  pFirstVolume : Ptr
  volumes : Ptr → Option VolNode
  openFiles : Ptr → Option Ptr
  searches : Ptr → Option (List Ptr)
  isoDirEntries : Ptr → Option Unit

def State.core (s : State) : Core where
  pFirstVolume := s.server.pFirstVolume
  volumes := s.server.volumes.objects
  openFiles := Option.map OpenFileData.pIsoEntry ∘ s.openFiles.objects
  searches := Option.map SearchNode.nodes ∘ s.searches.objects
  isoDirEntries := s.isoDirEntries.objects

/-- There is an object at `p`. -/
def Live {β : Type} (objects : Ptr → Option β) (p : Ptr) : Prop := ∃ b, objects p = some b

/-- A link leads to an object, or is null. -/
def LinkLive (c : Core) (p : Ptr) : Prop := p = 0 ∨ Live c.volumes p

/-! ### Events -/

/-- What a request can bring about. -/
inductive Event where
  | attach (p : Ptr)
  | detach (p : Ptr)
  | open (volume p : Ptr)
  | close (volume p : Ptr)
  | find (volume p : Ptr)
  | findClose (volume p : Ptr)

/-- What a request has brought about, by its code and its reply. -/
def Incoming.event (r : Incoming) (rc : ApiRet) (reply : Request) : Option Event :=
  match r.call with
  | .attach =>
    if rc ≠ .NO_ERROR then none
    else if r.request.fsFlag = FSA_ATTACH then some (.attach reply.pVolData)
    else if r.request.fsFlag = FSA_DETACH then some (.detach r.request.pVolData)
    else none
  | .openCreate =>
    if rc = .NO_ERROR then some (.open r.request.pVolData reply.pOpenFileData) else none
  | .close =>
    if rc = .NO_ERROR ∧ r.request.usType = FS_CL_FORSYS then
      some (.close r.request.pVolData r.request.pOpenFileData)
    else none
  | .findFirst =>
    if rc = .NO_ERROR ∨ rc = .ERROR_EAS_DIDNT_FIT then
      some (.find r.request.pVolData reply.pSearchData)
    else none
  | .findClose =>
    if rc = .NO_ERROR then some (.findClose r.request.pVolData r.request.pSearchData) else none
  | _ => none

/-! ### Changes -/

/-- With further nodes. -/
def Core.withNodes (c : Core) (ns : List Ptr) : Core :=
  { c with isoDirEntries := fun p => if p ∈ ns then some () else c.isoDirEntries p }

/-- Count the open files of a volume. -/
def Core.countFiles (c : Core) (v : Ptr) (n : ℤ) : Core :=
  { c with
    volumes := Function.update c.volumes v
      ((c.volumes v).map fun node => { node with cOpenFiles := node.cOpenFiles + n }) }

/-- Count the searches of a volume. -/
def Core.countSearches (c : Core) (v : Ptr) (n : ℤ) : Core :=
  { c with
    volumes := Function.update c.volumes v
      ((c.volumes v).map fun node => { node with cSearches := node.cSearches + n }) }

/-- The nodes are new, and no two of them are the same. -/
def Fresh (c : Core) (ns : List Ptr) : Prop :=
  ns.Nodup ∧ ∀ n ∈ ns, c.isoDirEntries n = none

/-- What an event does. -/
def Applies (c c' : Core) : Event → Prop
  | .attach p => ∃ vol : MountedVolume, p ≠ 0 ∧ c.volumes p = none ∧
    1 ≤ vol.ucsLevel ∧ vol.ucsLevel ≤ 3 ∧
    c' = { c with
      pFirstVolume := p
      volumes := volLinks.push c.volumes c.pFirstVolume p (newVolume c.pFirstVolume vol) }
  | .detach p => ∃ node, c.volumes p = some node ∧
    c' = { c with
      pFirstVolume := if node.pPrev ≠ 0 then c.pFirstVolume else node.pNext
      volumes := Function.update (volLinks.unlink c.volumes node) p none }
  | .open v p => ∃ n, Live c.volumes v ∧ c.openFiles p = none ∧ Fresh c [n] ∧
    c' = { (c.withNodes [n]).countFiles v 1 with
      openFiles := Function.update c.openFiles p (some n) }
  | .close v p => ∃ n, Live c.volumes v ∧ c.openFiles p = some n ∧ Live c.isoDirEntries n ∧
    c' = { c.countFiles v (-1) with
      openFiles := Function.update c.openFiles p none
      isoDirEntries := Function.update c.isoDirEntries n none }
  | .find v p => ∃ ns, Live c.volumes v ∧ c.searches p = none ∧ ns ≠ [] ∧ Fresh c ns ∧
    c' = { (c.withNodes ns).countSearches v 1 with
      searches := Function.update c.searches p (some ns) }
  -- the nodes of the list stay
  | .findClose v p => Live c.volumes v ∧ Live c.searches p ∧
    c' = { c.countSearches v (-1) with searches := Function.update c.searches p none }

/-! ### Requests -/

/-- The objects that a request uses are there. -/
def Ready (c : Core) (r : Incoming) : Prop :=
  let q := r.request
  match r.call with
  | .attach =>
    (q.fsFlag = FSA_ATTACH → LinkLive c c.pFirstVolume) ∧
    (q.fsFlag = FSA_DETACH →
      ∃ node, c.volumes q.pVolData = some node ∧ LinkLive c node.pNext ∧ LinkLive c node.pPrev)
  | .close => q.usType = FS_CL_FORSYS →
    (∃ n, c.openFiles q.pOpenFileData = some n ∧ Live c.isoDirEntries n) ∧ Live c.volumes q.pVolData
  | .read | .fileInfo => Live c.openFiles q.pOpenFileData ∧ Live c.volumes q.pVolData
  | .findNext | .findFromName | .findClose =>
    Live c.searches q.pSearchData ∧ Live c.volumes q.pVolData
  | .openCreate | .pathInfo | .fileAttribute | .chDir | .findFirst => Live c.volumes q.pVolData

/-- The entries of the directory that an `FS_FINDFIRST` looks for, when it gets there. -/
def SearchedEntries (c : Core) (r : Incoming) (entries : List IsoDirEntry) : Prop :=
  ∃ node pos, c.volumes r.request.pVolData = some node ∧
    checkFindFirst r.env.toFindEnv r.request = .NO_ERROR ∧
    searchedDir node.vol.toVolData r.env.sectorStack r.env.pos
      (splitPath (r.request.szName.drop 2)).1 = some (.ok entries, pos)

/-- The first batch of a search in `entries` stores nothing. -/
def FirstBatchFails (r : Incoming) (entries : List IsoDirEntry) : Prop :=
  let rc := (storeMatches r.env.stack (newSearch r.env.toFindEnv r.request entries) r.pData
    r.request).rc
  rc ≠ .NO_ERROR ∧ rc ≠ .ERROR_EAS_DIDNT_FIT

/-- A search that fails behind its listing. -/
def Leaks (c : Core) (r : Incoming) : Prop :=
  r.call = .findFirst ∧ ∃ entries, SearchedEntries c r entries ∧ entries ≠ [] ∧
    FirstBatchFails r entries

/-- What a request leaves: its event applies, or only nodes were added, and those by a search
that fails behind its listing. -/
def Replied (r : Incoming) (c : Core) (rc : ApiRet) (reply : Request) (c' : Core) : Prop :=
  match r.event rc reply with
  | some e => Applies c c' e
  | none => ∃ ns, Fresh c ns ∧ c' = c.withNodes ns ∧
    (r.env.malloc = true → (ns = [] ↔ ¬ Leaks c r))

/-- What a handler that ends in `o` leaves. -/
def Served (r : Incoming) (c : Core) (o : Outcome) (s : State) : Prop :=
  match o with
  | .ret rc => Replied r c rc s.request s.core
  | .dead => ¬ Ready c r
  | .exit => ∃ node, c.volumes r.request.pVolData = some node ∧ 3 < node.vol.ucsLevel
  | .waiting => r.call = .attach

/-! ### Rules -/

section Rules

variable {s : State} {R : Outcome → State → Prop}

theorem done_ends {α : Type} {rc : ApiRet} {Q : α → State → Prop} (h : R (.ret rc) s) :
    Ends (done rc) Q R s :=
  Ends.ret h

theorem access_ends {β : Type} (heap : State → Heap β) {p : Ptr} {Q : β → State → Prop}
    (hdead : ¬ Live (heap s).objects p → R .dead s)
    (hlive : ∀ b, (heap s).objects p = some b → Q b s) : Ends (access heap p) Q R s := by
  rw [Ends, access]
  cases h : (heap s).objects p with
  | none =>
    refine hdead ?_
    rintro ⟨b, hb⟩
    rw [h] at hb
    cases hb
  | some b => exact hlive b h

theorem accessLink_ends {p : Ptr} {Q : Unit → State → Prop}
    (hdead : ¬ LinkLive s.core p → R .dead s) (hlive : LinkLive s.core p → Q () s) :
    Ends (accessLink volumes p) Q R s := by
  refine Ends.onlyIf (fun hp => ?_) fun hp => hlive (Or.inl (not_not.mp hp))
  refine Ends.bind (access_ends _ (fun h => hdead fun hl => h (hl.resolve_left hp)) fun b hb => ?_)
  exact Ends.pure (hlive (Or.inr ⟨b, hb⟩))

end Rules

/-- A heap with the same objects gives the same core. -/
theorem core_withNodes {s : State} {nodes : Heap Unit}
    (h : nodes.objects = s.isoDirEntries.objects) : (s.withNodes nodes).core = s.core := by
  rw [State.core, State.withNodes, h]
  rfl

theorem fresh_nil (c : Core) : Fresh c [] := ⟨List.nodup_nil, List.forall_mem_nil _⟩

/-- A request that brings nothing about leaves everything as it was. -/
theorem served_of_eq {r : Incoming} {c : Core} {rc : ApiRet} {s : State}
    (hevent : r.event rc s.request = none) (hleaks : ¬ Leaks c r) (hcore : s.core = c) :
    Served r c (.ret rc) s := by
  show Replied r c rc s.request s.core
  rw [Replied, hevent]
  exact ⟨[], fresh_nil c, hcore, fun _ => iff_of_true rfl hleaks⟩

theorem served_of_event {r : Incoming} {c : Core} {rc : ApiRet} {s : State} {e : Event}
    (hevent : r.event rc s.request = some e) (h : Applies c s.core e) :
    Served r c (.ret rc) s := by
  show Replied r c rc s.request s.core
  rw [Replied, hevent]
  exact h

/-- Only a search can leak. -/
theorem not_leaks_of_call {r : Incoming} (c : Core) (h : r.call ≠ .findFirst) : ¬ Leaks c r :=
  fun hleaks => h hleaks.1

end Isofs.Daemon
